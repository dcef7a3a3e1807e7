/-
Templates that keep records apart.

A value in an IRI is percent-encoded and then consists of characters of a small alphabet.  A
character outside that alphabet can only come from a text.  So where such a character stands
between one reference and the next, nobody can mistake the one value's end for the other's start:
the filled-in string can be taken apart again, `Separated.fill_cancel`, and since the encoding
loses nothing either, two records that fill a template alike agree on all its references,
`Template.separated_expand`.

Texts before the first reference and after the last one may be anything.  They are the same for
all records.
-/
import RdfMapping.Iri.Chars
import RdfMapping.Template.Expansion
import RdfMapping.Proofs.Text.ByteEscape

namespace RdfMapping

/-! ### The alphabet of encoded values -/

/-- A character that an encoded value may have: a letter, a digit, one of the four marks that are
kept, or the percent sign. -/
def IriChar.isEncoded (c : Char) : Bool :=
  isLetter c || isDigit c || c == '-' || c == '.' || c == '_' || c == '~' || c == '%'

theorem isEncoded_of_mem_iriSafe {value : String} :
    ∀ c ∈ (iriSafe value).toList, IriChar.isEncoded c = true := by
  have hbyte : ∀ b, (ByteEscape.byte ByteEscape.isUnreserved '%' b).all IriChar.isEncoded = true :=
    forall_byte (by decide +kernel)
  intro c hc
  rw [iriSafe, String.toList_ofList, ByteEscape.encode] at hc
  obtain ⟨b, -, hb⟩ := List.mem_flatMap.mp hc
  exact List.all_eq_true.mp (hbyte b) c hb

namespace Segment

/-! ### One value for each reference -/

/-- The characters of the segments with one value in the place of each reference. -/
def fill (value : String → String) : List Segment → List Char
  | [] => []
  | text chars :: rest => chars.toList ++ fill value rest
  | reference name :: rest => (value name).toList ++ fill value rest

/-- The references of the segments in order. -/
def references (segments : List Segment) : List String := segments.filterMap reference?

variable {segments : List Segment} {value value' : String → String}

@[simp] theorem references_nil : references [] = [] := rfl

@[simp] theorem references_text (chars : String) (rest : List Segment) :
    references (text chars :: rest) = references rest := rfl

@[simp] theorem references_reference (name : String) (rest : List Segment) :
    references (reference name :: rest) = name :: references rest := rfl

/-- If every reference has one value, there is one string. -/
theorem expand_eq_fill {values : String → List String}
    (h : ∀ name ∈ references segments, values name = [value name]) :
    expand values segments = [String.ofList (fill value segments)] := by
  induction segments with
  | nil => rfl
  | cons s rest ih =>
      cases s with
      | text chars =>
          rw [expand_text, ih h, fill]
          simp [String.ofList_append]
      | reference name =>
          have hfirst := h name (by simp)
          have hrest := ih fun other hother => h other (by simp [hother])
          rw [expand_reference, hfirst, hrest, fill]
          simp [String.ofList_append]

theorem fill_congr (h : ∀ name ∈ references segments, value name = value' name) :
    fill value segments = fill value' segments := by
  induction segments with
  | nil => rfl
  | cons s rest ih =>
      cases s with
      | text chars => rw [fill, fill, ih h]
      | reference name =>
          have hfirst := h name (by simp)
          have hrest := ih fun other hother => h other (by simp [hother])
          rw [fill, fill, hfirst, hrest]

/-! ### Separated references -/

/-- The characters up to the next reference. -/
def gap : List Segment → List Char
  | text chars :: rest => chars.toList ++ gap rest
  | _ => []

/-- After every reference there is none any more, or up to the next one there is a character that
no encoded value has. -/
def Separated : List Segment → Prop
  | [] => True
  | text _ :: rest => Separated rest
  | reference _ :: rest =>
    (references rest = [] ∨ ∃ c ∈ gap rest, IriChar.isEncoded c = false) ∧ Separated rest

/-- Whatever the values are, the gap comes first. -/
theorem exists_fill_eq (value : String → String) (segments : List Segment) :
    ∃ more, fill value segments = gap segments ++ more := by
  induction segments with
  | nil => exact ⟨[], rfl⟩
  | cons s rest ih =>
      cases s with
      | text chars =>
          obtain ⟨more, hmore⟩ := ih
          exact ⟨more, by rw [fill, gap, hmore, List.append_assoc]⟩
      | reference name => exact ⟨_, rfl⟩

/-- A gap with a character of its own has a last place where values could still go on. -/
theorem exists_split_gap {cs : List Char} (h : ∃ c ∈ cs, IriChar.isEncoded c = false) :
    ∃ front c back, cs = front ++ c :: back ∧ (∀ d ∈ front, IriChar.isEncoded d = true) ∧
      IriChar.isEncoded c = false := by
  induction cs with
  | nil => simp at h
  | cons c cs ih =>
      by_cases hc : IriChar.isEncoded c = true
      · obtain ⟨d, hmem, hd⟩ := h
        rcases List.mem_cons.mp hmem with rfl | hmem
        · rw [hc] at hd
          cases hd
        · obtain ⟨front, d, back, rfl, hfront, hd⟩ := ih ⟨d, hmem, hd⟩
          refine ⟨c :: front, d, back, rfl, ?_, hd⟩
          intro e he
          rcases List.mem_cons.mp he with rfl | he
          · exact hc
          · exact hfront e he
      · exact ⟨[], c, cs, rfl, nofun, by simpa using hc⟩

/-- A value ends where the gap behind it has a character of its own. -/
theorem value_cancel_gap {v w gap x y : List Char} (hv : ∀ c ∈ v, IriChar.isEncoded c = true)
    (hw : ∀ c ∈ w, IriChar.isEncoded c = true) (hgap : ∃ c ∈ gap, IriChar.isEncoded c = false)
    (h : v ++ (gap ++ x) = w ++ (gap ++ y)) : v = w := by
  obtain ⟨front, c, back, rfl, hfront, hc⟩ := exists_split_gap hgap
  have hlong : ∀ u : List Char, (∀ c ∈ u, IriChar.isEncoded c = true) →
      ∀ c ∈ u ++ front, IriChar.isEncoded c = true := by
    intro u hu c hmem
    rcases List.mem_append.mp hmem with hmem | hmem
    · exact hu c hmem
    · exact hfront c hmem
  have hstart : ∀ z : List Char, ∀ d ∈ (c :: (back ++ z)).head?, IriChar.isEncoded d = false := by
    rintro z d ⟨⟩
    exact hc
  have hsame : (v ++ front) ++ c :: (back ++ x) = (w ++ front) ++ c :: (back ++ y) := by
    simpa using h
  obtain ⟨hends, -⟩ := append_cancel (hlong v hv) (hlong w hw) (hstart x) (hstart y) hsame
  exact List.append_cancel_right hends

/-- Values can be taken off the filled-in string, one after the other. -/
theorem Separated.fill_cancel (h : Separated segments)
    (hvalue : ∀ name, ∀ c ∈ (value name).toList, IriChar.isEncoded c = true)
    (hvalue' : ∀ name, ∀ c ∈ (value' name).toList, IriChar.isEncoded c = true)
    (hfill : fill value segments = fill value' segments) :
    ∀ name ∈ references segments, value name = value' name := by
  induction segments with
  | nil => exact nofun
  | cons s rest ih =>
      cases s with
      | text chars => exact ih h (List.append_cancel_left hfill)
      | reference name =>
          obtain ⟨hgap, hrest⟩ := h
          rw [fill, fill] at hfill
          have hfirst : (value name).toList = (value' name).toList := by
            rcases hgap with hlast | hgap
            · -- Behind the last reference the string is the same for all values.
              have hsame : fill value rest = fill value' rest := fill_congr (by simp [hlast])
              rw [hsame] at hfill
              exact List.append_cancel_right hfill
            · obtain ⟨more, hmore⟩ := exists_fill_eq value rest
              obtain ⟨more', hmore'⟩ := exists_fill_eq value' rest
              rw [hmore, hmore'] at hfill
              exact value_cancel_gap (hvalue name) (hvalue' name) hgap hfill
          rw [hfirst] at hfill
          have hothers := ih hrest (List.append_cancel_left hfill)
          intro other hother
          rcases List.mem_cons.mp hother with rfl | hother
          · exact String.toList_inj.mp hfirst
          · exact hothers other hother

end Segment

/-! ### Records -/

/-- The first value of a reference as it stands in an IRI. -/
def Record.encoded (r : Record) (name : String) : String := iriSafe ((r.get name).headD "")

theorem Record.get_eq_of_length {r : Record} {name : String} (h : (r.get name).length = 1) :
    r.get name = [(r.get name).headD ""] := by
  obtain ⟨value, hvalue⟩ := List.length_eq_one_iff.mp h
  rw [hvalue]
  rfl

theorem Template.expand_eq_fill {t : Template} {r : Record}
    (h : ∀ name ∈ t.references, (r.get name).length = 1) :
    t.expand r true = [String.ofList (Segment.fill r.encoded t.segments)] := by
  refine Segment.expand_eq_fill fun name hname => ?_
  rw [Record.get_eq_of_length (h name hname)]
  rfl

/--
**A template whose references are separated keeps records apart.**  Records that have one value
for each reference fill it in with one string each, and the strings are equal exactly if the
records agree on all references.
-/
theorem Template.separated_expand {t : Template} (h : Segment.Separated t.segments)
    {r r' : Record} (hr : ∀ name ∈ t.references, (r.get name).length = 1)
    (hr' : ∀ name ∈ t.references, (r'.get name).length = 1) :
    ∃ iri iri', t.expand r true = [iri] ∧ t.expand r' true = [iri'] ∧
      (iri = iri' ↔ ∀ name ∈ t.references, r.get name = r'.get name) := by
  refine ⟨_, _, expand_eq_fill hr, expand_eq_fill hr', ?_⟩
  rw [String.ofList_inj]
  constructor
  · intro hfill name hname
    have hencoded := h.fill_cancel (fun _ => isEncoded_of_mem_iriSafe)
      (fun _ => isEncoded_of_mem_iriSafe) hfill name hname
    rw [Record.get_eq_of_length (hr name hname), Record.get_eq_of_length (hr' name hname),
      iriSafe_injective hencoded]
  · intro hget
    refine Segment.fill_congr fun name hname => ?_
    rw [Record.encoded, Record.encoded, hget name hname]

/-- Places on shelves; the text between the references starts like a value. -/
def shelfTemplate : Template where
  source := "ex:\x7broom\x7dx/\x7bplace\x7d"
  segments := [.text "ex:", .reference "room", .text "x/", .reference "place"]
  reads := by rfl

/-- A room whose name looks like the text behind it, and no place. -/
def cellar : Record := .ofPairs [("room", "1x/"), ("place", "")]

/-- A place whose name looks like the text before it. -/
def attic : Record := .ofPairs [("room", "1"), ("place", "x/")]

theorem shelf_separated_expand :
    Segment.Separated shelfTemplate.segments ∧
      (∀ name ∈ shelfTemplate.references, (cellar.get name).length = 1) ∧
      (∀ name ∈ shelfTemplate.references, (attic.get name).length = 1) ∧
      shelfTemplate.expand cellar true ≠ shelfTemplate.expand attic true := by
  have hseparated : Segment.Separated shelfTemplate.segments :=
    ⟨.inr ⟨'/', by decide, by decide⟩, .inl rfl, trivial⟩
  have hcellar : ∀ name ∈ shelfTemplate.references, (cellar.get name).length = 1 := by decide
  have hattic : ∀ name ∈ shelfTemplate.references, (attic.get name).length = 1 := by decide
  obtain ⟨iri, iri', hiri, hiri', hsame⟩ :=
    Template.separated_expand hseparated hcellar hattic
  refine ⟨hseparated, hcellar, hattic, ?_⟩
  rw [hiri, hiri']
  intro h
  have hagree := hsame.mp (List.singleton_inj.mp h) "room" (by decide)
  revert hagree
  decide

end RdfMapping
