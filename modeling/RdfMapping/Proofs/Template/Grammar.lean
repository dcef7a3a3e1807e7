/-
The grammar of templates.

A template is written as a sequence of parts.  A part is a sign, which is a character that stands
for itself or any character behind a backslash, or a placeholder, which is one or more signs in
braces.  `Template.Part` is this grammar as a type: every list of parts can be written down, and
`parse_grammar` says that what is written so is all that is accepted.

The grammar does not say how signs are gathered into texts.  What a list of parts and a list of
segments have in common are their items: single characters, and references as a whole.  Segments
are `Compact` if their texts are as long as they can be, and two compact lists of segments with
the same items are equal, `Segment.Says.unique`.  So the segments of a template are determined by
the items of its parts, and nothing about the order in which the reader works comes into it.
-/
import Mathlib.Data.List.Chain
import RdfMapping.Template.Basic
import RdfMapping.Proofs.Text.PrefixCode

namespace RdfMapping

namespace Template

/-! ### Parts -/

/-- The character stands for itself in a template: it is no backslash and no brace. -/
def IsPlain (c : Char) : Prop := c ≠ '\\' ∧ c ≠ '\x7b' ∧ c ≠ '\x7d'

instance : DecidablePred IsPlain := fun c =>
  inferInstanceAs (Decidable (c ≠ '\\' ∧ c ≠ '\x7b' ∧ c ≠ '\x7d'))

/-- A character as it is written in a template. -/
inductive Sign where
  /-- A character that stands for itself. -/
  | plain (c : Char) (h : IsPlain c)
  /-- Any character behind a backslash. -/
  | escaped (c : Char)

/-- The character that is meant. -/
def Sign.char : Sign → Char
  | plain c _ => c
  | escaped c => c

/-- The characters that are written for it. -/
def Sign.written : Sign → List Char
  | plain c _ => [c]
  | escaped c => ['\\', c]

/-- A part of a template as it is written. -/
inductive Part where
  /-- A character of a text. -/
  | sign (s : Sign)
  /-- A reference in braces. -/
  | placeholder (name : List Sign) (h : name ≠ [])

/-- The characters that are written for a part. -/
def Part.written : Part → List Char
  | sign s => s.written
  | placeholder name _ => '\x7b' :: name.flatMap Sign.written ++ ['\x7d']

/-- The string that is written for a list of parts. -/
def write (parts : List Part) : String := String.ofList (parts.flatMap Part.written)

/-- What a template has at a place, however it is written. -/
inductive Item where
  /-- One character of a text. -/
  | char (c : Char)
  /-- A whole reference. -/
  | reference (name : String)
deriving DecidableEq

/-- Whether the item belongs to a text. -/
def Item.isChar : Item → Bool
  | char _ => true
  | reference _ => false

/-- What a part stands for. -/
def Part.item : Part → Item
  | sign s => .char s.char
  | placeholder name _ => .reference (String.ofList (name.map Sign.char))

end Template

open Template

namespace Segment

/-! ### Segments and their items -/

/-- The items of a segment. -/
def items : Segment → List Item
  | text chars => chars.toList.map .char
  | reference name => [.reference name]

/-- No text is empty, no two texts are neighbours, and no reference is without a name. -/
structure Compact (segments : List Segment) : Prop where
  text_ne : ∀ chars, text chars ∈ segments → chars ≠ ""
  name_ne : ∀ name, reference name ∈ segments → name ≠ ""
  apart : segments.IsChain fun s s' => s.reference?.isSome ∨ s'.reference?.isSome

/-- The segments have these items, in as few texts as possible. -/
structure Says (segments : List Segment) (items : List Item) : Prop where
  compact : Compact segments
  items_eq : segments.flatMap Segment.items = items

variable {segments rest : List Segment} {is : List Item} {chars name : String}

theorem compact_nil : Compact [] := ⟨nofun, nofun, .nil⟩

theorem Compact.tail {s : Segment} (h : Compact (s :: rest)) : Compact rest where
  text_ne chars hmem := h.text_ne chars (List.mem_cons_of_mem _ hmem)
  name_ne name hmem := h.name_ne name (List.mem_cons_of_mem _ hmem)
  apart := h.apart.tail

theorem Compact.cons_reference (h : Compact rest) (hname : name ≠ "") :
    Compact (reference name :: rest) where
  text_ne chars hmem := by
    rcases List.mem_cons.mp hmem with hfirst | hlater
    · cases hfirst
    · exact h.text_ne chars hlater
  name_ne other hmem := by
    rcases List.mem_cons.mp hmem with hfirst | hlater
    · cases hfirst
      exact hname
    · exact h.name_ne other hlater
  apart := h.apart.cons fun _ _ => .inl rfl

/-- A text may stand in front of a reference or of nothing. -/
theorem Compact.cons_text (h : Compact rest) (hchars : chars ≠ "")
    (hnext : ∀ s ∈ rest.head?, s.reference?.isSome) : Compact (text chars :: rest) where
  text_ne other hmem := by
    rcases List.mem_cons.mp hmem with hfirst | hlater
    · cases hfirst
      exact hchars
    · exact h.text_ne other hlater
  name_ne name hmem := by
    rcases List.mem_cons.mp hmem with hfirst | hlater
    · cases hfirst
    · exact h.name_ne name hlater
  apart := h.apart.cons fun s hs => .inr (hnext s hs)

theorem Says.nil : Says [] [] := ⟨compact_nil, rfl⟩

theorem Says.flush (collected : List Char) :
    Says (flush collected) (collected.reverse.map .char) := by
  cases collected with
  | nil => exact .nil
  | cons c cs => exact ⟨compact_nil.cons_text (by simp) nofun, by simp [Segment.flush, items]⟩

/-- What was collected before a reference is a text of its own, if it is anything at all. -/
theorem Says.flush_reference (h : Says rest is) (hname : name ≠ "") (collected : List Char) :
    Says (Segment.flush collected ++ reference name :: rest)
      (collected.reverse.map .char ++ .reference name :: is) := by
  have hrest : Compact (reference name :: rest) := h.compact.cons_reference hname
  cases collected with
  | nil => exact ⟨hrest, by simp [Segment.flush, items, h.items_eq]⟩
  | cons c cs =>
      refine ⟨hrest.cons_text (by simp) ?_, ?_⟩
      · rintro s ⟨⟩
        rfl
      · simp [Segment.flush, items, h.items_eq]

/-! ### What is written is read -/

theorem readText_sign (collected : List Char) (s : Sign) (cs : List Char) :
    readText collected (s.written ++ cs) = readText (s.char :: collected) cs := by
  cases s with
  | plain c h =>
      obtain ⟨hmark, hopen, hclose⟩ := h
      exact readText.eq_6 collected c cs (fun _ _ hc _ => hmark hc) (fun hc _ => hmark hc) hopen
        hclose
  | escaped c => exact readText.eq_2 collected c cs

theorem readReference_sign (collected : List Char) (s : Sign) (cs : List Char) :
    readReference collected (s.written ++ cs) = readReference (s.char :: collected) cs := by
  cases s with
  | plain c h =>
      obtain ⟨hmark, hopen, hclose⟩ := h
      exact readReference.eq_6 collected c cs (fun _ _ hc _ => hmark hc) (fun hc _ => hmark hc)
        hopen hclose
  | escaped c => exact readReference.eq_2 collected c cs

/-- The signs up to the closing brace are the name of the reference. -/
theorem readReference_signs (signs : List Sign) (cs : List Char) :
    ∀ collected : List Char, collected.reverse ++ signs.map Sign.char ≠ [] →
      readReference collected (signs.flatMap Sign.written ++ '\x7d' :: cs)
        = (reference (String.ofList (collected.reverse ++ signs.map Sign.char)) :: ·)
            <$> readText [] cs := by
  induction signs with
  | nil =>
      intro collected hname
      rw [List.flatMap_nil, List.nil_append, readReference]
      have hempty : collected.isEmpty = false := by
        rw [List.isEmpty_eq_false_iff]
        rintro rfl
        simp at hname
      simp [hempty]
  | cons s signs ih =>
      intro collected hname
      rw [List.flatMap_cons, List.append_assoc, readReference_sign, ih _ (by simp)]
      simp

/-- Parts are read as segments with their items, whatever text was collected before. -/
theorem exists_readText (parts : List Part) :
    ∀ collected : List Char, ∃ segments,
      readText collected (parts.flatMap Part.written) = .ok segments ∧
        Says segments (collected.reverse.map .char ++ parts.map Part.item) := by
  induction parts with
  | nil =>
      intro collected
      exact ⟨flush collected, rfl, by simpa using Says.flush collected⟩
  | cons part parts ih =>
      intro collected
      cases part with
      | sign s =>
          obtain ⟨segments, hread, hsays⟩ := ih (s.char :: collected)
          refine ⟨segments, ?_, by simpa [Part.item] using hsays⟩
          rw [List.flatMap_cons, Part.written, readText_sign, hread]
      | placeholder name h =>
          obtain ⟨segments, hread, hsays⟩ := ih []
          have hname : name.map Sign.char ≠ [] := by simpa using h
          refine ⟨_, ?_, hsays.flush_reference (by simpa using hname) collected⟩
          have hreference := readReference_signs name (parts.flatMap Part.written) [] hname
          rw [hread] at hreference
          rw [List.flatMap_cons, Part.written, List.cons_append, List.cons_append,
            List.append_assoc, readText]
          exact congrArg ((flush collected ++ ·) <$> ·) hreference

/-! ### What is read was written -/

/-- What a template may begin with. -/
inductive Beginning : List Char → Prop
  | nothing : Beginning []
  | sign (s : Sign) (rest : List Char) : Beginning (s.written ++ rest)
  | dangling : Beginning ['\\']
  | opening (rest : List Char) : Beginning ('\x7b' :: rest)
  | closing (rest : List Char) : Beginning ('\x7d' :: rest)

theorem beginning (cs : List Char) : Beginning cs := by
  cases cs with
  | nil => exact .nothing
  | cons c cs =>
      by_cases hmark : c = '\\'
      · subst hmark
        cases cs with
        | nil => exact .dangling
        | cons c cs => exact .sign (.escaped c) cs
      · by_cases hopen : c = '\x7b'
        · subst hopen
          exact .opening cs
        · by_cases hclose : c = '\x7d'
          · subst hclose
            exact .closing cs
          · exact .sign (.plain c ⟨hmark, hopen, hclose⟩) cs

theorem length_lt_of_sign (s : Sign) (rest : List Char) :
    rest.length < (s.written ++ rest).length := by
  cases s with
  | plain c h => exact Nat.lt_succ_self _
  | escaped c => exact Nat.lt_succ_of_lt (Nat.lt_succ_self _)

/-- A reference that is read was written as signs and a closing brace, and has a name. -/
theorem exists_signs_of_readReference {collected cs : List Char} {segments : List Segment}
    (h : readReference collected cs = .ok segments) :
    ∃ signs rest, cs = List.flatMap Sign.written signs ++ '\x7d' :: rest ∧
      collected.reverse ++ signs.map Sign.char ≠ [] ∧
      ∃ segments', readText [] rest = .ok segments' := by
  induction hlength : cs.length using Nat.strong_induction_on generalizing cs collected with
  | _ n ih =>
      cases beginning cs with
      | nothing => cases h
      | sign s rest =>
          rw [readReference_sign] at h
          have hlt := length_lt_of_sign s rest
          obtain ⟨signs, rest', rfl, hname, hrest⟩ := ih _ (hlength ▸ hlt) h rfl
          exact ⟨s :: signs, rest', by simp, by simp, hrest⟩
      | dangling => cases h
      | opening rest => cases h
      | closing rest =>
          rw [readReference] at h
          split at h
          · cases h
          · rename_i hempty
            cases hrest : readText [] rest with
            | error fault => rw [hrest] at h; cases h
            | ok segments' => exact ⟨[], rest, rfl, by simpa using hempty, segments', hrest⟩

/-- A template that is read was written as parts. -/
theorem exists_parts_of_readText {collected cs : List Char} {segments : List Segment}
    (h : readText collected cs = .ok segments) :
    ∃ parts : List Part, cs = parts.flatMap Part.written := by
  induction hlength : cs.length using Nat.strong_induction_on
    generalizing cs collected segments with
  | _ n ih =>
      cases beginning cs with
      | nothing => exact ⟨[], rfl⟩
      | sign s rest =>
          rw [readText_sign] at h
          have hlt := length_lt_of_sign s rest
          obtain ⟨parts, rfl⟩ := ih _ (hlength ▸ hlt) h rfl
          exact ⟨.sign s :: parts, rfl⟩
      | dangling => cases h
      | opening rest =>
          rw [readText] at h
          cases hreference : readReference [] rest with
          | error fault => rw [hreference] at h; cases h
          | ok segments' =>
              obtain ⟨signs, rest', rfl, hname, segments'', hrest⟩ :=
                exists_signs_of_readReference hreference
              have hlt : rest'.length < n := by
                rw [← hlength]
                simp
                omega
              obtain ⟨parts, rfl⟩ := ih _ hlt hrest rfl
              refine ⟨.placeholder signs (by simpa using hname) :: parts, ?_⟩
              simp [Part.written]
      | closing rest => cases h

/-! ### The items determine the segments -/

/-- What follows a text does not go on with a character. -/
theorem Compact.isChar_head (h : Compact (text chars :: rest)) :
    ∀ i ∈ (rest.flatMap items).head?, i.isChar = false := by
  cases rest with
  | nil => simp
  | cons s rest =>
      cases s with
      | text other =>
          have hapart := (List.isChain_cons_cons.mp h.apart).1
          simp [reference?] at hapart
      | reference name =>
          rintro i ⟨⟩
          rfl

/-- Segments that have no items at all are none. -/
theorem Compact.eq_nil (h : Compact segments) (hitems : segments.flatMap items = []) :
    segments = [] := by
  cases segments with
  | nil => rfl
  | cons s rest =>
      cases s with
      | text chars =>
          have hchars := h.text_ne chars (by simp)
          simp [items] at hitems
          exact absurd hitems.1 hchars
      | reference name => simp [items] at hitems

/-- A text does not start with a reference. -/
theorem Compact.items_text_ne (h : Compact (text chars :: rest)) (name : String) (is : List Item) :
    (text chars :: rest).flatMap items ≠ .reference name :: is := by
  have hchars : chars.toList ≠ [] := by simpa using h.text_ne chars (by simp)
  obtain ⟨c, cs, hcs⟩ := List.exists_cons_of_ne_nil hchars
  simp [items, hcs]

theorem Compact.unique {segments' : List Segment} (h : Compact segments) (h' : Compact segments')
    (hitems : segments.flatMap items = segments'.flatMap items) : segments = segments' := by
  induction segments generalizing segments' with
  | nil => exact (h'.eq_nil hitems.symm).symm
  | cons s rest ih =>
      cases segments' with
      | nil => exact h.eq_nil hitems
      | cons s' rest' =>
          cases s with
          | text chars =>
              cases s' with
              | text chars' =>
                  have hall : ∀ cs : List Char, ∀ i ∈ cs.map Item.char, i.isChar = true := by
                    intro cs i hi
                    obtain ⟨c, -, rfl⟩ := List.mem_map.mp hi
                    rfl
                  obtain ⟨hchars, hrest⟩ := append_cancel (hall chars.toList) (hall chars'.toList)
                    h.isChar_head h'.isChar_head hitems
                  have hchars := List.map_injective_iff.mpr (fun _ _ => Item.char.inj) hchars
                  rw [String.toList_inj.mp hchars, ih h.tail h'.tail hrest]
              | reference name => exact absurd hitems (h.items_text_ne name _)
          | reference name =>
              cases s' with
              | text chars => exact absurd hitems.symm (h'.items_text_ne name _)
              | reference name' =>
                  obtain ⟨hname, hrest⟩ := List.cons_eq_cons.mp hitems
                  rw [Item.reference.inj hname, ih h.tail h'.tail hrest]

/-- There is only one way to say the same. -/
theorem Says.unique {segments' : List Segment} (h : Says segments is) (h' : Says segments' is) :
    segments = segments' :=
  h.compact.unique h'.compact (h.items_eq.trans h'.items_eq.symm)

end Segment

namespace Template

theorem parse_eq_ok_iff {source : String} {t : Template} :
    parse source = .ok t ↔ t.source = source := by
  constructor
  · intro h
    unfold parse at h
    split at h
    · cases h
      rfl
    · cases h
  · rintro rfl
    exact t.parse_source

/-- What is written for parts is a template that says what the parts say. -/
theorem exists_parse_write (parts : List Part) :
    ∃ t, parse (write parts) = .ok t ∧ Segment.Says t.segments (parts.map Part.item) := by
  obtain ⟨segments, hread, hsays⟩ := Segment.exists_readText parts []
  have hread : Segment.readAll (write parts).toList = .ok segments := by
    rwa [write, String.toList_ofList]
  exact ⟨⟨write parts, segments, hread⟩, parse_eq_ok_iff.mpr rfl, hsays⟩

/-- A template was written as parts. -/
theorem exists_parts (t : Template) : ∃ parts, t.source = write parts := by
  obtain ⟨parts, hparts⟩ := Segment.exists_parts_of_readText t.reads
  exact ⟨parts, by rw [write, ← hparts, String.ofList_toList]⟩

/--
**A string is a template exactly if it is written in the grammar, and its segments are then what
the parts say, gathered into texts as long as possible.**
-/
theorem parse_grammar :
    (∀ source, (∃ t, parse source = .ok t) ↔ ∃ parts, source = write parts) ∧
    ∀ parts, ∃ t, parse (write parts) = .ok t ∧
      ∀ segments, t.segments = segments ↔ Segment.Says segments (parts.map Part.item) := by
  refine ⟨fun source => ⟨?_, ?_⟩, fun parts => ?_⟩
  · rintro ⟨t, h⟩
    rw [← parse_eq_ok_iff.mp h]
    exact t.exists_parts
  · rintro ⟨parts, rfl⟩
    obtain ⟨t, h, -⟩ := exists_parse_write parts
    exact ⟨t, h⟩
  · obtain ⟨t, h, hsays⟩ := exists_parse_write parts
    refine ⟨t, h, fun segments => ⟨?_, hsays.unique⟩⟩
    rintro rfl
    exact hsays

end Template

end RdfMapping
