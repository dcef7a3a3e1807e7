/-
Templates that never lose a term.

A value that should become an IRI and does not is dropped without an error.  This cannot happen to
the values of a template that starts with an absolute IRI whose authority is over, as long as its
other texts stay within what a path, a query and a fragment have in common.  Whatever the record
holds, an encoded value is a run of path characters, so every string of the template is the IRI it
starts with, prolonged (`Segment.Anchored.exists_parse`), and each of them becomes a term
(`Generator.anchored_evaluate`).
-/
import Mathlib.Algebra.BigOperators.Group.List.Basic
import RdfMapping.Generation
import RdfMapping.Proofs.Iri.Continuation
import RdfMapping.Proofs.Template.Separation

namespace RdfMapping

/-! ### Runs of path characters -/

theorem Run.flatMap {allowed stop : Char → Bool} {α : Type} {f : α → List Char} {as : List α}
    (h : ∀ a ∈ as, Run allowed stop (f a)) : Run allowed stop (as.flatMap f) := by
  induction as with
  | nil => exact .nil
  | cons a as ih =>
      rw [List.flatMap_cons]
      exact (h a (by simp)).append (ih fun b hb => h b (by simp [hb]))

namespace Iri

theorem continues_of_isPath {cs : List Char} (h : ∀ c ∈ cs, IriChar.isPath c = true) :
    Continues cs := by
  induction cs with
  | nil => exact .nil
  | cons c cs ih =>
      have hc := h c (by simp)
      have hends : IriChar.endsPath c = false := by
        rw [IriChar.endsPath, Bool.or_eq_false_iff, beq_eq_false_iff_ne, beq_eq_false_iff_ne]
        exact ⟨IriChar.ne_of_isPath hc (by decide), IriChar.ne_of_isPath hc (by decide)⟩
      have hmark : c ≠ '%' := IriChar.ne_of_isPath hc (by decide)
      exact .char hc hends hmark (ih fun d hd => h d (by simp [hd]))

/-- Encoded, any value may stand in a path. -/
theorem continues_iriSafe (value : String) : Continues (iriSafe value).toList := by
  have hkept : ∀ b, ByteEscape.isUnreserved b = true →
      IriChar.isPath (Char.ofNat b.toNat) = true :=
    forall_byte (by decide +kernel)
  have hdigits : ∀ b : UInt8, Hex.isDigit (Hex.digit (b.toNat / 16)) = true ∧
      Hex.isDigit (Hex.digit (b.toNat % 16)) = true :=
    forall_byte (by decide +kernel)
  rw [iriSafe, String.toList_ofList]
  refine Run.flatMap fun b _ => ?_
  unfold ByteEscape.byte
  split
  · rename_i hkeep
    exact continues_of_isPath (by simpa using hkept b hkeep)
  · exact .escape rfl (hdigits b).1 (hdigits b).2 .nil

end Iri

namespace Segment

/-! ### All strings of a template -/

variable {segments : List Segment} {values : String → List String}

/-- There is one string for each choice of one value for each reference. -/
theorem length_expand (values : String → List String) (segments : List Segment) :
    (expand values segments).length =
      ((references segments).map fun name => (values name).length).prod := by
  induction segments with
  | nil => rfl
  | cons s rest ih =>
      cases s with
      | text chars => rw [expand_text, List.length_map, ih, references_text]
      | reference name =>
          rw [expand_reference, List.length_flatMap, references_reference, List.map_cons,
            List.prod_cons, ← ih]
          simp

theorem continues_of_mem_expand
    (htexts : ∀ chars, .text chars ∈ segments → Iri.Continues chars.toList)
    (hvalues : ∀ name, ∀ v ∈ values name, Iri.Continues v.toList) :
    ∀ s ∈ expand values segments, Iri.Continues s.toList := by
  induction segments with
  | nil =>
      intro s hs
      rw [expand_nil, List.mem_singleton] at hs
      subst hs
      exact .nil
  | cons first rest ih =>
      have hrest := ih fun chars hchars => htexts chars (by simp [hchars])
      intro s hs
      cases first with
      | text chars =>
          rw [expand_text] at hs
          obtain ⟨more, hmore, rfl⟩ := List.mem_map.mp hs
          rw [String.toList_append]
          exact (htexts chars (by simp)).append (hrest more hmore)
      | reference name =>
          rw [expand_reference] at hs
          obtain ⟨v, hv, hs⟩ := List.mem_flatMap.mp hs
          obtain ⟨more, hmore, rfl⟩ := List.mem_map.mp hs
          rw [String.toList_append]
          exact (hvalues name v hv).append (hrest more hmore)

/-! ### Anchored templates -/

/-- The segments start with an absolute IRI whose authority is over, and the other texts consist
of what may stand for itself in a path, a query and a fragment alike. -/
def Anchored : List Segment → Prop
  | .text start :: rest =>
    (∃ i, Iri.parse start = .ok i ∧ i.PastAuthority) ∧
      ∀ chars, .text chars ∈ rest → ∀ c ∈ chars.toList,
        IriChar.isPath c = true ∧ IriChar.isQuery c = true ∧ IriChar.isFragment c = true
  | _ => False

/-- Every string is the IRI at the start, prolonged. -/
theorem Anchored.exists_parse (h : Anchored segments)
    (hvalues : ∀ name, ∀ v ∈ values name, Iri.Continues v.toList) :
    ∃ i : Iri, ∀ s ∈ expand values segments, ∃ more, Iri.parse s = .ok (i.prolong more) := by
  cases segments with
  | nil => exact h.elim
  | cons first rest =>
      cases first with
      | reference name => exact h.elim
      | text start =>
          obtain ⟨⟨i, hparse, hi⟩, htexts⟩ := h
          refine ⟨i, fun s hs => ?_⟩
          rw [expand_text] at hs
          obtain ⟨more, hmore, rfl⟩ := List.mem_map.mp hs
          have hrun := continues_of_mem_expand
            (fun chars hchars =>
              Iri.continues_of_isPath fun c hc => (htexts chars hchars c hc).1)
            hvalues more hmore
          have hlonger := Iri.parse_append hparse hi hrun
          rw [String.ofList_toList] at hlonger
          exact ⟨_, hlonger⟩

end Segment

/-! ### Terms -/

theorem absoluteIri?_of_parse {base : Option Iri} {value : String} {i : Iri}
    (h : Iri.parse value = .ok i) : absoluteIri? base value = some value := by
  have hvalid : Iri.isValid value = true := by rw [Iri.isValid, h]; rfl
  rw [absoluteIri?, if_pos hvalid]

/-- Absolute IRIs are kept as they are, whatever the base is. -/
theorem TermMap.convert_of_parse {m : TermMap} {base : Option Iri} {scope : String}
    {values : List String} (htype : m.termType = .iri)
    (h : ∀ v ∈ values, ∃ i, Iri.parse v = .ok i) :
    m.convert base scope values = (values.map .iri, []) := by
  have hterm : ∀ v ∈ values, m.termOf? base scope v = some (.iri v) := by
    intro v hv
    obtain ⟨i, hi⟩ := h v hv
    rw [TermMap.termOf?, htype]
    simp only [absoluteIri?_of_parse hi, Option.map_some]
  rw [m.convert_eq]
  refine Prod.ext ?_ ?_
  · rw [List.filterMap_congr hterm, List.filterMap_eq_map']
  · refine List.filter_eq_nil_iff.mpr fun v hv => ?_
    simp [hterm v hv]

theorem Generator.keep_of_parse {g : Generator} {m : TermMap} {scope : String}
    {values : List String} (htype : m.termType = .iri)
    (h : ∀ v ∈ values, ∃ i, Iri.parse v = .ok i) :
    g.keep m scope values = pure (values.map .iri) := by
  funext notes
  rw [keep, TermMap.convert_of_parse htype h]
  change EStateM.Result.ok _ (notes ++ #[]) = _
  rw [Array.append_empty]
  rfl

/--
**An anchored template never loses a term.**  There is one IRI for each choice of one value for
each reference, it is what the template yields for that choice, and nothing is dropped.
-/
theorem Generator.anchored_evaluate (g : Generator) {m : TermMap} {t : Template}
    (hsource : m.source = .template t) (htype : m.termType = .iri)
    (h : Segment.Anchored t.segments) (record : Record) (scope : String) :
    g.evaluate m record scope = (.ok ((t.expand record true).map .iri), #[]) ∧
      (t.expand record true).length =
        (t.references.map fun name => (record.get name).length).prod := by
  have hvalues : ∀ name, ∀ v ∈ (record.get name).map iriSafe, Iri.Continues v.toList := by
    intro name v hv
    obtain ⟨value, -, rfl⟩ := List.mem_map.mp hv
    exact Iri.continues_iriSafe value
  obtain ⟨i, hi⟩ := h.exists_parse hvalues
  have hparse : ∀ v ∈ t.expand record true, ∃ i, Iri.parse v = .ok i := by
    intro v hv
    obtain ⟨more, hmore⟩ := hi v hv
    exact ⟨_, hmore⟩
  constructor
  · obtain ⟨source, type, datatype, language⟩ := m
    subst hsource htype
    have hencoded : (TermType.iri == TermType.iri) = true := rfl
    rw [evaluate, generate, hencoded, keep_of_parse rfl hparse]
    rfl
  · rw [Template.expand, Segment.length_expand]
    simp [Template.references, Segment.references]

/-- Pages of an archive, asked for in a query. -/
def pageTemplate : Template where
  source := "http://u@archive:80/x?of=\x7bshelf\x7d/p\x7bpage\x7d"
  segments :=
    [.text "http://u@archive:80/x?of=", .reference "shelf", .text "/p", .reference "page"]
  reads := by rfl

/-- A shelf without a name, one that looks like the end of a query, and two pages. -/
def holdings : Record :=
  .ofPairs [("shelf", ""), ("shelf", "ü?#"), ("page", "%"), ("page", "://")]

theorem pages_anchored_evaluate :
    Segment.Anchored pageTemplate.segments ∧
      (⟨{}, none⟩ : Generator).evaluate (.ofSource (.template pageTemplate)) holdings "tm0" =
        (.ok [.iri "http://u@archive:80/x?of=/p%25", .iri "http://u@archive:80/x?of=/p%3A%2F%2F",
          .iri "http://u@archive:80/x?of=%C3%BC%3F%23/p%25",
          .iri "http://u@archive:80/x?of=%C3%BC%3F%23/p%3A%2F%2F"], #[]) := by
  have hanchored : Segment.Anchored pageTemplate.segments := by
    refine ⟨⟨⟨"http".toList, some "u@archive:80".toList, "/x".toList, some "of=".toList, none⟩,
      by decide +kernel, by decide, by decide⟩, ?_⟩
    intro chars hchars c hc
    obtain rfl : chars = "/p" := by simpa using hchars
    have hchar : c = '/' ∨ c = 'p' := by simpa using hc
    rcases hchar with rfl | rfl <;> decide
  have hsource :
      (TermMap.ofSource (.template pageTemplate)).source = .template pageTemplate := rfl
  obtain ⟨hterms, -⟩ := Generator.anchored_evaluate ⟨{}, none⟩ hsource rfl hanchored holdings "tm0"
  refine ⟨hanchored, hterms.trans ?_⟩
  have hexpand : pageTemplate.expand holdings true =
      ["http://u@archive:80/x?of=/p%25", "http://u@archive:80/x?of=/p%3A%2F%2F",
        "http://u@archive:80/x?of=%C3%BC%3F%23/p%25",
        "http://u@archive:80/x?of=%C3%BC%3F%23/p%3A%2F%2F"] := by
    decide +kernel
  rw [hexpand]
  rfl

end RdfMapping
