/-
What a term map can make.

Whatever its values come from, a term map makes terms of its own kind: IRIs, blank nodes
labelled in the scope it is used in, or literals in normal form with the datatype and the
language it asks for.  `Generator.canMake_of_terms` says so for all records, functions and
base IRIs.
-/
import RdfMapping.Generation
import RdfMapping.Proofs.Term.Reading
import RdfMapping.Proofs.Text.ByteEscape

namespace RdfMapping

/-! ### Terms from values -/

namespace TermMap

/-- The term is one that the term map makes in a scope from some value. -/
def CanMake (m : TermMap) (scope : String) (t : Term) : Prop :=
  match m.termType with
  | .iri => ∃ value, t = .iri value
  | .blankNode => ∃ value, t = .blank (blankLabel scope value)
  | .literal => ∃ value, t = .normalLiteral value m.datatype m.language

theorem canMake_of_termOf? {m : TermMap} {base : Option Iri} {scope value : String} {t : Term}
    (h : m.termOf? base scope value = some t) : m.CanMake scope t := by
  unfold termOf? at h
  unfold CanMake
  cases htype : m.termType with
  | iri =>
      rw [htype] at h
      obtain ⟨iri, -, rfl⟩ := Option.map_eq_some_iff.mp h
      exact ⟨iri, rfl⟩
  | blankNode =>
      rw [htype] at h
      exact ⟨value, (Option.some.inj h).symm⟩
  | literal =>
      rw [htype] at h
      exact ⟨value, (Option.some.inj h).symm⟩

theorem canMake_constantTerm (m : TermMap) (base : Option Iri) (scope value : String) :
    m.CanMake scope (m.constantTerm base scope value) := by
  unfold constantTerm
  cases hterm : m.termOf? base scope value with
  | some t => exact canMake_of_termOf? hterm
  | none =>
      -- Only an IRI can fail to become a term, and then it is kept as it is.
      unfold termOf? at hterm
      unfold CanMake
      cases htype : m.termType with
      | iri => exact ⟨value, rfl⟩
      | blankNode => rw [htype] at hterm; cases hterm
      | literal => rw [htype] at hterm; cases hterm

theorem CanMake.isIri {m : TermMap} {scope : String} {t : Term} (h : m.CanMake scope t)
    (htype : m.termType = .iri) : t.isIri = true := by
  unfold CanMake at h
  rw [htype] at h
  obtain ⟨value, rfl⟩ := h
  rfl

theorem CanMake.isLiteral_eq_false {m : TermMap} {scope : String} {t : Term}
    (h : m.CanMake scope t) (htype : m.termType ≠ .literal) : t.isLiteral = false := by
  unfold CanMake at h
  cases hm : m.termType with
  | iri => rw [hm] at h; obtain ⟨value, rfl⟩ := h; rfl
  | blankNode => rw [hm] at h; obtain ⟨value, rfl⟩ := h; rfl
  | literal => exact absurd hm htype

/-- Literals are made in normal form. -/
theorem CanMake.normal {m : TermMap} {scope : String} {t : Term} (h : m.CanMake scope t) :
    t.Normal := by
  unfold CanMake at h
  cases hm : m.termType with
  | iri => rw [hm] at h; obtain ⟨value, rfl⟩ := h; trivial
  | blankNode => rw [hm] at h; obtain ⟨value, rfl⟩ := h; trivial
  | literal => rw [hm] at h; obtain ⟨value, rfl⟩ := h; exact Term.normal_normalLiteral _ _ _

end TermMap

/-! ### Terms from records -/

namespace Generator

variable {g : Generator} {record : Record} {scope : String} {m : TermMap}

/-- Two steps in a row that end in a value both do. -/
theorem exists_of_bind_eq_ok {ε σ α β : Type} {x : EStateM ε σ α} {f : α → EStateM ε σ β}
    {s s' : σ} {b : β} (h : (x >>= f) s = .ok b s') :
    ∃ a s₁, x s = .ok a s₁ ∧ f a s₁ = .ok b s' := by
  change EStateM.bind x f s = _ at h
  rw [EStateM.bind] at h
  split at h
  · rename_i a s₁ hx
    exact ⟨a, s₁, hx, h⟩
  · cases h

theorem canMake_of_keep {values : List String} {notes notes' : Array GenerationNote}
    {ts : List Term} (h : g.keep m scope values notes = .ok ts notes') :
    ∀ t ∈ ts, m.CanMake scope t := by
  have hts : ts = values.filterMap (m.termOf? g.base scope) := by
    rw [keep, m.convert_eq] at h
    cases h
    rfl
  intro t ht
  rw [hts] at ht
  obtain ⟨value, -, hvalue⟩ := List.mem_filterMap.mp ht
  exact TermMap.canMake_of_termOf? hvalue

theorem canMake_of_generate {notes notes' : Array GenerationNote} {ts : List Term}
    (h : g.generate record scope m notes = .ok ts notes') : ∀ t ∈ ts, m.CanMake scope t := by
  obtain ⟨source, termType, datatype, language⟩ := m
  cases source with
  | constant value =>
      rw [generate] at h
      cases h
      intro t ht
      rw [List.mem_singleton.mp ht]
      exact TermMap.canMake_constantTerm _ _ _ _
  | reference name =>
      rw [generate] at h
      exact canMake_of_keep h
  | template t =>
      rw [generate] at h
      exact canMake_of_keep h
  | function call =>
      obtain ⟨id, parameters⟩ := call
      rw [generate] at h
      obtain ⟨outcome, notes₁, -, h⟩ := exists_of_bind_eq_ok h
      obtain ⟨values, notes₂, -, h⟩ := exists_of_bind_eq_ok h
      exact canMake_of_keep h

/-- **A term map makes nothing but terms of its kind.** -/
theorem canMake_of_terms {ts : List Term} (h : g.terms m record scope = .ok ts) :
    ∀ t ∈ ts, m.CanMake scope t := by
  unfold terms evaluate at h
  split at h
  · rename_i terms notes hgenerate
    cases h
    exact canMake_of_generate hgenerate
  · cases h

end Generator

/-! ### Labels -/

theorem space_notMem_byte :
    ∀ b : UInt8, ' ' ∉ ByteEscape.byte ByteEscape.isAlphanumeric '_' b :=
  forall_byte (by decide +kernel)

/-- Neither the position of a triples map nor an escaped value has a space in it. -/
theorem space_notMem_blankLabel (position : Nat) (value : String) :
    ' ' ∉ (blankLabel (blankScope position) value).toList := by
  have hdigits : ' ' ∉ Nat.toDigits 10 position := by
    intro hmem
    have := Nat.isDigit_of_mem_toDigits (by decide) (by decide) hmem
    exact absurd this (by decide)
  have hencode : ' ' ∉ ByteEscape.encode ByteEscape.isAlphanumeric '_' value := by
    intro hmem
    obtain ⟨b, -, hb⟩ := List.mem_flatMap.mp hmem
    exact space_notMem_byte b hb
  simp [blankLabel, blankScope, Nat.toString_eq_repr, Nat.toList_repr, hdigits, hencode]

theorem TermMap.CanMake.labelled {m : TermMap} {position : Nat} {t : Term}
    (h : m.CanMake (blankScope position) t) : t.Labelled := by
  unfold TermMap.CanMake at h
  cases hm : m.termType with
  | iri => rw [hm] at h; obtain ⟨value, rfl⟩ := h; trivial
  | blankNode => rw [hm] at h; obtain ⟨value, rfl⟩ := h; exact space_notMem_blankLabel position value
  | literal => rw [hm] at h; obtain ⟨value, rfl⟩ := h; cases m.language <;> trivial

end RdfMapping
