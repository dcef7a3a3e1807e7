/-
Quads that can be read off their text.

Two quads may have the same canonical text although they differ, but only because labels and
language tags are written as they are.  IRIs, datatypes and the values of literals are
escaped, whatever characters they have.  So if no label and no tag has a space in it, then
the spaces of the text are where one component ends and the next one begins, and the text
determines the quad: `Quad.canonical_inj`.

Nothing is asked of the places in which terms stand.  Literals may be subjects, predicates
and graphs here, which no run makes.
-/
import RdfMapping.Proofs.Quad.Lookalike

namespace RdfMapping

/-! ### Terms -/

/-- The term can be read off its text: a label and a language tag have no space in them, and a
literal is made by `Term.normalLiteral`. -/
inductive Term.Legible : Term → Prop
  | iri (value : String) : Legible (.iri value)
  | blank {label : String} (h : ' ' ∉ label.toList) : Legible (.blank label)
  | literal (value : String) (datatype : Option String) {language : Option String}
      (h : ∀ tag, language = some tag → ' ' ∉ tag.toList) :
      Legible (.normalLiteral value datatype language)

namespace Term.Legible

variable {t u : Term}

theorem normal (h : t.Legible) : t.Normal := by
  cases h with
  | iri value => trivial
  | blank h => trivial
  | literal value datatype h => exact normal_normalLiteral value datatype _

theorem labelled (h : t.Legible) : t.Labelled := by
  cases h with
  | iri value => trivial
  | blank h => exact h
  | @literal value datatype language h => cases language <;> trivial

theorem space_notMem_tag {value tag : String} (h : (langString value tag).Legible) :
    ' ' ∉ tag.toList := by
  generalize hterm : langString value tag = t at h
  cases h with
  | iri other => cases hterm
  | blank h => cases hterm
  | @literal other datatype language h =>
      cases language with
      | none => simp [langString, normalLiteral] at hterm
      | some tag' =>
          obtain ⟨-, rfl⟩ : value = other ∧ tag = tag' := by
            simpa [langString, normalLiteral] using hterm
          exact h tag rfl

/-- The text of a legible term up to a space determines the term and what follows. -/
theorem render_cancel {x y : List Char} (ht : t.Legible) (hu : u.Legible)
    (h : t.render ++ ' ' :: x = u.render ++ ' ' :: y) : t = u ∧ x = y := by
  rcases Term.render_cancel ht.normal hu.normal ht.labelled hu.labelled h with
    hsame | ⟨value, tag, tag', rfl, rfl, htags⟩
  · exact hsame
  · obtain ⟨htag, hrest⟩ := append_cons_cancel ht.space_notMem_tag hu.space_notMem_tag htags
    rw [String.toList_inj] at htag
    exact ⟨by rw [htag], hrest⟩

end Term.Legible

/-- The text of a term does not start with a point. -/
theorem Term.render_ne_point (t : Term) (x y : List Char) : t.render ++ x ≠ '.' :: y := by
  cases t <;> simp [render, iriText]

/-! ### Quads -/

namespace Quad

/-- All components of the quad can be read off their texts. -/
structure Legible (q : Quad) : Prop where
  subject : q.subject.Legible
  predicate : q.predicate.Legible
  object : q.object.Legible
  graph : ∀ t, q.graph = some t → t.Legible

variable {q r : Quad}

/-- What follows the object determines the graph. -/
theorem Legible.graph_eq_of_ending (hq : q.Legible) (hr : r.Legible)
    (h : q.ending = r.ending) : q.graph = r.graph := by
  unfold ending at h
  cases hgraph : q.graph with
  | none =>
      cases hgraph' : r.graph with
      | none => rfl
      | some u =>
          rw [hgraph, hgraph'] at h
          exact absurd h.symm (u.render_ne_point _ _)
  | some t =>
      cases hgraph' : r.graph with
      | none =>
          rw [hgraph, hgraph'] at h
          exact absurd h (t.render_ne_point _ _)
      | some u =>
          rw [hgraph, hgraph'] at h
          obtain ⟨rfl, -⟩ := (hq.graph t hgraph).render_cancel (hr.graph u hgraph') h
          rfl

/--
**The canonical text of a legible quad determines it.**  IRIs, datatypes and values may be any
strings at all.
-/
theorem canonical_inj (hq : q.Legible) (hr : r.Legible) :
    q.canonical = r.canonical ↔ q = r := by
  refine ⟨fun h => ?_, congrArg canonical⟩
  rw [q.canonical_eq, r.canonical_eq, String.ofList_inj, q.render_eq, r.render_eq] at h
  obtain ⟨hsubject, h⟩ := hq.subject.render_cancel hr.subject h
  obtain ⟨hpredicate, h⟩ := hq.predicate.render_cancel hr.predicate h
  obtain ⟨hobject, h⟩ := hq.object.render_cancel hr.object h
  have hgraph := hq.graph_eq_of_ending hr h
  cases q
  cases r
  simp_all

/-- A statement whose value goes on like the end of a line. -/
def ofQuotation : Quad :=
  ⟨.blank "a>", .iri "ex:p> <ex:q", .normalLiteral "x\"@en <ex:g> .\n" none (some "en"), none⟩

/-- The line that the value of the other one ends like. -/
def ofQuoted : Quad :=
  ⟨.blank "a>", .iri "ex:p> <ex:q", .normalLiteral "x" none (some "en"), some (.iri "ex:g")⟩

theorem ofQuotation_canonical_ne :
    ofQuotation.Legible ∧ ofQuoted.Legible ∧ ofQuotation.canonical ≠ ofQuoted.canonical := by
  have htag : ∀ tag, some "en" = some tag → ' ' ∉ tag.toList := by
    rintro tag ⟨⟩
    decide
  have hlegible : ofQuotation.Legible :=
    ⟨.blank (by decide), .iri _, .literal "x\"@en <ex:g> .\n" none htag, nofun⟩
  have hlegible' : ofQuoted.Legible := by
    refine ⟨.blank (by decide), .iri _, .literal "x" none htag, ?_⟩
    rintro t ⟨⟩
    exact .iri _
  refine ⟨hlegible, hlegible', fun h => ?_⟩
  have hsame := (canonical_inj hlegible hlegible').mp h
  revert hsame
  decide

end Quad

end RdfMapping
