/-
Quads that cannot be told apart by their text.

The canonical text is meant to stand for the quad, and nearly does.  What gets in the way
is that a language tag is written as it is.  A literal in the default graph whose tag goes
on with a space and the text of an IRI reads like the literal with the shorter tag in the
graph of that name.  `canonical_eq_iff` says that this is the only way in which two plain
quads come to share a text, and `mem_distinct_iff_lookalike` says what becomes of them
when repetitions are removed: a quad gets lost exactly if a lookalike is always before it.
-/
import Mathlib.Data.List.Pairwise
import RdfMapping.Proofs.Quad.Distinct
import RdfMapping.Proofs.Term.Reading

namespace RdfMapping

namespace Quad

/-- The shape of the quads that a run makes: subjects are no literals, predicates and graphs are
IRIs, literals are normal, and labels have no space in them. -/
structure Plain (q : Quad) : Prop where
  subject : q.subject.isLiteral = false
  subject_labelled : q.subject.Labelled
  predicate : q.predicate.isIri = true
  object : q.object.Normal
  object_labelled : q.object.Labelled
  graph : ∀ t, q.graph = some t → t.isIri = true

/-- A literal of `q` has a tag that takes in the name of the graph that `r` is in, and otherwise
they are the same. -/
def Swallows (q r : Quad) : Prop :=
  ∃ value tag iri, q.subject = r.subject ∧ q.predicate = r.predicate ∧
    q.object = .langString value (tag ++ " " ++ (Term.iri iri).canonical) ∧ q.graph = none ∧
    r.object = .langString value tag ∧ r.graph = some (.iri iri)

/-- One of two quads swallows the other one's graph. -/
def Lookalike (q r : Quad) : Prop := q.Swallows r ∨ r.Swallows q

theorem Swallows.ne {q r : Quad} (h : q.Swallows r) : q ≠ r := by
  obtain ⟨value, tag, iri, -, -, -, hnone, -, hsome⟩ := h
  rintro rfl
  rw [hnone] at hsome
  cases hsome

theorem Lookalike.ne {q r : Quad} (h : q.Lookalike r) : q ≠ r := by
  rcases h with h | h
  · exact h.ne
  · exact h.ne.symm

/-- Only quads about literals have lookalikes. -/
theorem not_lookalike_of_object {q : Quad} (h : q.object.isLiteral = false) (r : Quad) :
    ¬ q.Lookalike r := by
  rintro (⟨value, tag, iri, -, -, hobject, -⟩ | ⟨value, tag, iri, -, -, -, -, hobject, -⟩)
  · rw [hobject] at h
    cases h
  · rw [hobject] at h
    cases h

theorem toList_langString_tag (tag iri : String) :
    (tag ++ " " ++ (Term.iri iri).canonical).toList = tag.toList ++ ' ' :: iriText iri := by
  simp [Term.canonical_eq, Term.render]

/-- What follows the object of a quad up to the end of the text. -/
def ending (q : Quad) : List Char := q.graph.elim ['.'] fun g => g.render ++ [' ', '.']

theorem render_eq (q : Quad) :
    q.render = q.subject.render ++ ' ' :: (q.predicate.render ++ ' ' ::
      (q.object.render ++ ' ' :: q.ending)) := by
  unfold render ending
  cases q.graph <;> simp

/-- The graph of a plain quad is none or an IRI. -/
theorem Plain.graph_cases {q : Quad} (h : q.Plain) :
    q.graph = none ∨ ∃ iri, q.graph = some (.iri iri) := by
  cases hgraph : q.graph with
  | none => exact .inl rfl
  | some t =>
      have hiri := h.graph t hgraph
      cases t with
      | iri value => exact .inr ⟨value, rfl⟩
      | _ => cases hiri

theorem Plain.graph_eq_of_ending {q r : Quad} (hq : q.Plain) (hr : r.Plain)
    (h : q.ending = r.ending) : q.graph = r.graph := by
  unfold ending at h
  rcases hq.graph_cases with hnone | ⟨iri, hsome⟩
  · rcases hr.graph_cases with hnone' | ⟨iri', hsome'⟩
    · rw [hnone, hnone']
    · simp [hnone, hsome', Term.render, iriText] at h
  · rcases hr.graph_cases with hnone' | ⟨iri', hsome'⟩
    · simp [hsome, hnone', Term.render, iriText] at h
    · rw [hsome, hsome', Option.elim_some, Option.elim_some] at h
      obtain ⟨rfl, -⟩ := iriText_cancel h
      rw [hsome, hsome']

/-- The one quad swallows the other one's graph if tag and ending run together to the same. -/
theorem graph_eq_or_swallows {q r : Quad} (hq : q.Plain) (hr : r.Plain) {value tag tag' : String}
    (hsubject : q.subject = r.subject) (hpredicate : q.predicate = r.predicate)
    (hobject : q.object = .langString value tag) (hobject' : r.object = .langString value tag')
    (h : tag.toList ++ ' ' :: q.ending = tag'.toList ++ ' ' :: r.ending) :
    (tag = tag' ∧ q.graph = r.graph) ∨ q.Lookalike r := by
  -- A default graph against a named one: the longer tag takes in the name.
  have hswallows : ∀ {p p' : Quad} {tag tag' iri : String}, p.subject = p'.subject →
      p.predicate = p'.predicate → p.object = .langString value tag →
      p'.object = .langString value tag' → p.graph = none → p'.graph = some (.iri iri) →
      tag.toList ++ ' ' :: p.ending = tag'.toList ++ ' ' :: p'.ending → p.Swallows p' := by
    intro p p' tag tag' iri hs hp ho ho' hnone hsome heq
    refine ⟨value, tag', iri, hs, hp, ?_, hnone, ho', hsome⟩
    have htag : tag.toList ++ [' ', '.'] = (tag'.toList ++ ' ' :: iriText iri) ++ [' ', '.'] := by
      simpa [ending, hnone, hsome, Term.render] using heq
    have htag := List.append_cancel_right htag
    rw [← toList_langString_tag, String.toList_inj] at htag
    rw [ho, htag]
  rcases hq.graph_cases with hnone | ⟨iri, hsome⟩
  · rcases hr.graph_cases with hnone' | ⟨iri', hsome'⟩
    · left
      have htag : tag.toList ++ [' ', '.'] = tag'.toList ++ [' ', '.'] := by
        simpa [ending, hnone, hnone'] using h
      exact ⟨String.toList_inj.mp (List.append_cancel_right htag), by rw [hnone, hnone']⟩
    · exact .inr (.inl (hswallows hsubject hpredicate hobject hobject' hnone hsome' h))
  · rcases hr.graph_cases with hnone' | ⟨iri', hsome'⟩
    · exact .inr (.inr (hswallows hsubject.symm hpredicate.symm hobject' hobject hnone' hsome
        h.symm))
    · left
      have hboth : (tag.toList ++ ' ' :: iriText iri) ++ [' ', '.']
          = (tag'.toList ++ ' ' :: iriText iri') ++ [' ', '.'] := by
        simpa [ending, hsome, hsome', Term.render] using h
      -- The names are read off from behind, since they have no space in them.
      have hback := congrArg List.reverse (List.append_cancel_right hboth)
      simp only [List.reverse_append, List.reverse_cons, List.append_assoc,
        List.singleton_append] at hback
      obtain ⟨hname, htag⟩ := append_cons_cancel (by simpa using space_notMem_iriText iri)
        (by simpa using space_notMem_iriText iri') hback
      have hname : iriText iri ++ [] = iriText iri' ++ [] := by
        simpa using hname
      obtain ⟨rfl, -⟩ := iriText_cancel hname
      exact ⟨String.toList_inj.mp (List.reverse_inj.mp htag), by rw [hsome, hsome']⟩

theorem Swallows.render_eq {q r : Quad} (h : q.Swallows r) : q.render = r.render := by
  obtain ⟨value, tag, iri, hsubject, hpredicate, hobject, hnone, hobject', hsome⟩ := h
  rw [q.render_eq, r.render_eq, hsubject, hpredicate, hobject, hobject']
  simp [ending, hnone, hsome, Term.langString, Term.normalLiteral, Term.render, literalSuffix,
    Term.canonical_eq]

/-- **Plain quads share a text exactly if they are equal or lookalikes.** -/
theorem canonical_eq_iff {q r : Quad} (hq : q.Plain) (hr : r.Plain) :
    q.canonical = r.canonical ↔ q = r ∨ q.Lookalike r := by
  rw [q.canonical_eq, r.canonical_eq, String.ofList_inj]
  constructor
  · intro h
    rw [q.render_eq, r.render_eq] at h
    have hiri : ∀ {t : Term}, t.isIri = true → t.isLiteral = false ∧ t.Labelled := by
      intro t ht
      cases t with
      | iri value => exact ⟨rfl, trivial⟩
      | _ => cases ht
    obtain ⟨hsubject, h⟩ := Term.render_cancel_of_not_literal hq.subject hr.subject
      hq.subject_labelled hr.subject_labelled h
    obtain ⟨hpredicate, h⟩ := Term.render_cancel_of_not_literal (hiri hq.predicate).1
      (hiri hr.predicate).1 (hiri hq.predicate).2 (hiri hr.predicate).2 h
    rcases Term.render_cancel hq.object hr.object hq.object_labelled hr.object_labelled h with
      ⟨hobject, hending⟩ | ⟨value, tag, tag', hobject, hobject', htags⟩
    · left
      have hgraph := hq.graph_eq_of_ending hr hending
      cases q
      cases r
      simp_all
    · rcases graph_eq_or_swallows hq hr hsubject hpredicate hobject hobject' htags with
        ⟨rfl, hgraph⟩ | hlookalike
      · left
        cases q
        cases r
        simp_all
      · exact .inr hlookalike
  · rintro (rfl | hswallows | hswallows)
    · rfl
    · exact hswallows.render_eq
    · exact hswallows.render_eq.symm

end Quad

/-! ### Lookalikes among the quads of a run -/

/-- A plain quad is kept exactly if it stands somewhere without a lookalike before it. -/
theorem mem_distinct_iff_lookalike {qs : List Quad} (hplain : ∀ q ∈ qs, q.Plain) {q : Quad} :
    q ∈ distinct qs ↔
      ∃ before after, qs = before ++ q :: after ∧ ∀ r ∈ before, ¬ q.Lookalike r := by
  rw [mem_distinct_iff]
  constructor
  · rintro ⟨before, after, rfl, hbefore⟩
    refine ⟨before, after, rfl, fun r hr hlookalike => hbefore r hr ?_⟩
    exact (Quad.canonical_eq_iff (hplain q (by simp)) (hplain r (by simp [hr]))).mpr
      (.inr hlookalike)
  · rintro ⟨before, after, rfl, hbefore⟩
    -- The quad may have been there before; then it is its first occurrence that is kept.
    have hfirst : ∃ first rest, before ++ q :: after = first ++ q :: rest ∧ q ∉ first ∧
        ∀ r ∈ first, r ∈ before := by
      by_cases hq : q ∈ before
      · obtain ⟨first, rest, rfl, hnot⟩ := List.eq_append_cons_of_mem hq
        exact ⟨first, rest ++ q :: after, by simp, hnot, fun r hr => by simp [hr]⟩
      · exact ⟨before, after, rfl, hq, fun r hr => hr⟩
    obtain ⟨first, rest, hsplit, hnot, hsub⟩ := hfirst
    refine ⟨first, rest, hsplit, fun r hr heq => ?_⟩
    have hplain' : r.Plain := hplain r (by simp [hsub r hr])
    rcases (Quad.canonical_eq_iff (hplain q (by simp)) hplain').mp heq with rfl | hlookalike
    · exact hnot hr
    · exact hbefore r (hsub r hr) hlookalike

/-- All of some plain quads are kept exactly if no two of them are lookalikes. -/
theorem forall_mem_distinct_iff {qs : List Quad} (hplain : ∀ q ∈ qs, q.Plain) :
    (∀ q ∈ qs, q ∈ distinct qs) ↔ ∀ q ∈ qs, ∀ r ∈ qs, ¬ q.Lookalike r := by
  constructor
  · intro hall q hq r hr hlookalike
    have hsymm : Std.Symm fun a b : Quad => a.canonical ≠ b.canonical := ⟨fun _ _ h => h.symm⟩
    have hne := (pairwise_distinct qs).forall (hall q hq) (hall r hr) hlookalike.ne
    exact hne ((Quad.canonical_eq_iff (hplain q hq) (hplain r hr)).mpr (.inr hlookalike))
  · intro hnone q hq
    obtain ⟨before, after, rfl⟩ := List.append_of_mem hq
    exact (mem_distinct_iff_lookalike hplain).mpr
      ⟨before, after, rfl, fun r hr => hnone q hq r (by simp [hr])⟩

end RdfMapping
