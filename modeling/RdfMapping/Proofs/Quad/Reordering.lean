/-
Quads in another order.

Which of several quads with one text is kept depends on their order, but only where a literal
is involved: of two lookalikes the earlier one is kept, and every lookalike is about a literal.
So a list of quads may be rearranged freely as long as the quads about literals keep their order
among themselves, which is what `Reordered` asks for.  `Reordered.distinct_perm` says that the
same quads are kept then.
-/
import Mathlib.Data.List.Dedup
import Mathlib.Data.List.Perm.Lattice
import RdfMapping.Proofs.Quad.Lookalike

namespace RdfMapping

/-- The same quads in another order, with those about literals in the same. -/
structure Reordered (qs rs : List Quad) : Prop where
  perm : qs.Perm rs
  literals : qs.filter (·.object.isLiteral) = rs.filter (·.object.isLiteral)

namespace Reordered

variable {qs rs qs' rs' : List Quad}

theorem refl (qs : List Quad) : Reordered qs qs := ⟨.refl qs, rfl⟩

theorem append (h : Reordered qs rs) (h' : Reordered qs' rs') :
    Reordered (qs ++ qs') (rs ++ rs') := by
  refine ⟨h.perm.append h'.perm, ?_⟩
  rw [List.filter_append, List.filter_append, h.literals, h'.literals]

theorem filter_isLiteral_eq_nil (h : ∀ q ∈ qs, q.object.isLiteral = false) :
    qs.filter (·.object.isLiteral) = [] := by
  rw [List.filter_eq_nil_iff]
  intro q hq
  rw [h q hq]
  exact Bool.false_ne_true

/-- Quads that are not about literals may come in any order. -/
theorem of_perm (h : qs.Perm rs) (hqs : ∀ q ∈ qs, q.object.isLiteral = false) :
    Reordered qs rs := by
  refine ⟨h, ?_⟩
  rw [filter_isLiteral_eq_nil hqs, filter_isLiteral_eq_nil fun q hq => hqs q (h.mem_iff.mpr hq)]

/-- What is not about literals may be at the end as well as anywhere else. -/
theorem append_right_comm (qs : List Quad) {rs : List Quad} (ps : List Quad)
    (hrs : ∀ q ∈ rs, q.object.isLiteral = false) :
    Reordered (qs ++ rs ++ ps) (qs ++ ps ++ rs) := by
  refine ⟨?_, ?_⟩
  · rw [List.append_assoc, List.append_assoc]
    exact List.perm_append_comm.append_left qs
  · simp [filter_isLiteral_eq_nil hrs]

theorem trans (h : Reordered qs rs) (h' : Reordered rs rs') : Reordered qs rs' :=
  ⟨h.perm.trans h'.perm, h.literals.trans h'.literals⟩

theorem symm (h : Reordered qs rs) : Reordered rs qs := ⟨h.perm.symm, h.literals.symm⟩

end Reordered

/-! ### Keeping the first of each text -/

/-- What is kept of some of the quads is what is kept of all of them, if quads of one text are
either all among these or none of them is. -/
theorem filter_distinct {p : Quad → Bool} {qs : List Quad}
    (h : ∀ q ∈ qs, ∀ r ∈ qs, q.canonical = r.canonical → p q = p r) :
    (distinct qs).filter p = distinct (qs.filter p) := by
  induction qs using List.reverseRecOn with
  | nil => rfl
  | append_singleton qs q ih =>
      have hqs := ih fun a ha b hb => h a (by simp [ha]) b (by simp [hb])
      rw [distinct_concat, List.filter_append]
      cases hp : p q with
      | false =>
          have hdropped : [q].filter p = [] := by simp [hp]
          rw [hdropped, List.append_nil, ← hqs]
          split
          · rfl
          · rw [List.filter_append, hdropped, List.append_nil]
      | true =>
          have hkept : [q].filter p = [q] := by simp [hp]
          have hany : (qs.filter p).any (sameText q) = qs.any (sameText q) := by
            rw [Bool.eq_iff_iff, List.any_eq_true, List.any_eq_true]
            constructor
            · rintro ⟨r, hr, hsame⟩
              exact ⟨r, List.mem_of_mem_filter hr, hsame⟩
            · rintro ⟨r, hr, hsame⟩
              have hpr := h q (by simp) r (by simp [hr]) (sameText_iff.mp hsame)
              exact ⟨r, List.mem_filter.mpr ⟨hr, hpr.symm.trans hp⟩, hsame⟩
          rw [hkept, distinct_concat, hany, ← hqs]
          split
          · rfl
          · rw [List.filter_append, hkept]

namespace Reordered

variable {qs rs : List Quad}

/-- Plain quads of one text are all about literals, or none of them is. -/
theorem isLiteral_eq_of_canonical {q r : Quad} (hq : q.Plain) (hr : r.Plain)
    (h : q.canonical = r.canonical) : q.object.isLiteral = r.object.isLiteral := by
  rcases (Quad.canonical_eq_iff hq hr).mp h with rfl | hlookalike
  · rfl
  · rcases hlookalike with ⟨value, tag, iri, -, -, ho, -, ho', -⟩ |
      ⟨value, tag, iri, -, -, ho, -, ho', -⟩
    · rw [ho, ho']
      rfl
    · rw [ho, ho']
      rfl

/-- **The same plain quads are kept in whatever order they come**, as long as those about literals
stay in theirs. -/
theorem distinct_perm (h : Reordered qs rs) (hplain : ∀ q ∈ qs, q.Plain) :
    (distinct qs).Perm (distinct rs) := by
  have hplain' : ∀ q ∈ rs, q.Plain := fun q hq => hplain q (h.perm.mem_iff.mpr hq)
  have hnodup : ∀ ps : List Quad, (distinct ps).Nodup := fun ps =>
    (pairwise_distinct ps).imp fun hne heq => hne (congrArg Quad.canonical heq)
  have hliterals : ∀ ps : List Quad, (∀ q ∈ ps, q.Plain) →
      (distinct ps).filter (·.object.isLiteral) = distinct (ps.filter (·.object.isLiteral)) :=
    fun ps hps => filter_distinct fun q hq r hr => isLiteral_eq_of_canonical (hps q hq) (hps r hr)
  have hothers : ∀ ps : List Quad, (∀ q ∈ ps, q.Plain) → ∀ q, q.object.isLiteral = false →
      (q ∈ distinct ps ↔ q ∈ ps) := by
    intro ps hps q hobject
    rw [mem_distinct_iff_lookalike hps]
    constructor
    · rintro ⟨before, after, rfl, -⟩
      simp
    · intro hq
      obtain ⟨before, after, rfl⟩ := List.append_of_mem hq
      exact ⟨before, after, rfl, fun r _ => Quad.not_lookalike_of_object hobject r⟩
  rw [List.perm_ext_iff_of_nodup (hnodup qs) (hnodup rs)]
  intro q
  cases hobject : q.object.isLiteral with
  | false => rw [hothers qs hplain q hobject, hothers rs hplain' q hobject, h.perm.mem_iff]
  | true =>
      have hin : ∀ ps : List Quad, q ∈ ps ↔ q ∈ ps.filter (·.object.isLiteral) := by
        intro ps
        rw [List.mem_filter, and_iff_left hobject]
      rw [hin (distinct qs), hin (distinct rs), hliterals qs hplain, hliterals rs hplain',
        h.literals]

end Reordered

end RdfMapping
