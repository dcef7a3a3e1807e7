/-
Steps that differ in the quads they collect and in nothing else.

The quads of a triples map are only ever added to; no step of the engine looks at them before
the triples map is completed, and then only at their number.  So two runs that collect different
quads, or the same in another order, go the same way otherwise: they open and read the same,
build the same indexes and fail with the same failure.

`Abreast` is this for two steps, with one relation between the quads before them and one for
after.  All that a step of the engine has to know of the relation is whether it survives that
the same quads are added on both sides, and only the steps that emit quads have to know that.
-/
import RdfMapping.Proofs.Execution.Steps

namespace RdfMapping

/-! ### States -/

/-- The state with other quads collected. -/
def RunState.withQuads (s : RunState) (quads : Array Quad) : RunState :=
  { s with progress := { s.progress with quads } }

/-- States that differ at most in the quads collected, and there only as the relation allows. -/
structure RunState.Akin (P : List Quad → List Quad → Prop) (s s' : RunState) : Prop where
  quads : P s.progress.quads.toList s'.progress.quads.toList
  rest : s' = s.withQuads s'.progress.quads

/-- Any quads on either side. -/
def AnyQuads (_ _ : List Quad) : Prop := True

/-- The relation survives that the same quads are added on both sides. -/
def Extends (P : List Quad → List Quad → Prop) : Prop :=
  ∀ qs rs, P qs rs → ∀ more, P (qs ++ more) (rs ++ more)

namespace RunState.Akin

variable {P : List Quad → List Quad → Prop} {s s' : RunState}

theorem any (h : s.Akin P s') : s.Akin AnyQuads s' := ⟨trivial, h.rest⟩

theorem session_eq (h : s.Akin P s') : s'.session = s.session := by
  rw [h.rest]
  rfl

end RunState.Akin

/-! ### Steps -/

namespace Step

variable {P Q T : List Quad → List Quad → Prop} {α β : Type}

/-- Results with related values, or the same failure, in states that are akin. -/
inductive Ends (V : α → β → Prop) (Q : List Quad → List Quad → Prop) :
    EStateM.Result Failure RunState α → EStateM.Result Failure RunState β → Prop
  | ok {a : α} {b : β} {s s' : RunState} (value : V a b) (akin : s.Akin Q s') :
      Ends V Q (.ok a s) (.ok b s')
  | error (failure : Failure) {s s' : RunState} (akin : s.Akin AnyQuads s') :
      Ends V Q (.error failure s) (.error failure s')

/-- From states whose quads are related in the one way, two steps come to the same in states whose
quads are related in the other. -/
def Abreast (P Q : List Quad → List Quad → Prop) (step step' : Step α) : Prop :=
  ∀ s s', s.Akin P s' → Ends Eq Q (step s) (step' s')

theorem abreast_pure (a : α) : Abreast P P (pure a) (pure a) :=
  fun _ _ hs => .ok rfl hs

theorem abreast_throw (failure : Failure) : Abreast P Q (throw failure : Step α) (throw failure) :=
  fun _ _ hs => .error failure hs.any

theorem abreast_bind {x x' : Step α} {f f' : α → Step β} (hx : Abreast P Q x x')
    (hf : ∀ a, Abreast Q T (f a) (f' a)) : Abreast P T (x >>= f) (x' >>= f') := by
  intro s s' hs
  have hfirst := hx s s' hs
  rw [bind_apply, bind_apply]
  revert hfirst
  generalize x s = r
  generalize x' s' = r'
  intro hfirst
  cases hfirst with
  | ok hvalue hnext =>
      subst hvalue
      exact hf _ _ _ hnext
  | error failure hnext => exact .error failure hnext

theorem abreast_get_bind {f f' : RunState → Step α}
    (h : ∀ s s', s.Akin P s' → Abreast P Q (f s) (f' s')) :
    Abreast P Q (get >>= f) (get >>= f') :=
  fun s s' hs => h s s' hs s s' hs

/-- A change that neither looks at the quads nor touches them. -/
theorem abreast_modify {f : RunState → RunState}
    (h : ∀ s quads, f (s.withQuads quads) = (f s).withQuads quads) :
    Abreast P P (modify f) (modify f) := by
  intro s s' hs
  have hkept : ∀ u : RunState, (f u).progress.quads = u.progress.quads := by
    intro u
    show (f (u.withQuads u.progress.quads)).progress.quads = u.progress.quads
    rw [h]
    rfl
  refine .ok rfl ⟨?_, ?_⟩
  · rw [hkept, hkept]
    exact hs.quads
  · rw [hkept, ← h, ← hs.rest]

theorem abreast_emit {as bs : List Quad} (h : ∀ qs rs, P qs rs → Q (qs ++ as) (rs ++ bs)) :
    Abreast P Q (emit as) (emit bs) := by
  intro s s' hs
  refine .ok rfl ⟨?_, ?_⟩
  · simpa using h _ _ hs.quads
  · rw [hs.rest]
    rfl

theorem abreast_forM {f f' : α → Step Unit} (as : List α)
    (h : ∀ a ∈ as, Abreast P P (f a) (f' a)) : Abreast P P (as.forM f) (as.forM f') := by
  induction as with
  | nil => exact abreast_pure _
  | cons a as ih =>
      rw [List.forM, List.forM]
      refine abreast_bind (h a (by simp)) fun _ => ?_
      exact ih fun b hb => h b (by simp [hb])

theorem abreast_inSpan {step step' : Step α} (span : Span) (h : Abreast P Q step step') :
    Abreast P Q (inSpan span step) (inSpan span step') := by
  intro s s' hs
  have houter : s'.span = s.span := by
    rw [hs.rest]
    rfl
  have hentering : (s.entering span).Akin P (s'.entering span) := by
    refine ⟨hs.quads, ?_⟩
    rw [hs.rest]
    rfl
  have hleaving : ∀ {R : List Quad → List Quad → Prop} (u u' : RunState), u.Akin R u' →
      RunState.Akin R { u with span := s.span } { u' with span := s'.span } := by
    intro R u u' hu
    refine ⟨hu.quads, ?_⟩
    rw [hu.rest, houter]
    rfl
  have hinner := h _ _ hentering
  rw [inSpan_apply, inSpan_apply]
  revert hinner
  generalize step (s.entering span) = r
  generalize step' (s'.entering span) = r'
  intro hinner
  cases hinner with
  | ok hvalue hu => exact .ok hvalue (hleaving _ _ hu)
  | error failure hu => exact .error failure (hleaving _ _ hu)

theorem abreast_log (event : Event) : Abreast P P (log event) (log event) :=
  abreast_modify fun _ _ => rfl

theorem abreast_absorb (triplesMap : String) (record : Nat) (error : FunctionError) :
    Abreast P P (absorb triplesMap record error) (absorb triplesMap record error) :=
  abreast_bind (abreast_log _) fun _ => abreast_modify fun _ _ => rfl

theorem abreast_openSource (p : Provider) (iri : String) (source : LogicalSource) :
    Abreast P P (openSource p iri source) (openSource p iri source) := by
  intro s s' hs
  have hopening : (s.opening source).Akin P (s'.opening source) := by
    refine ⟨hs.quads, ?_⟩
    rw [hs.rest]
    rfl
  rw [openSource_apply, openSource_apply, hs.session_eq]
  cases p.openAfter s.session.opened source with
  | ok items => exact .ok rfl hopening
  | error fault => exact .error _ hopening.any

end Step

/-! ### Steps of the engine -/

namespace Engine

open Step

variable {P Q : List Quad → List Quad → Prop} {α : Type} (e : Engine)

theorem abreast_checkCancelled : Abreast P P e.checkCancelled e.checkCancelled := by
  intro s s' hs
  rw [checkCancelled_apply, checkCancelled_apply, hs.session_eq]
  by_cases hup : (e.cancellable && s.session.cancelled) = true
  · rw [if_pos hup, if_pos hup]
    exact .error _ hs.any
  · rw [if_neg hup, if_neg hup]
    exact .ok rfl hs

theorem abreast_scan (iri : String) {visit visit' : α → Nat → Record → Step α}
    (hvisit : ∀ a n record, Abreast P P (visit a n record) (visit' a n record))
    (items : List Item) :
    ∀ n a, Abreast P P (e.scan iri visit n a items) (e.scan iri visit' n a items) := by
  induction items with
  | nil => exact fun _ _ => abreast_pure _
  | cons item items ih =>
      intro n a
      refine abreast_bind (abreast_modify fun _ _ => rfl) fun _ => ?_
      refine abreast_bind e.abreast_checkCancelled fun _ => ?_
      cases item with
      | error fault => exact abreast_throw _
      | ok record => exact abreast_bind (hvisit a n record) fun b => ih (n + 1) b

theorem abreast_evaluate (m : TermMap) (record : Record) (scope : String) :
    Abreast P P (e.evaluate m record scope) (e.evaluate m record scope) :=
  abreast_bind (abreast_forM _ fun _ _ => abreast_log _) fun _ => abreast_pure _

theorem abreast_sourceOf (m : TriplesMap) : Abreast P P (sourceOf m) (sourceOf m) := by
  unfold sourceOf
  cases m.logicalSource with
  | none => exact abreast_throw _
  | some source => exact abreast_pure _

theorem abreast_subjectMapOf (m : TriplesMap) : Abreast P P (subjectMapOf m) (subjectMapOf m) := by
  unfold subjectMapOf
  cases m.subjectMap with
  | none => exact abreast_throw _
  | some subjectMap => exact abreast_pure _

/-! ### Parents -/

theorem abreast_addRow (parent : TriplesMap) (subjectMap : SubjectMap) (scope : String)
    (found : ParentScan) (n : Nat) (record : Record) :
    Abreast P P (e.addRow parent subjectMap scope found n record)
      (e.addRow parent subjectMap scope found n record) := by
  refine abreast_bind (e.abreast_evaluate _ _ _) fun result => ?_
  cases result with
  | error error =>
      refine abreast_bind (abreast_log _) fun _ => ?_
      exact abreast_bind (abreast_modify fun _ _ => rfl) fun _ => abreast_pure _
  | ok subjects => cases subjects <;> exact abreast_pure _

theorem abreast_buildIndex (position : Nat) (parent : TriplesMap) (layout : List String) :
    Abreast P P (e.buildIndex position parent layout) (e.buildIndex position parent layout) := by
  refine abreast_inSpan _ ?_
  refine abreast_bind (abreast_sourceOf _) fun source => ?_
  refine abreast_bind (abreast_subjectMapOf _) fun subjectMap => ?_
  refine abreast_bind (abreast_openSource _ _ _) fun items => ?_
  refine abreast_bind (e.abreast_scan _ (fun _ _ _ => e.abreast_addRow _ _ _ _ _ _) _ _ _)
    fun found => ?_
  exact abreast_bind (abreast_log _) fun _ => abreast_pure _

theorem abreast_indexFor (position : Nat) (parent : TriplesMap) (layout : List String) :
    Abreast P P (e.indexFor position parent layout) (e.indexFor position parent layout) := by
  rw [indexFor_eq]
  refine abreast_get_bind fun s s' hs => ?_
  have hindexes : s'.indexes = s.indexes := by
    rw [hs.rest]
    rfl
  rw [hindexes]
  cases (s.indexes.lookup parent.iri).filter (·.covers layout) with
  | some index => exact abreast_pure _
  | none =>
      refine abreast_bind (e.abreast_buildIndex _ _ _) fun index => ?_
      exact abreast_bind (abreast_modify fun _ _ => rfl) fun _ => abreast_pure _

theorem abreast_parentOf (r : RefObjectMap) (child : TriplesMap) :
    Abreast P P (e.parentOf r child) (e.parentOf r child) := by
  unfold parentOf
  cases e.graph.position? r.parent with
  | none => exact abreast_throw _
  | some position =>
      cases e.graph.get? r.parent with
      | none => exact abreast_throw _
      | some parent => exact abreast_pure _

theorem abreast_resolve (r : RefObjectMap) (child : TriplesMap) (record : Record) :
    Abreast P P (e.resolve r child record) (e.resolve r child record) := by
  refine abreast_bind (e.abreast_parentOf r child) fun found => ?_
  obtain ⟨position, parent⟩ := found
  dsimp only
  by_cases hsame : (!r.hasConditions && parent.logicalSource == child.logicalSource) = true
  · rw [if_pos hsame]
    exact abreast_bind (abreast_subjectMapOf _) fun _ => e.abreast_evaluate _ _ _
  · rw [if_neg hsame]
    cases record.key? r.childReferences with
    | none => exact abreast_pure _
    | some key => exact abreast_bind (e.abreast_indexFor _ _ _) fun _ => abreast_pure _

/-! ### Statements -/

section Site

variable (site : Site)

theorem abreast_survive (result : Except FunctionError (List Term)) :
    Abreast P P (survive site result) (survive site result) := by
  cases result with
  | ok terms => exact abreast_pure _
  | error error => exact abreast_bind (abreast_absorb _ _ _) fun _ => abreast_pure _

theorem abreast_termsAt (m : TermMap) : Abreast P P (e.termsAt site m) (e.termsAt site m) :=
  abreast_bind (e.abreast_evaluate _ _ _) fun result => abreast_survive site result

theorem abreast_allTermsAt (ms : List TermMap) :
    Abreast P P (e.allTermsAt site ms) (e.allTermsAt site ms) := by
  induction ms with
  | nil => exact abreast_pure _
  | cons m ms ih =>
      refine abreast_bind (e.abreast_termsAt site m) fun _ => ?_
      exact abreast_bind ih fun _ => abreast_pure _

theorem abreast_addGraphsAt (graphs : List (Option Term)) (ms : List TermMap) :
    Abreast P P (e.addGraphsAt site graphs ms) (e.addGraphsAt site graphs ms) :=
  abreast_bind (e.abreast_allTermsAt site ms) fun _ => abreast_pure _

theorem abreast_allObjectsAt (ms : List ObjectMap) :
    Abreast P P (e.allObjectsAt site ms) (e.allObjectsAt site ms) := by
  induction ms with
  | nil => exact abreast_pure _
  | cons m ms ih =>
      have hfirst : Abreast P P (e.objectsAt site m) (e.objectsAt site m) := by
        cases m with
        | term m => exact e.abreast_termsAt site m
        | parent r =>
            exact abreast_bind (e.abreast_resolve r _ _) fun result => abreast_survive site result
      refine abreast_bind hfirst fun _ => ?_
      exact abreast_bind ih fun _ => abreast_pure _

/-- The statements of a predicate-object map come to the same quads on both sides. -/
theorem abreast_statementsAt (hextends : Extends P) (subjectMap : SubjectMap)
    (subjects : List Term) (graphs : List (Option Term)) (p : PredicateObjectMap) :
    Abreast P P (e.statementsAt site subjectMap subjects graphs p)
      (e.statementsAt site subjectMap subjects graphs p) := by
  refine abreast_bind (e.abreast_allTermsAt site _) fun predicates => ?_
  by_cases hpredicates : predicates.isEmpty = true
  · rw [if_pos hpredicates]
    exact abreast_pure _
  · rw [if_neg hpredicates]
    refine abreast_bind (e.abreast_allObjectsAt site _) fun objects => ?_
    by_cases hobjects : objects.isEmpty = true
    · rw [if_pos hobjects]
      exact abreast_pure _
    · rw [if_neg hobjects]
      refine abreast_bind (e.abreast_addGraphsAt site graphs _) fun all => ?_
      dsimp only
      split
      · exact abreast_pure _
      · exact abreast_emit fun qs rs h => hextends qs rs h _

end Site

end Engine

end RdfMapping
