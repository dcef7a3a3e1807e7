/-
What a trace tells about sources and indexes.

A source is opened for two reasons: to execute the triples map that it belongs to, or to build
the index of a parent that a child asks for.  The trace has an entry for either, since each
happens in a span of its own, and it has entries for an index that was built and for a triples
map that was given up.  These entries are the landmarks of a run, and which sources were opened
can be read off them: `openings`.

Most steps pass no landmark.  `Step.Calm` says that of a step, together with what its value and
its failures are like; the steps that make terms, count, log and receive items are calm, and so
is going through the records of a parent.
-/
import RdfMapping.Proofs.Execution.Steps
import RdfMapping.Proofs.Execution.Yield

namespace RdfMapping

/-! ### Landmarks -/

/-- What is told about sources and indexes by an entry of a trace. -/
inductive Landmark where
  /-- A triples map opens its own source. -/
  | own (triplesMap : String)
  /-- A child opens the source of a parent for its index. -/
  | scan (child parent : String)
  /-- The index of a parent is there. -/
  | built (parent : String)
  /-- A triples map is given up because of an error. -/
  | lost (triplesMap : String) (error : Error)
deriving DecidableEq

/-- The landmark that an entry is, if it is one. -/
def TraceEntry.landmark? : TraceEntry → Option Landmark
  | .entered (.triplesMap iri) _ => some (.own iri)
  | .entered (.joinIndex parent) (some (.triplesMap child)) => some (.scan child parent)
  | .logged (.indexed parent _ _) _ => some (.built parent)
  | .logged (.givenUp iri _ error) _ => some (.lost iri error)
  | _ => none

/-- The landmarks of a run. -/
def Outcome.landmarks (o : Outcome) : List Landmark := o.trace.filterMap (·.landmark?)

/-- The landmarks that were passed up to a state. -/
def RunState.landmarks (s : RunState) : List Landmark := s.trace.toList.filterMap (·.landmark?)

/-- What the first triples map of an identity reads. -/
def RuleGraph.sourceOf? (g : RuleGraph) (iri : String) : Option LogicalSource :=
  (g.get? iri).bind (·.logicalSource)

/-- The source that is opened at a landmark. -/
def Landmark.opened? (g : RuleGraph) : Landmark → Option LogicalSource
  | own iri => g.sourceOf? iri
  | scan _ parent => g.sourceOf? parent
  | _ => none

/-- The sources that are opened at some landmarks. -/
def RuleGraph.openings (g : RuleGraph) (ls : List Landmark) : List LogicalSource :=
  ls.filterMap (·.opened? g)

@[simp] theorem RuleGraph.openings_append (g : RuleGraph) (ls ks : List Landmark) :
    g.openings (ls ++ ks) = g.openings ls ++ g.openings ks :=
  List.filterMap_append

theorem RunState.landmarks_push (s : RunState) (entry : TraceEntry) :
    RunState.landmarks { s with trace := s.trace.push entry }
      = s.landmarks ++ entry.landmark?.toList := by
  unfold landmarks
  rw [Array.toList_push, List.filterMap_append, List.filterMap_cons, List.filterMap_nil]
  cases entry.landmark? <;> rfl

theorem RunState.landmarks_entering (s : RunState) (span : Span) :
    (s.entering span).landmarks
      = s.landmarks ++ (TraceEntry.entered span s.span).landmark?.toList :=
  s.landmarks_push (.entered span s.span)

/-! ### Calm steps -/

/-- No source was opened and no index built on the way from one state to the other. -/
structure RunState.Unmoved (s s' : RunState) : Prop where
  landmarks : s'.landmarks = s.landmarks
  opened : s'.session.opened = s.session.opened
  indexes : s'.indexes = s.indexes
  span : s'.span = s.span

theorem RunState.Unmoved.refl (s : RunState) : s.Unmoved s := ⟨rfl, rfl, rfl, rfl⟩

theorem RunState.Unmoved.trans {s s₁ s₂ : RunState} (h : s.Unmoved s₁) (h' : s₁.Unmoved s₂) :
    s.Unmoved s₂ where
  landmarks := h'.landmarks.trans h.landmarks
  opened := h'.opened.trans h.opened
  indexes := h'.indexes.trans h.indexes
  span := h'.span.trans h.span

namespace Step

/-- The step passes no landmark; its value and the error of its failure are as is said. -/
def Calm {α : Type} (step : Step α) (post : α → Prop) (fails : Error → Prop) : Prop :=
  ∀ s, match step s with
    | .ok a s' => s.Unmoved s' ∧ post a
    | .error failure s' => s.Unmoved s' ∧ fails failure.error

variable {α β : Type} {fails : Error → Prop}

theorem calm_pure {post : α → Prop} {a : α} (h : post a) : Calm (pure a) post fails :=
  fun s => ⟨.refl s, h⟩

theorem calm_throw {post : α → Prop} {failure : Failure} (h : fails failure.error) :
    Calm (throw failure) post fails :=
  fun s => ⟨.refl s, h⟩

theorem Calm.mono {step : Step α} {post weaker : α → Prop} (h : Calm step post fails)
    (hweaker : ∀ a, post a → weaker a) : Calm step weaker fails := by
  intro s
  have hstep := h s
  cases hrun : step s with
  | ok a s' => rw [hrun] at hstep; exact ⟨hstep.1, hweaker a hstep.2⟩
  | error failure s' => rw [hrun] at hstep; exact hstep

theorem calm_bind {x : Step α} {f : α → Step β} {post : α → Prop} {post' : β → Prop}
    (hx : Calm x post fails) (hf : ∀ a, post a → Calm (f a) post' fails) :
    Calm (x >>= f) post' fails := by
  intro s
  have hfirst := hx s
  rw [bind_apply]
  cases hrun : x s with
  | error failure s₁ => rw [hrun] at hfirst; exact hfirst
  | ok a s₁ =>
      rw [hrun] at hfirst
      have hsecond := hf a hfirst.2 s₁
      dsimp only
      cases hrun' : f a s₁ with
      | ok b s₂ => rw [hrun'] at hsecond; exact ⟨hfirst.1.trans hsecond.1, hsecond.2⟩
      | error failure s₂ => rw [hrun'] at hsecond; exact ⟨hfirst.1.trans hsecond.1, hsecond.2⟩

theorem calm_modify {f : RunState → RunState} (h : ∀ s : RunState, s.Unmoved (f s)) :
    Calm (modify f) (fun _ => True) fails :=
  fun s => ⟨h s, trivial⟩

theorem calm_forM {f : α → Step Unit} (as : List α)
    (h : ∀ a ∈ as, Calm (f a) (fun _ => True) fails) :
    Calm (as.forM f) (fun _ => True) fails := by
  induction as with
  | nil => exact calm_pure trivial
  | cons a as ih =>
      rw [List.forM]
      exact calm_bind (h a (by simp)) fun _ _ => ih fun b hb => h b (by simp [hb])

theorem calm_log {event : Event} (h : ∀ span, (TraceEntry.logged event span).landmark? = none) :
    Calm (log event) (fun _ => True) fails := by
  apply calm_modify
  intro s
  refine ⟨?_, rfl, rfl, rfl⟩
  rw [RunState.landmarks_push, h, Option.toList_none, List.append_nil]

theorem calm_absorb (triplesMap : String) (record : Nat) (error : FunctionError) :
    Calm (absorb triplesMap record error) (fun _ => True) fails :=
  calm_bind (calm_log fun _ => rfl) fun _ _ => calm_modify fun _ => ⟨rfl, rfl, rfl, rfl⟩

theorem calm_receive (p : Provider) : Calm (receive p) (fun _ => True) fails :=
  fun _ => ⟨⟨rfl, rfl, rfl, rfl⟩, trivial⟩

end Step

namespace Engine

open Step

variable (e : Engine) {α : Type} {fails : Error → Prop}

theorem calm_checkCancelled (h : fails .cancelled) :
    Calm e.checkCancelled (fun _ => True) fails := by
  intro s
  rw [checkCancelled_apply]
  by_cases hup : (e.cancellable && s.session.cancelled) = true
  · rw [if_pos hup]
    exact ⟨.refl s, h⟩
  · rw [if_neg hup]
    exact ⟨.refl s, trivial⟩

theorem calm_evaluate (map : TermMap) (record : Record) (scope : String) :
    Calm (e.evaluate map record scope) (· = e.generator.terms map record scope) fails :=
  calm_bind (calm_forM _ fun _ _ => calm_log fun _ => rfl) fun _ _ => calm_pure rfl

theorem calm_survive (site : Site) (result : Except FunctionError (List Term)) :
    Calm (survive site result) (· = orNone result) fails := by
  cases result with
  | ok terms => exact calm_pure rfl
  | error error => exact calm_bind (calm_absorb _ _ _) fun _ _ => calm_pure rfl

theorem calm_termsAt (site : Site) (map : TermMap) :
    Calm (e.termsAt site map) (· = orNone (e.generator.terms map site.record site.scope))
      fails := by
  apply calm_bind (e.calm_evaluate map site.record site.scope)
  rintro result rfl
  exact calm_survive site _

theorem calm_allTermsAt (site : Site) (maps : List TermMap) :
    Calm (e.allTermsAt site maps) (· = e.termsOf site maps) fails := by
  induction maps with
  | nil => exact calm_pure rfl
  | cons map maps ih =>
      apply calm_bind (e.calm_termsAt site map)
      rintro terms rfl
      apply calm_bind ih
      rintro rest rfl
      exact calm_pure rfl

theorem calm_addGraphsAt (site : Site) (graphs : List (Option Term)) (maps : List TermMap) :
    Calm (e.addGraphsAt site graphs maps) (fun _ => True) fails :=
  calm_bind (e.calm_allTermsAt site maps) fun _ _ => calm_pure trivial

theorem calm_addRow (parent : TriplesMap) (subjectMap : SubjectMap) (scope : String)
    (found : ParentScan) (n : Nat) (record : Record) :
    Calm (e.addRow parent subjectMap scope found n record) (fun _ => True) fails := by
  apply calm_bind (e.calm_evaluate subjectMap.termMap record scope)
  intro result _
  cases result with
  | error error =>
      refine calm_bind (calm_log fun _ => rfl) fun _ _ => ?_
      exact calm_bind (calm_modify fun _ => ⟨rfl, rfl, rfl, rfl⟩) fun _ _ => calm_pure trivial
  | ok subjects => cases subjects <;> exact calm_pure trivial

/-- Going through items is calm if visiting records is.  It may be cancelled, and it may come
upon an item that cannot be read. -/
theorem calm_scan (iri : String) {visit : α → Nat → Record → Step α}
    (hvisit : ∀ a n record, Calm (visit a n record) (fun _ => True) fails)
    (hcancelled : fails .cancelled) (hsource : ∀ n fault, fails (.source iri (some n) fault))
    (items : List Item) :
    ∀ n a, Calm (e.scan iri visit n a items) (fun _ => True) fails := by
  induction items with
  | nil => intro n a; exact calm_pure trivial
  | cons item items ih =>
      intro n a
      apply calm_bind (calm_receive e.provider)
      intro _ _
      apply calm_bind (e.calm_checkCancelled hcancelled)
      intro _ _
      cases item with
      | error fault => exact calm_throw (hsource n fault)
      | ok record => exact calm_bind (hvisit a n record) fun b _ => ih (n + 1) b

end Engine

end RdfMapping
