/-
What a whole run comes to, said without a state.

A triples map that yields something leaves a part behind: its quads and counts if it is
completed, its counts alone if its failure is survived.  A run puts the parts of the
selected triples maps together.  It does so through a store for each part, and possibly goes
through the whole once more; `Config.toList_assemble` is what that comes to.
`Executor.Ready.run_eq` says that the quads and the counts of a run are made from these parts
and nothing else, and that a run fails exactly with the first failure among them that is not
survived.

Diagnostics are left out here.  They do depend on the state: a parent's failures are
listed with the triples map that happened to need the parent's index first.
-/
import RdfMapping.Proofs.Execution.Outcome
import RdfMapping.Proofs.Execution.Stateless
import RdfMapping.Proofs.Quad.Reached

namespace RdfMapping

/-- The quads and counts of what a triples map left behind. -/
def Contribution.part (p : Contribution) : List Quad × Stats := (p.quads, p.stats)

/-- The quads and counts of an execution. -/
def Execution.content (x : Execution) : List Quad × List Stats :=
  (x.store.toList, x.report.triplesMaps)

/-- The content of an execution that is put together from parts. -/
def Config.content (c : Config) (parts : List (List Quad × Stats)) : List Quad × List Stats :=
  let quads := (parts.map (·.1)).flatten
  (if c.removeDuplicates then distinct quads else quads, parts.map (·.2))

namespace Engine

/-- The parts that triples maps at some positions leave behind, or the first failure that is not
survived. -/
def partsOf (e : Engine) (c : Config) (selected : List (Nat × TriplesMap)) :
    Except Failure (List (List Quad × Stats)) :=
  selected.mapM fun entry =>
    (e.mapYield c.subjectFunctionErrors entry.1 entry.2).part c entry.2.iri

variable {e : Engine} {α β γ δ : Type}

/-! ### Steps of which only a view matters -/

/-- From every sound state the step ends in this way as far as the view shows, and stays sound. -/
def Shows (e : Engine) (step : Step α) (view : α → β) (outcome : Except Failure β) : Prop :=
  ∀ s, e.Sound s → ∃ s' full, e.Sound s' ∧ step s = Step.result full s' ∧ full.map view = outcome

theorem shows_pure {view : α → β} {a : α} {b : β} (h : view a = b) :
    e.Shows (pure a) view (.ok b) := by
  intro s hs
  exact ⟨s, .ok a, hs, rfl, by rw [Except.map, h]⟩

theorem shows_bind {x : Step α} {f : α → Step β} {view : α → γ} {view' : β → δ} {c : γ}
    {outcome : Except Failure δ} (hx : e.Shows x view (.ok c))
    (hf : ∀ a, view a = c → e.Shows (f a) view' outcome) : e.Shows (x >>= f) view' outcome := by
  intro s hs
  obtain ⟨s₁, full, hs₁, hx₁, hview⟩ := hx s hs
  cases full with
  | error failure => cases hview
  | ok a =>
      obtain ⟨s₂, full, hs₂, hf₂, hview'⟩ := hf a (by simpa [Except.map] using hview) s₁ hs₁
      refine ⟨s₂, full, hs₂, ?_, hview'⟩
      rw [Step.bind_apply, hx₁]
      exact hf₂

theorem shows_bind_error {x : Step α} (f : α → Step β) {view : α → γ} {view' : β → δ}
    {failure : Failure} (hx : e.Shows x view (.error failure)) :
    e.Shows (x >>= f) view' (.error failure) := by
  intro s hs
  obtain ⟨s₁, full, hs₁, hx₁, hview⟩ := hx s hs
  cases full with
  | ok a => cases hview
  | error failure' =>
      obtain rfl : failure' = failure := by simpa [Except.map] using hview
      refine ⟨s₁, .error failure', hs₁, ?_, rfl⟩
      rw [Step.bind_apply, hx₁]
      rfl

theorem shows_inSpan {step : Step α} (span : Span) {view : α → β} {outcome : Except Failure β}
    (h : e.Shows step view outcome) : e.Shows (Step.inSpan span step) view outcome := by
  intro s hs
  obtain ⟨s', full, hs', hstep, hview⟩ := h
    { s with trace := s.trace.push (.entered span s.span), span := some span }
    ⟨hs.undisturbed, hs.indexes⟩
  refine ⟨{ s' with span := s.span }, full, ⟨hs'.undisturbed, hs'.indexes⟩, ?_, hview⟩
  unfold Step.inSpan
  simp only [hstep]
  cases full <;> rfl

/-- What performs something shows its value. -/
theorem Performs.shows {step : Step α} {t : Tally} {outcome : Except Failure α}
    (h : e.Performs step t outcome) : e.Shows step id outcome := by
  intro s hs
  obtain ⟨s', hs', -, hstep⟩ := h s hs
  exact ⟨s', outcome, hs', hstep, by cases outcome <;> rfl⟩

/-! ### Contributions -/

/-- The parents of a rule graph that can be executed are known. -/
theorem knowsParents_of_validate (hvalid : e.graph.validate = .ok ()) {m : TriplesMap}
    (hm : m ∈ e.graph.triplesMaps) : e.KnowsParents m := by
  intro r hr
  obtain ⟨position, hposition⟩ := List.mem_iff_getElem?.mp hm
  obtain ⟨p, hp, hr⟩ := List.mem_flatMap.mp hr
  have hexecutable := RuleGraph.validate_eq_ok_iff.mp hvalid position m hposition
  exact (hexecutable.statements p hp).parents r hr

/-- A triples map leaves behind the part that its yield makes. -/
theorem shows_contribution (he : e.Repeatable) (c : Config) (position : Nat) {m : TriplesMap}
    (hm : m ∈ e.graph.triplesMaps) (hknown : e.KnowsParents m) :
    e.Shows (e.contribution c position m) Contribution.part
      ((e.mapYield c.subjectFunctionErrors position m).part c m.iri) := by
  intro s hs
  obtain ⟨s₁, hs₁, htally, hrun⟩ :=
    yields_runTriplesMap he c.subjectFunctionErrors position hm hknown
      { s with progress := {} } ⟨hs.undisturbed, hs.indexes⟩
  have hclean : ({ s with progress := {} } : RunState).progress.tally = {} := rfl
  rw [hclean, Tally.empty_append] at htally
  have hquads : s₁.progress.quads.toList
      = (e.mapYield c.subjectFunctionErrors position m).tally.quads := by rw [← htally]; rfl
  have hstats : ∀ status, s₁.progress.stats m.iri status
      = (e.mapYield c.subjectFunctionErrors position m).tally.stats m.iri status := by
    intro status
    rw [Progress.stats_eq, htally]
  rw [contribution_eq, hrun]
  unfold Yield.part Yield.outcome
  cases (e.mapYield c.subjectFunctionErrors position m).failure with
  | none =>
      refine ⟨{ s₁ with parentDiagnostics := #[] }, .ok _, ⟨hs₁.undisturbed, hs₁.indexes⟩, rfl, ?_⟩
      rw [Except.map, Contribution.part, hstats, hquads]
  | some failure =>
      dsimp only [Step.result]
      by_cases hsurvives : c.survives failure.error
      · rw [if_pos hsurvives, if_pos hsurvives]
        refine ⟨{ s₁ with
            parentDiagnostics := #[]
            trace := s₁.trace.push
              (.logged (.givenUp m.iri failure.record failure.error) s₁.span) },
          .ok _, ⟨hs₁.undisturbed, hs₁.indexes⟩, rfl, ?_⟩
        rw [Except.map, Contribution.part, hstats]
      · rw [if_neg hsurvives, if_neg hsurvives]
        exact ⟨{ s₁ with parentDiagnostics := #[] }, .error failure,
          ⟨hs₁.undisturbed, hs₁.indexes⟩, rfl, rfl⟩

theorem shows_contributions (he : e.Repeatable) (c : Config) {selected : List (Nat × TriplesMap)}
    (hselected : ∀ entry ∈ selected, entry.2 ∈ e.graph.triplesMaps ∧ e.KnowsParents entry.2) :
    e.Shows (e.contributions c selected) (List.map Contribution.part) (e.partsOf c selected) := by
  induction selected with
  | nil => exact shows_pure rfl
  | cons entry selected ih =>
      obtain ⟨position, m⟩ := entry
      obtain ⟨hm, hknown⟩ := hselected (position, m) (by simp)
      have hfirst := shows_contribution he c position hm hknown
      have hrest := ih fun other hother => hselected other (by simp [hother])
      rw [partsOf, List.mapM_cons]
      cases hpart : (e.mapYield c.subjectFunctionErrors position m).part c m.iri with
      | error failure =>
          rw [hpart] at hfirst
          exact shows_bind_error _ hfirst
      | ok part =>
          rw [hpart] at hfirst
          refine shows_bind hfirst fun first hview => ?_
          change e.Shows _ _ (e.partsOf c selected >>= fun parts => pure (part :: parts))
          cases hparts : e.partsOf c selected with
          | error failure =>
              rw [hparts] at hrest
              exact shows_bind_error _ hrest
          | ok parts =>
              rw [hparts] at hrest
              refine shows_bind hrest fun rest hviews => shows_pure ?_
              rw [List.map_cons, hview, hviews]

end Engine

/-! ### Putting parts together -/

namespace Config

variable (c : Config)

theorem toList_foldl_collect (parts : List (List Quad)) :
    (parts.foldl c.collect .empty).toList
      = if c.removeDuplicates then distinct parts.flatten else parts.flatten := by
  by_cases hremove : c.removeDuplicates
  · have hcollect : c.collect = fun store quads => (store.addAll quads).2 := by
      funext store quads
      rw [collect, if_pos hremove]
    rw [if_pos hremove, hcollect, (Store.collects_empty.foldl_addAll parts).toList_eq,
      List.nil_append]
  · have hcollect : c.collect = Store.pushAll := by
      funext store quads
      rw [collect, if_neg hremove]
    rw [if_neg hremove, hcollect, Store.toList_foldl_pushAll, Store.toList_empty, List.nil_append]

/-- What a triples map has staged. -/
theorem toList_collect_empty (quads : List Quad) :
    (c.collect .empty quads).toList = if c.removeDuplicates then distinct quads else quads := by
  simpa using c.toList_foldl_collect [quads]

/-- Putting a store behind others is collecting its quads. -/
theorem combine_eq (stores : List Store) :
    c.combine stores = (stores.map Store.toList).foldl c.collect .empty := by
  rw [List.foldl_map]
  rfl

theorem toList_combine (stores : List Store) :
    (c.combine stores).toList
      = if c.removeDuplicates then distinct (stores.map Store.toList).flatten
        else (stores.map Store.toList).flatten := by
  rw [c.combine_eq, c.toList_foldl_collect]

theorem faithful_collect {s : Store} (h : s.Faithful) (quads : List Quad) :
    (c.collect s quads).Faithful := by
  unfold collect
  split
  · exact h.addAll quads
  · exact h.pushAll quads

theorem faithful_combine (stores : List Store) : (c.combine stores).Faithful := by
  have hfold : ∀ (parts : List (List Quad)) {s : Store}, s.Faithful →
      (parts.foldl c.collect s).Faithful := by
    intro parts
    induction parts with
    | nil => exact fun h => h
    | cons quads parts ih => exact fun h => ih (c.faithful_collect h quads)
  rw [c.combine_eq]
  exact hfold _ Store.faithful_empty

theorem faithful_assemble (parts : List (List Quad)) : (c.assemble parts).Faithful := by
  unfold assemble
  dsimp only
  split
  · exact (c.faithful_combine _).removeDuplicates
  · exact c.faithful_combine _

/-- **The store of a run has the quads of its parts.**  Repetitions are removed within each part,
when the parts are put together and at the end, which comes to removing them once. -/
theorem toList_assemble (parts : List (List Quad)) :
    (c.assemble parts).toList
      = if c.removeDuplicates then distinct parts.flatten else parts.flatten := by
  have hcombined := c.toList_combine (parts.map (c.collect .empty))
  rw [List.map_map] at hcombined
  simp only [Function.comp_def, toList_collect_empty] at hcombined
  unfold assemble
  dsimp only
  by_cases hremove : c.removeDuplicates = true
  · simp only [if_pos hremove] at hcombined ⊢
    rw [distinct_flatten_map_distinct] at hcombined
    rw [(c.faithful_combine _).toList_removeDuplicates, hcombined, distinct_distinct]
  · simp only [if_neg hremove, List.map_id'] at hcombined ⊢
    exact hcombined

end Config

theorem Execution.content_ofContributions (c : Config) (parts : List Contribution) :
    (Execution.ofContributions c parts).content = c.content (parts.map Contribution.part) := by
  rw [Execution.ofContributions, Execution.content, Config.content, Config.toList_assemble]
  simp only [List.map_map, Function.comp_def, Contribution.part]

/-! ### Runs -/

theorem Engine.shows_execute {e : Engine} (he : e.Repeatable) (c : Config)
    {selected : List (Nat × TriplesMap)}
    (hselected : ∀ entry ∈ selected, entry.2 ∈ e.graph.triplesMaps ∧ e.KnowsParents entry.2) :
    e.Shows (e.execute c selected) Execution.content ((e.partsOf c selected).map c.content) := by
  refine shows_inSpan _ ?_
  have hparts := shows_contributions he c hselected
  cases houtcome : e.partsOf c selected with
  | error failure =>
      rw [houtcome] at hparts
      exact shows_bind_error _ hparts
  | ok parts =>
      rw [houtcome] at hparts
      refine shows_bind hparts fun contributions hview => ?_
      refine shows_bind (performs_log _).shows fun _ _ => shows_pure ?_
      rw [Execution.content_ofContributions, hview]

namespace Executor

/-- Nothing is wrong with a run before anything is read, and its provider gives for the sources
of the graph the same whenever they are opened and never asks for a cancellation that is heeded. -/
structure Ready (x : Executor) (graph : RuleGraph) (base : Option Iri) : Prop where
  based : x.config.base = .ok base
  valid : graph.validate = .ok ()
  reopens : ∀ m ∈ graph.triplesMaps, ∀ source, m.logicalSource = some source →
    ∀ opened, x.provider.openAfter opened source = x.provider.openAfter [] source
  silent : x.cancellable = true → ∀ n, x.provider.cancelsAt n = false

variable {x : Executor} {graph : RuleGraph} {base : Option Iri}

theorem Ready.repeatable (h : x.Ready graph base) : (x.engine graph base).Repeatable where
  complete := by
    intro m hm
    obtain ⟨position, hposition⟩ := List.mem_iff_getElem?.mp hm
    have hexecutable := RuleGraph.validate_eq_ok_iff.mp h.valid position m hposition
    obtain ⟨subjectMap, hsubject, -⟩ := hexecutable.subject
    exact ⟨hexecutable.source, by rw [hsubject]; rfl⟩
  reopens := h.reopens
  silent := h.silent

theorem Ready.knowsParents (h : x.Ready graph base) {m : TriplesMap}
    (hm : m ∈ graph.triplesMaps) : (x.engine graph base).KnowsParents m :=
  Engine.knowsParents_of_validate h.valid hm

theorem Ready.prepare_eq (h : x.Ready graph base) {filter : Option (List String)}
    {positions : List Nat} (hselect : graph.select filter = .ok positions) :
    x.prepare graph filter = .ok (x.engine graph base, graph.selected filter) := by
  exact prepare_eq_ok_iff.mpr ⟨base, positions, h.based, h.valid, hselect, rfl⟩

/-- **A run comes to what its triples maps come to.**  Its quads and counts are put together
from their parts, and it fails with the first of their failures that is not survived. -/
theorem Ready.run_eq (h : x.Ready graph base) {filter : Option (List String)}
    {positions : List Nat} (hselect : graph.select filter = .ok positions) {session : Session}
    (hcalm : x.cancellable = true → session.cancelled = false) :
    (x.run graph filter session).result.map Execution.content
      = (((x.engine graph base).partsOf x.config (graph.selected filter)).map
          x.config.content).mapError (·.error) := by
  have hselected : ∀ entry ∈ graph.selected filter,
      entry.2 ∈ (x.engine graph base).graph.triplesMaps ∧
        (x.engine graph base).KnowsParents entry.2 := by
    intro entry hentry
    have hm := RuleGraph.mem_of_mem_selected hentry
    exact ⟨hm, h.knowsParents hm⟩
  obtain ⟨s, full, -, hrun, hview⟩ := Engine.shows_execute h.repeatable x.config hselected
    { session } (Engine.sound_of_calm hcalm rfl)
  rw [run, h.prepare_eq hselect]
  dsimp only
  rw [hrun, ← hview]
  cases full <;> rfl

end Executor

end RdfMapping
