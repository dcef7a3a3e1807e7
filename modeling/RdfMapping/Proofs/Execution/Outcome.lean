/-
How a run ends.

A run is prepared and then goes through the selected triples maps.  `prepare_eq_ok_iff` and
`prepare_eq_error_iff` say when it gets past the first part and what it fails with if it does
not, and `run_eq` reads the second part off the contributions of the triples maps.  What a
single triples map contributes is read off its execution by `contribution_eq`.

Everything that is said of whole runs goes through these equations, so that nothing else
looks into the way a run is put together.
-/
import RdfMapping.Proofs.Execution.Steps
import RdfMapping.Proofs.Rules.Selection

namespace RdfMapping

/-! ### Triples maps -/

/-- The failures of a state that its triples map has to report. -/
def RunState.noted (s : RunState) : List Diagnostic :=
  s.progress.diagnostics.toList ++ s.parentDiagnostics.toList

/-- What a triples map contributes is what has come of it, unless it failed. -/
theorem Engine.contribution_eq (e : Engine) (c : Config) (position : Nat) (m : TriplesMap)
    (s : RunState) :
    e.contribution c position m s
      = match e.runTriplesMap c.subjectFunctionErrors position m { s with progress := {} } with
        | .ok () s₁ =>
          .ok ⟨s₁.progress.quads.toList, s₁.progress.stats m.iri .completed, s₁.noted⟩
            { s₁ with parentDiagnostics := #[] }
        | .error failure s₁ =>
          if c.survives failure.error then
            .ok ⟨[], s₁.progress.stats m.iri .skipped,
                s₁.noted ++ [⟨m.iri, failure.record, failure.error⟩]⟩
              { s₁ with
                parentDiagnostics := #[]
                trace := s₁.trace.push
                  (.logged (.givenUp m.iri failure.record failure.error) s₁.span) }
          else .error failure { s₁ with parentDiagnostics := #[] } := by
  unfold contribution
  rw [Step.bind_apply, Step.modify_apply]
  dsimp only
  rw [Step.bind_apply, Step.attempt]
  cases e.runTriplesMap c.subjectFunctionErrors position m { s with progress := {} } with
  | ok a s₁ => rfl
  | error failure s₁ =>
      dsimp only
      rw [Step.bind_apply, Step.get_apply]
      dsimp only
      rw [Step.bind_apply, Step.set_apply]
      dsimp only
      by_cases hsurvives : c.survives failure.error
      · rw [if_pos hsurvives, if_pos hsurvives]
        rfl
      · rw [if_neg hsurvives, if_neg hsurvives]
        rfl

/-! ### Runs -/

/-- The state in which a run of some triples maps sets out. -/
def RunState.atStart (session : Session) (selected : List (Nat × TriplesMap)) : RunState where
  session := session
  span := some (.run selected.length)
  trace := #[.entered (.run selected.length) none]

theorem Engine.execute_eq (e : Engine) (c : Config) (selected : List (Nat × TriplesMap))
    (session : Session) :
    e.execute c selected { session }
      = match e.contributions c selected (.atStart session selected) with
        | .ok parts s =>
          let execution := Execution.ofContributions c parts
          let finished := .finished execution.store.size execution.report.triplesMaps.length
            execution.report.diagnostics.length
          EStateM.Result.ok execution
            { s with trace := s.trace.push (.logged finished s.span), span := none }
        | .error failure s => EStateM.Result.error failure { s with span := none } := by
  have hstart : ({ session } : RunState).entering (.run selected.length)
      = .atStart session selected := rfl
  unfold execute
  rw [Step.inSpan_apply, hstart, Step.bind_apply]
  cases e.contributions c selected (.atStart session selected) <;> rfl

namespace Executor

variable {x : Executor} {graph : RuleGraph} {filter : Option (List String)} {session : Session}

/-- The engine that runs a rule graph. -/
def engine (x : Executor) (graph : RuleGraph) (base : Option Iri) : Engine :=
  ⟨graph, x.provider, ⟨x.functions, base⟩, x.cancellable⟩

/-- A run sets out exactly if its base, its rule graph and its filter are in order. -/
theorem prepare_eq_ok_iff {prepared : Engine × List (Nat × TriplesMap)} :
    x.prepare graph filter = .ok prepared ↔
      ∃ base positions, x.config.base = .ok base ∧ graph.validate = .ok () ∧
        graph.select filter = .ok positions ∧
        prepared = (x.engine graph base, graph.selected filter) := by
  unfold prepare
  simp only [bind_eq_ok_iff, mapError_eq_ok_iff]
  constructor
  · rintro ⟨base, hbase, _, hvalid, positions, hselect, hprepared⟩
    refine ⟨base, positions, hbase, hvalid, hselect, ?_⟩
    rw [← RuleGraph.filterMap_select hvalid hselect]
    exact (Except.ok.inj hprepared).symm
  · rintro ⟨base, positions, hbase, hvalid, hselect, rfl⟩
    refine ⟨base, hbase, (), hvalid, positions, hselect, ?_⟩
    rw [RuleGraph.filterMap_select hvalid hselect]
    rfl

/-- A run that does not set out fails with the first of the three that is not in order. -/
theorem prepare_eq_error_iff {error : Error} :
    x.prepare graph filter = .error error ↔
      (∃ cause, x.config.base = .error cause ∧ error = .config cause) ∨
        ∃ base fault, x.config.base = .ok base ∧ error = .graph fault ∧
          (graph.validate = .error fault ∨
            graph.validate = .ok () ∧ graph.select filter = .error fault) := by
  unfold prepare
  cases x.config.base with
  | error cause => simp [bind, Except.bind, Except.mapError, eq_comm]
  | ok base =>
      cases graph.validate with
      | error fault => simp [bind, Except.bind, Except.mapError, eq_comm]
      | ok _ =>
          cases graph.select filter with
          | error fault => simp [bind, Except.bind, Except.mapError, eq_comm]
          | ok positions => simp [bind, Except.bind, Except.mapError, pure, Except.pure]

/-- A run that does not set out asks the provider for nothing. -/
theorem run_eq_of_prepare_eq_error {error : Error} (h : x.prepare graph filter = .error error)
    (session : Session) : x.run graph filter session = ⟨.error error, session, []⟩ := by
  unfold run
  rw [h]

/-- A run that set out ends as its triples maps do. -/
theorem run_eq_of_prepare {engine : Engine} {selected : List (Nat × TriplesMap)}
    (h : x.prepare graph filter = .ok (engine, selected)) (session : Session) :
    x.run graph filter session
      = match engine.contributions x.config selected (.atStart session selected) with
        | .ok parts s =>
          let execution := Execution.ofContributions x.config parts
          let finished := .finished execution.store.size execution.report.triplesMaps.length
            execution.report.diagnostics.length
          ⟨.ok execution, s.session, (s.trace.push (.logged finished s.span)).toList⟩
        | .error failure s => ⟨.error failure.error, s.session, s.trace.toList⟩ := by
  unfold run
  rw [h]
  dsimp only
  rw [Engine.execute_eq]
  cases engine.contributions x.config selected (.atStart session selected) <;> rfl

/-- A run that succeeds was prepared, and its triples maps left their contributions behind. -/
theorem exists_contributions_of_run {execution : Execution}
    (h : (x.run graph filter session).result = .ok execution) :
    ∃ engine selected parts s, x.prepare graph filter = .ok (engine, selected) ∧
      engine.contributions x.config selected (.atStart session selected) = .ok parts s ∧
      execution = Execution.ofContributions x.config parts := by
  cases hprepare : x.prepare graph filter with
  | error error =>
      rw [run_eq_of_prepare_eq_error hprepare] at h
      cases h
  | ok prepared =>
      obtain ⟨engine, selected⟩ := prepared
      rw [run_eq_of_prepare hprepare] at h
      cases hrun : engine.contributions x.config selected (.atStart session selected) with
      | error failure s => rw [hrun] at h; cases h
      | ok parts s =>
          rw [hrun] at h
          cases h
          exact ⟨engine, selected, parts, s, rfl, hrun, rfl⟩

end Executor

end RdfMapping
