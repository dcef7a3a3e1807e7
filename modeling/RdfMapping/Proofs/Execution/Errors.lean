/-
Which errors end a run.

Four kinds of error end runs.  The configuration and the rule graph are at fault exactly if
their own checks say so, and a run that gets past these checks ends only with a source that
cannot be read, or because it was cancelled.  So what the engine says about rule graphs in
the middle of a run is never heard, and no function that fails ends a run, wherever in the
rules it is called.
-/
import RdfMapping.Proofs.Execution.Diagnostics

namespace RdfMapping

/-- The base is refused exactly if it is given and no IRI. -/
theorem Config.base_eq_error_iff {c : Config} {cause : ConfigError} :
    c.base = .error cause ↔ ∃ iri fault, c.baseIri = some iri ∧ Iri.parse iri = .error fault ∧
      cause = .invalidBase iri fault := by
  unfold base parseBase
  cases c.baseIri with
  | none => simp
  | some iri => cases hparse : Iri.parse iri <;> simp [hparse, Except.mapError, Except.map, eq_comm]

theorem Config.validate_eq_ok_iff {c : Config} :
    c.validate = .ok () ↔ ∃ base, c.base = .ok base := by
  unfold validate
  cases c.base <;> simp [bind, Except.bind, pure, Except.pure]

/-- A failure that is not survived is a cancellation or about a source. -/
theorem Engine.Cause.fatal {e : Engine} {start t : Session} {c : Config} {m : TriplesMap}
    {failure : Failure} (h : e.Cause start c.subjectFunctionErrors m t failure)
    (hfatal : ¬ c.survives failure.error) :
    (∃ iri record fault, failure.error = .source iri record fault ∧ c.sourceErrors = .fail) ∨
      failure.error = .cancelled ∧ e.cancellable = true ∧ t.cancelled = true := by
  cases h with
  | cancelled hheeded hraised => exact .inr ⟨rfl, hheeded, hraised⟩
  | @source iri record fault hiri hnames =>
      refine .inl ⟨iri, record, fault, rfl, ?_⟩
      cases hpolicy : c.sourceErrors with
      | fail => rfl
      | skipTriplesMap =>
          have hsurvives : c.survives (.source iri record fault) = true := by
            rw [Config.survives, hpolicy]
            rfl
          exact absurd hsurvives hfatal
  | @subject n error hpolicy hnames =>
      have hsurvives : c.survives (.function error) = true := by
        rw [Config.survives, hpolicy]
        rfl
      exact absurd hsurvives hfatal

namespace Executor

variable {x : Executor} {graph : RuleGraph} {filter : Option (List String)} {session : Session}

theorem prepare_eq_config_iff {cause : ConfigError} :
    x.prepare graph filter = .error (.config cause) ↔ x.config.base = .error cause := by
  rw [prepare_eq_error_iff]
  simp [eq_comm]

theorem prepare_eq_graph_iff {fault : GraphError} :
    x.prepare graph filter = .error (.graph fault) ↔ x.config.validate = .ok () ∧
      (graph.validate = .error fault ∨
        graph.validate = .ok () ∧ graph.select filter = .error fault) := by
  rw [prepare_eq_error_iff, Config.validate_eq_ok_iff]
  simp [eq_comm]

/-- The errors that may end a run, each with what it takes for that. -/
inductive Ends (x : Executor) (graph : RuleGraph) (filter : Option (List String))
    (session : Session) : Error → Prop
  | config {cause : ConfigError} (h : x.config.base = .error cause) :
      Ends x graph filter session (.config cause)
  | graph {fault : GraphError} (hconfig : x.config.validate = .ok ())
      (h : graph.validate = .error fault ∨
        graph.validate = .ok () ∧ graph.select filter = .error fault) :
      Ends x graph filter session (.graph fault)
  | source {iri : String} {record : Option Nat} {fault : SourceError}
      (h : x.config.sourceErrors = .fail) : Ends x graph filter session (.source iri record fault)
  | cancelled (hheeded : x.cancellable = true)
      (hraised : (x.run graph filter session).session.cancelled = true) :
      Ends x graph filter session .cancelled

theorem ends_of_run_eq_error {error : Error}
    (h : (x.run graph filter session).result = .error error) :
    x.Ends graph filter session error := by
  cases hprepare : x.prepare graph filter with
  | error fault =>
      rw [run_eq_of_prepare_eq_error hprepare, Except.error.injEq] at h
      subst h
      rcases prepare_eq_error_iff.mp hprepare with ⟨cause, -, rfl⟩ | ⟨-, fault, -, rfl, -⟩
      · exact .config (prepare_eq_config_iff.mp hprepare)
      · obtain ⟨hconfig, hfault⟩ := prepare_eq_graph_iff.mp hprepare
        exact .graph hconfig hfault
  | ok prepared =>
      obtain ⟨base, positions, hbase, hvalid, hselect, -⟩ := prepare_eq_ok_iff.mp hprepare
      have hproceeds := run_proceeds hbase hvalid hselect session
      rw [h] at hproceeds
      obtain ⟨hfatal, failure, rfl, m, -, hcause⟩ := hproceeds
      rcases hcause.fatal hfatal with ⟨iri, record, fault, herror, hfail⟩ | ⟨herror, hraised⟩
      · rw [herror]
        exact .source hfail
      · rw [herror]
        exact .cancelled hraised.1 hraised.2

/--
**Only documented errors end a run.**  It is an error about the configuration exactly if the
base is no IRI; else one about the rule graph exactly if the rule graph or the selection
is; else one about a source, if those are not to be skipped, or a cancellation that was
asked for.  No run ends with an error about a template or a function.
-/
theorem run_error (x : Executor) (graph : RuleGraph) (filter : Option (List String))
    (session : Session) :
    (∀ cause, (x.run graph filter session).result = .error (.config cause) ↔
        ∃ iri fault, x.config.baseIri = some iri ∧ Iri.parse iri = .error fault ∧
          cause = .invalidBase iri fault) ∧
      (∀ fault, (x.run graph filter session).result = .error (.graph fault) ↔
        x.config.validate = .ok () ∧ (graph.validate = .error fault ∨
          graph.validate = .ok () ∧ graph.select filter = .error fault)) ∧
      (∀ iri record fault,
        (x.run graph filter session).result = .error (.source iri record fault) →
          x.config.sourceErrors = .fail) ∧
      ((x.run graph filter session).result = .error .cancelled →
        x.cancellable = true ∧ (x.run graph filter session).session.cancelled = true) ∧
      (∀ cause, (x.run graph filter session).result ≠ .error (.template cause)) ∧
      ∀ cause, (x.run graph filter session).result ≠ .error (.function cause) := by
  have hresult : ∀ {error}, x.prepare graph filter = .error error →
      (x.run graph filter session).result = .error error := by
    intro error h
    rw [run_eq_of_prepare_eq_error h]
  refine ⟨fun cause => ?_, fun fault => ⟨?_, fun h => hresult (prepare_eq_graph_iff.mpr h)⟩,
    ?_, ?_, ?_, ?_⟩
  · rw [← Config.base_eq_error_iff]
    refine ⟨fun h => ?_, fun h => hresult (prepare_eq_config_iff.mpr h)⟩
    cases ends_of_run_eq_error h with
    | config hrefused => exact hrefused
  · intro h
    cases ends_of_run_eq_error h with
    | graph hconfig hfault => exact ⟨hconfig, hfault⟩
  · intro iri record fault h
    cases ends_of_run_eq_error h with
    | source hfail => exact hfail
  · intro h
    cases ends_of_run_eq_error h with
    | cancelled hheeded hraised => exact ⟨hheeded, hraised⟩
  · intro cause h
    cases ends_of_run_eq_error h
  · intro cause h
    cases ends_of_run_eq_error h

end Executor

end RdfMapping
