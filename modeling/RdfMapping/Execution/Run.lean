/-
Executing a rule graph.

A run first makes sure of its configuration, its rule graph and the selection it was
asked for; nothing is read before all three are in order.  It then executes the selected
triples maps in declaration order.  The quads of a triples map are staged in a store of its
own and enter the result only when it is completed, so a triples map that is given up leaves
no quad behind, while its counts and diagnostics stay in the report.
-/
import RdfMapping.Execution.TriplesMap
import RdfMapping.Rules.Validation

namespace RdfMapping

/-- What a run gives. -/
structure Execution where
  /-- The quads. -/
  store : Store
  /-- The report. -/
  report : Report

/-- Whether a failure costs only the triples map it happened in. -/
def Config.survives (c : Config) : Error → Bool
  | .source .. => c.sourceErrors == .skipTriplesMap
  | .function _ => c.subjectFunctionErrors == .abortTriplesMap
  | _ => false

/-- The store with what a triples map has emitted. -/
def Config.collect (c : Config) (store : Store) (quads : List Quad) : Store :=
  if c.removeDuplicates then (store.addAll quads).2 else store.pushAll quads

/-- Stores put together in order, by merging if repetitions are removed. -/
def Config.combine (c : Config) (stores : List Store) : Store :=
  stores.foldl
    (fun all store => if c.removeDuplicates then (all.merge store).2 else all.extend store) .empty

/-- The store of a run: what each triples map leaves behind is staged, the stages are put
together, and what repetitions are left are removed if that is asked for. -/
def Config.assemble (c : Config) (parts : List (List Quad)) : Store :=
  let store := c.combine (parts.map (c.collect .empty))
  if c.removeDuplicates then store.removeDuplicates else store

/-- What a triples map leaves behind. -/
structure Contribution where
  /-- Its quads, none if it was given up. -/
  quads : List Quad
  /-- Its counts. -/
  stats : Stats
  /-- The failures in it, and those of parents met in the meantime. -/
  diagnostics : List Diagnostic

namespace Engine

/-- Executes a triples map from a clean slate, survives its failure if the configuration allows
that, and gives what it leaves behind. -/
def contribution (e : Engine) (c : Config) (position : Nat) (m : TriplesMap) :
    Step Contribution := do
  modify fun s => { s with progress := {} }
  let outcome ← Step.attempt (e.runTriplesMap c.subjectFunctionErrors position m)
  let s ← get
  set { s with parentDiagnostics := #[] }
  let diagnostics := s.progress.diagnostics.toList ++ s.parentDiagnostics.toList
  match outcome with
  | .ok () => return ⟨s.progress.quads.toList, s.progress.stats m.iri .completed, diagnostics⟩
  | .error failure =>
    if c.survives failure.error then
      Step.log (.givenUp m.iri failure.record failure.error)
      return ⟨[], s.progress.stats m.iri .skipped,
        diagnostics ++ [⟨m.iri, failure.record, failure.error⟩]⟩
    else throw failure

/-- Executes the triples maps at some positions in order. -/
def contributions (e : Engine) (c : Config) : List (Nat × TriplesMap) → Step (List Contribution)
  | [] => return []
  | (position, m) :: rest => do
    let first ← e.contribution c position m
    return first :: (← e.contributions c rest)

end Engine

/-- Puts together what the triples maps left behind. -/
def Execution.ofContributions (c : Config) (parts : List Contribution) : Execution where
  store := c.assemble (parts.map (·.quads))
  report :=
    { triplesMaps := parts.map (·.stats)
      diagnostics := parts.flatMap (·.diagnostics) }

/-- Executes the triples maps at some positions as one run. -/
def Engine.execute (e : Engine) (c : Config) (selected : List (Nat × TriplesMap)) :
    Step Execution := Step.inSpan (.run selected.length) do
  let execution := Execution.ofContributions c (← e.contributions c selected)
  Step.log (.finished execution.store.size execution.report.triplesMaps.length
    execution.report.diagnostics.length)
  return execution

/-! ### Executors -/

/-- Executes rule graphs against a provider. -/
structure Executor where
  /-- Where records come from. -/
  provider : Provider
  /-- The functions that rules may call. -/
  functions : Registry := {}
  /-- How runs are configured. -/
  config : Config := {}
  /-- Whether runs heed the cancellation signal. -/
  cancellable : Bool := true

/-- How a run went. -/
structure Outcome where
  /-- What it gave. -/
  result : Except Error Execution
  /-- What the provider has been asked for up to its end. -/
  session : Session
  /-- Its trace. -/
  trace : List TraceEntry

namespace Executor

/-- Checks what must be in order before anything is read, and gives the engine with the triples
maps to execute. -/
def prepare (x : Executor) (graph : RuleGraph) (filter : Option (List String)) :
    Except Error (Engine × List (Nat × TriplesMap)) := do
  let base ← x.config.base.mapError .config
  graph.validate.mapError .graph
  let positions ← (graph.select filter).mapError .graph
  return (⟨graph, x.provider, ⟨x.functions, base⟩, x.cancellable⟩,
    positions.filterMap fun position => (graph.triplesMaps[position]?).map (position, ·))

/-- Runs a rule graph, all of it or the triples maps asked for, in a session. -/
def run (x : Executor) (graph : RuleGraph) (filter : Option (List String) := none)
    (session : Session := {}) : Outcome :=
  match x.prepare graph filter with
  | .error error => ⟨.error error, session, []⟩
  | .ok (engine, selected) =>
    match engine.execute x.config selected { session } with
    | .ok execution s => ⟨.ok execution, s.session, s.trace.toList⟩
    | .error failure s => ⟨.error failure.error, s.session, s.trace.toList⟩

/-- The quads and the report of a run. -/
def execute (x : Executor) (graph : RuleGraph) (filter : Option (List String) := none) :
    Except Error Execution :=
  (x.run graph filter).result

end Executor

end RdfMapping
