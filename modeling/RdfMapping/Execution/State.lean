/-
The state of a run.

A run reads from a provider, keeps a trace, and builds indexes for joins; while it works
on one triples map it also counts and collects for that one.  All this is one value that
every step takes and gives back, also when the step fails: what was opened, logged and
counted before a failure is not undone by it.

What the provider has been asked outlives the run, since several runs may share a
provider and a cancellation signal.  That part is the `Session`.
-/
import RdfMapping.Execution.Index
import RdfMapping.Quad.Store
import RdfMapping.Trace

namespace RdfMapping

/-- What a provider has been asked for, and whether cancellation has been asked for. -/
structure Session where
  /-- The sources that were opened or failed to open, oldest first. -/
  opened : List LogicalSource := []
  /-- The number of items handed out. -/
  yielded : Nat := 0
  /-- Whether the cancellation signal is raised. -/
  cancelled : Bool := false

namespace Session

/-- The number of times a source was opened or failed to open. -/
def openCount (s : Session) (source : String) : Nat :=
  (s.opened.filter fun o => o.source == source).length

end Session

/-- What has come of the triples map that is being executed. -/
structure Progress where
  /-- The records that were read. -/
  records : Nat := 0
  /-- The records that made no subject. -/
  skippedRecords : Nat := 0
  /-- The quads that were made, oldest first. -/
  quads : Array Quad := #[]
  /-- The failures of its term maps, oldest first. -/
  diagnostics : Array Diagnostic := #[]

/-- The counts of a triples map that ended in a certain way. -/
def Progress.stats (p : Progress) (triplesMap : String) (status : Status) : Stats where
  triplesMap := triplesMap
  records := p.records
  skippedRecords := p.skippedRecords
  quads := p.quads.size
  status := status

/-- The state of a run. -/
structure RunState where
  /-- What the provider has been asked for. -/
  session : Session := {}
  /-- The innermost open span. -/
  span : Option Span := none
  /-- The trace so far. -/
  trace : Array TraceEntry := #[]
  /-- The indexes of parent triples maps by identity. -/
  indexes : List (String × ParentIndex) := []
  /-- The failures met while building indexes, oldest first. -/
  parentDiagnostics : Array Diagnostic := #[]
  /-- What has come of the current triples map. -/
  progress : Progress := {}

/-- A failure with the record it happened at. -/
structure Failure where
  /-- The position of the record, if one is known. -/
  record : Option Nat
  /-- What failed. -/
  error : Error
deriving DecidableEq

/-- The failure of an error that names its record itself, if it knows one. -/
def Failure.ofError (error : Error) : Failure := ⟨error.record?, error⟩

/-- A step of a run. -/
abbrev Step := EStateM Failure RunState

namespace Step

/-- Ends the step with an error. -/
def failWith {α : Type} (error : Error) : Step α := throw (.ofError error)

/-- Logs an event. -/
def log (event : Event) : Step Unit :=
  modify fun s => { s with trace := s.trace.push (.logged event s.span) }

/-- Performs a step inside a span, which is left again however the step ends. -/
def inSpan {α : Type} (span : Span) (step : Step α) : Step α := fun s =>
  let outer := s.span
  match step { s with trace := s.trace.push (.entered span outer), span := some span } with
  | .ok a s => .ok a { s with span := outer }
  | .error failure s => .error failure { s with span := outer }

/-- Performs a step and gives its failure as a value. -/
def attempt {α : Type} (step : Step α) : Step (Except Failure α) := fun s =>
  match step s with
  | .ok a s => .ok (.ok a) s
  | .error failure s => .ok (.error failure) s

/-- Opens the source of a triples map. -/
def openSource (provider : Provider) (triplesMap : String) (source : LogicalSource) :
    Step (List Item) := do
  let session := (← get).session
  modify fun s => { s with session := { session with opened := session.opened ++ [source] } }
  match provider.openAfter session.opened source with
  | .ok items => return items
  | .error e => failWith (.source triplesMap none e)

/-- Counts an item that is handed out, which may raise the cancellation signal. -/
def receive (provider : Provider) : Step Unit :=
  modify fun s =>
    let count := s.session.yielded + 1
    { s with session :=
      { s.session with
        yielded := count
        cancelled := s.session.cancelled || provider.cancelsAt count } }

/-- Counts a record of the current triples map. -/
def countRecord : Step Unit :=
  modify fun s => { s with progress := { s.progress with records := s.progress.records + 1 } }

/-- Counts a record of the current triples map that made no subject. -/
def countSkipped : Step Unit :=
  modify fun s =>
    { s with progress := { s.progress with skippedRecords := s.progress.skippedRecords + 1 } }

/-- Collects quads of the current triples map. -/
def emit (quads : List Quad) : Step Unit :=
  modify fun s =>
    { s with progress := { s.progress with quads := s.progress.quads ++ quads.toArray } }

/-- Survives a function failure of the current triples map: logs it and lists it. -/
def absorb (triplesMap : String) (record : Nat) (error : FunctionError) : Step Unit := do
  log (.functionFailed triplesMap record error)
  modify fun s =>
    { s with progress := { s.progress with
      diagnostics := s.progress.diagnostics.push ⟨triplesMap, some record, .function error⟩ } }

end Step

end RdfMapping
