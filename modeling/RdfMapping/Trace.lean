/-
The trace of a run.

A trace lists, in order, the spans that a run entered and the events that it logged, each
with the innermost span that was open at the time.  Spans and events are values of their
own: what was logged can be asked of them, and the wording is a function of it.
-/
import RdfMapping.Generation
import RdfMapping.Report

namespace RdfMapping

/-- How important an entry is. -/
inductive Level where
  /-- Only of interest when looking at single values. -/
  | trace
  /-- Of interest when looking into a run. -/
  | debug
  /-- Of interest to whoever started the run. -/
  | info
  /-- A failure that was survived. -/
  | warn
deriving DecidableEq

/-- The wording of a level. -/
def Level.name : Level → String
  | trace => "TRACE"
  | debug => "DEBUG"
  | info => "INFO"
  | warn => "WARN"

/-- A stretch of a run. -/
inductive Span where
  /-- The execution of a number of triples maps. -/
  | run (triplesMaps : Nat)
  /-- The execution of one triples map. -/
  | triplesMap (iri : String)
  /-- The scan of a parent triples map for its index. -/
  | joinIndex (parent : String)
deriving DecidableEq

namespace Span

/-- The name of a span. -/
def name : Span → String
  | run _ => "rml_execute"
  | triplesMap _ => "triples_map"
  | joinIndex _ => "build_join_index"

/-- The level of a span. -/
def level : Span → Level
  | run _ => .info
  | triplesMap _ => .debug
  | joinIndex _ => .debug

/-- The fields of a span. -/
def fields : Span → List (String × String)
  | run n => [("triples_maps", toString n)]
  | triplesMap iri => [("iri", iri)]
  | joinIndex parent => [("parent", parent)]

end Span

/-- Something that happened in a run. -/
inductive Event where
  /-- Something about the making of terms. -/
  | generation (note : GenerationNote)
  /-- A term map made no terms because a function failed. -/
  | functionFailed (triplesMap : String) (record : Nat) (error : FunctionError)
  /-- A parent record is not joined because its subject failed. -/
  | parentFailed (parent : String) (record : Nat) (error : FunctionError)
  /-- A record made no subject. -/
  | noSubject (triplesMap : String) (record : Nat)
  /-- A triples map was given up. -/
  | givenUp (triplesMap : String) (record : Option Nat) (error : Error)
  /-- A triples map was completed. -/
  | completed (stats : Stats)
  /-- The index of a parent was built. -/
  | indexed (parent : String) (records layouts : Nat)
  /-- The run was completed. -/
  | finished (quads triplesMaps diagnostics : Nat)
deriving DecidableEq

namespace Event

/-- The level of an event. -/
def level : Event → Level
  | generation (.dropped _) => .debug
  | generation (.withheld ..) => .trace
  | functionFailed .. => .warn
  | parentFailed .. => .warn
  | noSubject .. => .debug
  | givenUp .. => .warn
  | completed _ => .debug
  | indexed .. => .debug
  | finished .. => .info

/-- The wording of an event. -/
def message : Event → String
  | generation (.dropped _) => "dropping value that is not a valid IRI"
  | generation (.withheld ..) => "required parameter has no value, skipping invocation"
  | functionFailed .. => "Function failed, term map produced no terms"
  | parentFailed .. => "Failed to generate parent subject, skipping record"
  | noSubject .. => "No subject, skipping record"
  | givenUp .. => "Skipping triples map"
  | completed _ => "Triples map complete"
  | indexed .. => "Built parent index for referencing object maps"
  | finished .. => "RML execution finished"

/-- A record position that may be absent, as a given-up triples map shows it. -/
def recordText : Option Nat → String
  | none => "None"
  | some n => "Some(" ++ toString n ++ ")"

/-- The fields of an event. -/
def fields : Event → List (String × String)
  | generation (.dropped value) => [("value", value)]
  | generation (.withheld function parameter) =>
    [("function", function), ("parameter", parameter)]
  | functionFailed triplesMap record error =>
    [("triples_map", triplesMap), ("record", toString record), ("error", error.message)]
  | parentFailed parent record error =>
    [("parent", parent), ("record", toString record), ("error", error.message)]
  | noSubject triplesMap record =>
    [("triples_map", triplesMap), ("record", toString record)]
  | givenUp triplesMap record error =>
    [("triples_map", triplesMap), ("record", recordText record), ("error", error.message)]
  | completed stats =>
    [("triples_map", stats.triplesMap), ("records", toString stats.records),
     ("skipped", toString stats.skippedRecords), ("quads", toString stats.quads)]
  | indexed parent records layouts =>
    [("parent", parent), ("records", toString records), ("layouts", toString layouts)]
  | finished quads triplesMaps diagnostics =>
    [("quads", toString quads), ("triples_maps", toString triplesMaps),
     ("diagnostics", toString diagnostics)]

end Event

/-- An entry of a trace with the innermost span that was open. -/
inductive TraceEntry where
  /-- A span was entered. -/
  | entered (span : Span) (within : Option Span)
  /-- An event was logged. -/
  | logged (event : Event) (within : Option Span)
deriving DecidableEq

end RdfMapping
