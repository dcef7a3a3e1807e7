/-
What a run reports besides its quads.

For every selected triples map the report has one entry that counts its records and
quads and says whether it was completed.  Failures that were survived are listed as
diagnostics: the triples map and record at which something failed, and the error.
-/
import RdfMapping.Error

namespace RdfMapping

/-- How a triples map ended. -/
inductive Status where
  /-- All its records were processed. -/
  | completed
  /-- It was given up, and its quads with it. -/
  | skipped
deriving DecidableEq

/-- The counts of one triples map. -/
structure Stats where
  /-- The identity of the triples map. -/
  triplesMap : String
  /-- The records that were read. -/
  records : Nat := 0
  /-- The records that made no subject. -/
  skippedRecords : Nat := 0
  /-- The quads that were made, duplicates counted. -/
  quads : Nat := 0
  /-- How the triples map ended. -/
  status : Status := .completed
deriving DecidableEq

/-- A failure that was survived. -/
structure Diagnostic where
  /-- The identity of the triples map it is about. -/
  triplesMap : String
  /-- The position of the record, if it is about one. -/
  record : Option Nat
  /-- What failed. -/
  error : Error
deriving DecidableEq

/-- The report of a run. -/
structure Report where
  /-- The counts of the selected triples maps in declaration order. -/
  triplesMaps : List Stats := []
  /-- The failures in the order they were met. -/
  diagnostics : List Diagnostic := []
deriving DecidableEq

namespace Report

/-- The counts of a triples map, the first ones if there are several. -/
def stats? (r : Report) (triplesMap : String) : Option Stats :=
  r.triplesMaps.find? fun s => s.triplesMap == triplesMap

/-- The triples maps that were given up. -/
def skipped (r : Report) : List String :=
  (r.triplesMaps.filter fun s => s.status == .skipped).map (·.triplesMap)

/-- The number of quads that were made, those of given-up triples maps counted. -/
def emittedQuads (r : Report) : Nat := r.triplesMaps.foldr (fun s n => s.quads + n) 0

/-- Whether nothing failed. -/
def isClean (r : Report) : Bool := r.diagnostics.isEmpty

end Report

end RdfMapping
