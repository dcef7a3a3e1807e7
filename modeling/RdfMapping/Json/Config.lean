/-
Configurations as JSON.

Unlike rules, a configuration may leave out any field and then has the default there.  A
base that is not configured is not written.  A configuration text is accepted only if the
base it names, if any, is an absolute IRI.
-/
import RdfMapping.Json.Reader
import RdfMapping.Json.Text
import RdfMapping.Config

namespace RdfMapping

namespace SubjectErrorPolicy

/-- The written names. -/
def names : List (String × SubjectErrorPolicy) :=
  [("skipRecord", .skipRecord), ("abortTriplesMap", .abortTriplesMap)]

/-- The written name of a policy. -/
def name : SubjectErrorPolicy → String
  | .skipRecord => "skipRecord"
  | .abortTriplesMap => "abortTriplesMap"

end SubjectErrorPolicy

namespace SourceErrorPolicy

/-- The written names. -/
def names : List (String × SourceErrorPolicy) :=
  [("fail", .fail), ("skipTriplesMap", .skipTriplesMap)]

/-- The written name of a policy. -/
def name : SourceErrorPolicy → String
  | .fail => "fail"
  | .skipTriplesMap => "skipTriplesMap"

end SourceErrorPolicy

namespace Config

/-- The fields of a configuration. -/
def fields : List String :=
  ["baseIri", "subjectFunctionErrors", "sourceErrors", "removeDuplicates"]

/-- Writes a configuration. -/
def toJson (c : Config) : Json :=
  .object ((c.baseIri.elim [] fun iri => [("baseIri", .string iri)]) ++
    [("subjectFunctionErrors", .string c.subjectFunctionErrors.name),
     ("sourceErrors", .string c.sourceErrors.name),
     ("removeDuplicates", .bool c.removeDuplicates)])

/-- Reads a field, which has a default if it is missing. -/
def readField {α : Type} (j : Json) (name : String) (default : α)
    (read : Json → Except DecodeError α) : Except DecodeError α :=
  match j.field? fields name with
  | some v => read v.1
  | none => .ok default

/-- Reads a configuration. -/
def ofJson (room : Nat) (j : Json) : Except DecodeError Config := do
  let room ← j.enterDefaulted fields room
  return {
    baseIri := ← readField j "baseIri" none (·.asString?)
    subjectFunctionErrors := ← readField j "subjectFunctionErrors" .skipRecord
      (·.asName SubjectErrorPolicy.names room)
    sourceErrors := ← readField j "sourceErrors" .fail (·.asName SourceErrorPolicy.names room)
    removeDuplicates := ← readField j "removeDuplicates" true (·.asBool) }

/-- Reads a configuration text. -/
def parse (text : String) : Except ConfigError Config :=
  match (Json.parse? text).map (ofJson Json.maxLevels) with
  | some (.ok c) => do
    c.validate
    return c
  | _ => .error .malformed

end Config

end RdfMapping
