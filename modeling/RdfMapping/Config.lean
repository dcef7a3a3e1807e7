/-
How a run is configured.

The configuration names the base IRI that relative IRIs are resolved against and says
what failures do: whether a failing subject costs one record or the whole triples map,
whether an unreadable source ends the run or costs the triples map, and whether the
result is a set or a bag.
-/
import RdfMapping.Iri.Resolve

namespace RdfMapping

/-- What a failing subject function costs. -/
inductive SubjectErrorPolicy where
  /-- The record. -/
  | skipRecord
  /-- The triples map. -/
  | abortTriplesMap
deriving DecidableEq

/-- What an unreadable source costs. -/
inductive SourceErrorPolicy where
  /-- The run. -/
  | fail
  /-- The triples map. -/
  | skipTriplesMap
deriving DecidableEq

/-- Why a configuration cannot be used. -/
inductive ConfigError where
  /-- The base is not an absolute IRI. -/
  | invalidBase (iri : String) (cause : IriError)
  /-- The text is not a configuration document. -/
  | malformed
  /-- The configuration was refused by another check, in that check's words. -/
  | refused (reason : String)
deriving DecidableEq

/-- The wording of the error. -/
def ConfigError.message : ConfigError → String
  | invalidBase iri cause => "invalid base IRI '" ++ iri ++ "': " ++ cause.message
  | malformed => "not a configuration document"
  | refused reason => reason

/-- The configuration of a run. -/
structure Config where
  /-- What relative IRIs are resolved against. -/
  baseIri : Option String := none
  /-- What a failing subject function costs. -/
  subjectFunctionErrors : SubjectErrorPolicy := .skipRecord
  /-- What an unreadable source costs. -/
  sourceErrors : SourceErrorPolicy := .fail
  /-- Whether quads with equal canonical text are kept once. -/
  removeDuplicates : Bool := true
deriving DecidableEq

namespace Config

/-- Reads a base IRI. -/
def parseBase (iri : String) : Except ConfigError Iri :=
  (Iri.parse iri).mapError fun cause => .invalidBase iri cause

/-- The base IRI in parts, if one is configured. -/
def base (c : Config) : Except ConfigError (Option Iri) :=
  match c.baseIri with
  | none => .ok none
  | some iri => (parseBase iri).map some

/-- Requires the base, if there is one, to be an absolute IRI. -/
def validate (c : Config) : Except ConfigError Unit := do
  let _ ← c.base

end Config

end RdfMapping
