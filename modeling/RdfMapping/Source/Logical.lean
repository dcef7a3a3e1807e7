/-
Logical sources: what a triples map reads.

A logical source names some data and says how references into it are written and how its
records are found.  To the engine all of this is opaque.  It only asks whether two logical
sources are the same, in which case their records are the same records.
-/

namespace RdfMapping

/-- The language that the references into a source are written in. -/
inductive ReferenceFormulation where
  /-- Column names of a table in comma-separated form. -/
  | csv
  /-- Paths into a JSON document. -/
  | jsonPath
  /-- Paths into an XML document. -/
  | xPath
  /-- Columns of a query result. -/
  | sql
  /-- Any other language, by name. -/
  | other (name : String)
deriving DecidableEq

/-- What a triples map reads. -/
structure LogicalSource where
  /-- The name of the data. -/
  source : String
  /-- How references into it are written. -/
  formulation : ReferenceFormulation
  /-- The expression that selects the records, if they are not evident. -/
  iterator : Option String := none
  /-- The query that computes the records, if they are not stored. -/
  query : Option String := none
deriving DecidableEq

end RdfMapping
