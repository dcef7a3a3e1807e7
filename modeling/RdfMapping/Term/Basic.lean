/-
The terms that RDF statements are made of.

A term is an IRI, a blank node with a label, or a literal with an optional datatype and
an optional language tag.  Literals are made through `Term.normalLiteral`, which leaves
one form for each literal: a language tag fixes the datatype, and the implicit string
datatype is not written down.
-/
import RdfMapping.Vocabulary

namespace RdfMapping

/-- An RDF term. -/
inductive Term where
  /-- A resource named by an IRI. -/
  | iri (value : String)
  /-- A resource known by a label only. -/
  | blank (label : String)
  /-- A value with an optional datatype IRI and an optional language tag. -/
  | literal (value : String) (datatype language : Option String)
deriving DecidableEq

namespace Term

/-- The normal form of a literal: with a language tag the datatype is `rdf:langString` whatever
was asked for, and without one the datatype `xsd:string` is left out. -/
def normalLiteral (value : String) (datatype language : Option String) : Term :=
  match language with
  | some tag => .literal value (some Rdf.langString) (some tag)
  | none => .literal value (datatype.filter fun dt => !Xsd.isString dt) none

/-- A plain literal. -/
def string (value : String) : Term := normalLiteral value none none

/-- A literal with a datatype. -/
def typed (value datatype : String) : Term := normalLiteral value (some datatype) none

/-- A literal with a language tag. -/
def langString (value language : String) : Term := normalLiteral value none (some language)

/-- Whether the term is an IRI. -/
def isIri : Term → Bool
  | .iri _ => true
  | _ => false

/-- Whether the term is a blank node. -/
def isBlank : Term → Bool
  | .blank _ => true
  | _ => false

/-- Whether the term is a literal. -/
def isLiteral : Term → Bool
  | .literal .. => true
  | _ => false

/-- The IRI of a term that is one. -/
def asIri? : Term → Option String
  | .iri value => some value
  | _ => none

/-- The characters of a term without its kind, datatype or language: the IRI, the label or the
literal's value. -/
def lexical : Term → String
  | .iri value => value
  | .blank label => label
  | .literal value _ _ => value

end Term

end RdfMapping
