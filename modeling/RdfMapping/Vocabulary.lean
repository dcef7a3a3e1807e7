/-
The vocabulary terms that mapping rules give a meaning to.

A mapping may mention any IRI at all.  Only a few of them change what the engine
does: the type predicate of class shorthands, the two datatypes that literals are
normalised with, and the name that stands for the default graph.
-/

namespace RdfMapping

namespace Rdf

/-- The predicate that relates a resource to its classes. -/
def type : String := "http://www.w3.org/1999/02/22-rdf-syntax-ns#type"

/-- The datatype of every literal that carries a language tag. -/
def langString : String := "http://www.w3.org/1999/02/22-rdf-syntax-ns#langString"

end Rdf

namespace Xsd

/-- The datatype that a plain literal has without saying so. -/
def string : String := "http://www.w3.org/2001/XMLSchema#string"

/-- Whether a datatype is the one that plain literals have implicitly. -/
def isString (datatype : String) : Bool := datatype == string

end Xsd

namespace Rr

/-- The name that a graph map uses for the default graph. -/
def defaultGraph : String := "http://www.w3.org/ns/r2rml#defaultGraph"

end Rr

end RdfMapping
