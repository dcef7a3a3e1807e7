/-
Term maps: rules that make terms from records.

A term map says where its values come from and what kind of term they become.  Values
come from a constant, a reference, a template, or a call of a registered function whose
parameters are term maps again; these four types are therefore defined together.
-/
import RdfMapping.Template.Basic

namespace RdfMapping

/-- The kind of term that a term map makes. -/
inductive TermType where
  /-- IRIs. -/
  | iri
  /-- Blank nodes. -/
  | blankNode
  /-- Literals. -/
  | literal
deriving DecidableEq

mutual

/-- A rule that makes terms from a record. -/
structure TermMap where
  /-- Where the values come from. -/
  source : ValueSource
  /-- What they become. -/
  termType : TermType
  /-- The datatype of the literals made. -/
  datatype : Option String
  /-- The language tag of the literals made. -/
  language : Option String

/-- Where the values of a term map come from. -/
inductive ValueSource where
  /-- The same value for every record. -/
  | constant (value : String)
  /-- The values that the record has for a reference. -/
  | reference (name : String)
  /-- The strings that a template yields for the record. -/
  | template (template : Template)
  /-- The values that a function returns. -/
  | function (call : FunctionCall)

/-- A function with the term maps of its parameters. -/
structure FunctionCall where
  /-- The identifier the function is registered under. -/
  function : String
  /-- The parameters in order; names may repeat. -/
  parameters : List Parameter

/-- A parameter of a function call. -/
structure Parameter where
  /-- The name its values are bound to. -/
  name : String
  /-- The term map that makes the values. -/
  value : TermMap
  /-- Whether the call is withheld when there is no value. -/
  required : Bool

end

namespace TermMap

/-- A term map of IRIs with the given source. -/
def ofSource (source : ValueSource) : TermMap := ⟨source, .iri, none, none⟩

/-- The term map of a constant IRI. -/
def constant (value : String) : TermMap := ofSource (.constant value)

/-- The term map of the IRIs that a reference has. -/
def reference (name : String) : TermMap := ofSource (.reference name)

/-- The term map of the IRIs that a template yields. -/
def template (source : String) : Except TemplateError TermMap :=
  (Template.parse source).map fun t => ofSource (.template t)

/-- The term map of the IRIs that a function returns. -/
def function (call : FunctionCall) : TermMap := ofSource (.function call)

/-- The same rule with another kind of term. -/
def withTermType (m : TermMap) (termType : TermType) : TermMap := { m with termType }

/-- The same rule for literals. -/
def asLiteral (m : TermMap) : TermMap := m.withTermType .literal

/-- The same rule for blank nodes. -/
def asBlankNode (m : TermMap) : TermMap := m.withTermType .blankNode

/-- The same rule for literals of a datatype. -/
def withDatatype (m : TermMap) (datatype : String) : TermMap :=
  { m with termType := .literal, datatype := some datatype }

/-- The same rule for literals in a language. -/
def withLanguage (m : TermMap) (language : String) : TermMap :=
  { m with termType := .literal, language := some language }

end TermMap

namespace FunctionCall

/-- A call without parameters. -/
def ofFunction (function : String) : FunctionCall := ⟨function, []⟩

/-- The call with one more parameter that must have a value. -/
def withParameter (c : FunctionCall) (name : String) (value : TermMap) : FunctionCall :=
  { c with parameters := c.parameters ++ [⟨name, value, true⟩] }

/-- The call with one more parameter that may be without value. -/
def withOptionalParameter (c : FunctionCall) (name : String) (value : TermMap) : FunctionCall :=
  { c with parameters := c.parameters ++ [⟨name, value, false⟩] }

end FunctionCall

end RdfMapping
