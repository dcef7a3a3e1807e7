/-
Rules as JSON.

Every part of a rule graph has a JSON form, in which rule graphs are stored and
exchanged.  Writing gives all fields, with null for what is absent.  Reading passes over
members it does not know, takes a missing field that may be null as null, and refuses
everything else that is not as written.  A template is written as its string and read by
parsing it.

Writing goes to any depth.  Reading does not: term maps are nested in each other through
the functions they call, and rules that are nested too deeply are refused.

Writing follows the structure of the rules; reading follows the structure of the JSON
value, each step going into something smaller.
-/
import RdfMapping.Json.Reader
import RdfMapping.Json.Text
import RdfMapping.Json.Writer
import RdfMapping.Rules.Graph

namespace RdfMapping

/-! ### Term maps -/

namespace TermType

/-- The written names. -/
def names : List (String × TermType) :=
  [("Iri", .iri), ("BlankNode", .blankNode), ("Literal", .literal)]

/-- Writes a term type. -/
def toJson : TermType → Json
  | .iri => .string "Iri"
  | .blankNode => .string "BlankNode"
  | .literal => .string "Literal"

/-- Reads a term type. -/
def ofJson : (room : Nat) → Json → Except DecodeError TermType := Json.asName names

end TermType

mutual

/-- Writes a term map. -/
def TermMap.toJson : TermMap → Json
  | ⟨source, termType, datatype, language⟩ =>
    .object [("value", source.toJson), ("term_type", termType.toJson),
      ("datatype", .ofOption datatype), ("language", .ofOption language)]

/-- Writes the source of a term map's values. -/
def ValueSource.toJson : ValueSource → Json
  | .constant value => .object [("Constant", .string value)]
  | .reference name => .object [("Reference", .string name)]
  | .template t => .object [("Template", .string t.source)]
  | .function call => .object [("Function", call.toJson)]

/-- Writes a function call. -/
def FunctionCall.toJson : FunctionCall → Json
  | ⟨function, parameters⟩ =>
    .object [("function", .string function), ("parameters", .array (parametersToJson parameters))]

/-- Writes parameters. -/
def parametersToJson : List Parameter → List Json
  | [] => []
  | p :: rest => p.toJson :: parametersToJson rest

/-- Writes a parameter. -/
def Parameter.toJson : Parameter → Json
  | ⟨name, value, required⟩ =>
    .object [("name", .string name), ("value", value.toJson), ("required", .bool required)]

end

/-- The fields of a term map. -/
def TermMap.fields : List String := ["value", "term_type", "datatype", "language"]

/-- The fields of a function call. -/
def FunctionCall.fields : List String := ["function", "parameters"]

/-- The fields of a parameter. -/
def Parameter.fields : List String := ["name", "value", "required"]

/-- Reads a template from its string. -/
def Template.ofJson (j : Json) : Except DecodeError Template := do
  (Template.parse (← j.asString)).mapError .template

mutual

/-- Reads a term map. -/
def TermMap.ofJson (room : Nat) (j : Json) : Except DecodeError TermMap := do
  let room ← j.enterRecord TermMap.fields room
  let ⟨source, _⟩ ← j.field TermMap.fields "value"
  let termType ← j.field TermMap.fields "term_type"
  return ⟨← ValueSource.ofJson room source, ← TermType.ofJson room termType.1,
    ← j.optionalString TermMap.fields "datatype", ← j.optionalString TermMap.fields "language"⟩
termination_by sizeOf j

/-- Reads the source of a term map's values. -/
def ValueSource.ofJson (room : Nat) (j : Json) : Except DecodeError ValueSource := do
  let (room, name, ⟨content, _⟩) ← j.asChoice room
  match name with
  | "Constant" => return .constant (← content.asString)
  | "Reference" => return .reference (← content.asString)
  | "Template" => return .template (← Template.ofJson content)
  | "Function" => return .function (← FunctionCall.ofJson room content)
  | _ => throw .form
termination_by sizeOf j

/-- Reads a function call. -/
def FunctionCall.ofJson (room : Nat) (j : Json) : Except DecodeError FunctionCall := do
  let room ← j.enterRecord FunctionCall.fields room
  let function ← j.field FunctionCall.fields "function"
  let ⟨parameters, _⟩ ← j.field FunctionCall.fields "parameters"
  let function ← function.1.asString
  let (room, parameters) ← parameters.asItems room
  return ⟨function, ← parameters.mapM fun ⟨p, _⟩ => Parameter.ofJson room p⟩
termination_by sizeOf j

/-- Reads a parameter. -/
def Parameter.ofJson (room : Nat) (j : Json) : Except DecodeError Parameter := do
  let room ← j.enterRecord Parameter.fields room
  let name ← j.field Parameter.fields "name"
  let ⟨value, _⟩ ← j.field Parameter.fields "value"
  let required ← j.field Parameter.fields "required"
  return ⟨← name.1.asString, ← TermMap.ofJson room value, ← required.1.asBool⟩
termination_by sizeOf j

end

/-! ### Logical sources -/

namespace ReferenceFormulation

/-- The written names of the formulations known by name. -/
def names : List (String × ReferenceFormulation) :=
  [("Csv", .csv), ("JsonPath", .jsonPath), ("XPath", .xPath), ("Sql", .sql)]

/-- Writes a reference formulation. -/
def toJson : ReferenceFormulation → Json
  | .csv => .string "Csv"
  | .jsonPath => .string "JsonPath"
  | .xPath => .string "XPath"
  | .sql => .string "Sql"
  | .other name => .object [("Other", .string name)]

/-- Reads a reference formulation. -/
def ofJson (room : Nat) : Json → Except DecodeError ReferenceFormulation
  | .object [("Other", content)] => do
    let _ ← Json.enter room
    return .other (← content.asString)
  | j => j.asName names room

end ReferenceFormulation

namespace LogicalSource

/-- The fields of a logical source. -/
def fields : List String := ["source", "reference_formulation", "iterator", "query"]

/-- Writes a logical source. -/
def toJson (s : LogicalSource) : Json :=
  .object [("source", .string s.source), ("reference_formulation", s.formulation.toJson),
    ("iterator", .ofOption s.iterator), ("query", .ofOption s.query)]

/-- Reads a logical source. -/
def ofJson (room : Nat) (j : Json) : Except DecodeError LogicalSource := do
  let room ← j.enterRecord fields room
  return {
    source := ← (← j.field fields "source").1.asString
    formulation := ← ReferenceFormulation.ofJson room (← j.field fields "reference_formulation").1
    iterator := ← j.optionalString fields "iterator"
    query := ← j.optionalString fields "query" }

end LogicalSource

/-! ### References to parents -/

namespace JoinCondition

/-- The fields of a join condition. -/
def fields : List String := ["child", "parent"]

/-- Writes a join condition. -/
def toJson (c : JoinCondition) : Json :=
  .object [("child", .string c.child), ("parent", .string c.parent)]

/-- Reads a join condition. -/
def ofJson (room : Nat) (j : Json) : Except DecodeError JoinCondition := do
  let _ ← j.enterRecord fields room
  return {
    child := ← (← j.field fields "child").1.asString
    parent := ← (← j.field fields "parent").1.asString }

end JoinCondition

namespace RefObjectMap

/-- The fields of a reference to a parent. -/
def fields : List String := ["parent_triples_map", "join_conditions"]

/-- Writes a reference to a parent. -/
def toJson (r : RefObjectMap) : Json :=
  .object [("parent_triples_map", .string r.parent),
    ("join_conditions", .array (r.conditions.map (·.toJson)))]

/-- Reads a reference to a parent. -/
def ofJson (room : Nat) (j : Json) : Except DecodeError RefObjectMap := do
  let room ← j.enterRecord fields room
  return {
    parent := ← (← j.field fields "parent_triples_map").1.asString
    conditions := ← (← j.field fields "join_conditions").1.asList JoinCondition.ofJson room }

end RefObjectMap

/-! ### Objects, subjects and triples maps -/

namespace ObjectMap

/-- Writes an object map. -/
def toJson : ObjectMap → Json
  | .term m => .object [("Term", m.toJson)]
  | .parent r => .object [("RefObjectMap", r.toJson)]

/-- Reads an object map. -/
def ofJson (room : Nat) (j : Json) : Except DecodeError ObjectMap := do
  let (room, name, content) ← j.asChoice room
  match name with
  | "Term" => return .term (← TermMap.ofJson room content.1)
  | "RefObjectMap" => return .parent (← RefObjectMap.ofJson room content.1)
  | _ => throw .form

end ObjectMap

namespace PredicateObjectMap

/-- The fields of a predicate-object map. -/
def fields : List String := ["predicate_maps", "object_maps", "graph_maps"]

/-- Writes a predicate-object map. -/
def toJson (m : PredicateObjectMap) : Json :=
  .object [("predicate_maps", .array (m.predicateMaps.map (·.toJson))),
    ("object_maps", .array (m.objectMaps.map (·.toJson))),
    ("graph_maps", .array (m.graphMaps.map (·.toJson)))]

/-- Reads a predicate-object map. -/
def ofJson (room : Nat) (j : Json) : Except DecodeError PredicateObjectMap := do
  let room ← j.enterRecord fields room
  return {
    predicateMaps := ← (← j.field fields "predicate_maps").1.asList TermMap.ofJson room
    objectMaps := ← (← j.field fields "object_maps").1.asList ObjectMap.ofJson room
    graphMaps := ← (← j.field fields "graph_maps").1.asList TermMap.ofJson room }

end PredicateObjectMap

namespace SubjectMap

/-- The fields of a subject map. -/
def fields : List String := ["term_map", "classes", "graph_maps"]

/-- Writes a subject map. -/
def toJson (m : SubjectMap) : Json :=
  .object [("term_map", m.termMap.toJson), ("classes", .array (m.classes.map .string)),
    ("graph_maps", .array (m.graphMaps.map (·.toJson)))]

/-- Reads a subject map. -/
def ofJson (room : Nat) (j : Json) : Except DecodeError SubjectMap := do
  let room ← j.enterRecord fields room
  return {
    termMap := ← TermMap.ofJson room (← j.field fields "term_map").1
    classes := ← (← j.field fields "classes").1.asStrings room
    graphMaps := ← (← j.field fields "graph_maps").1.asList TermMap.ofJson room }

end SubjectMap

namespace TriplesMap

/-- The fields of a triples map. -/
def fields : List String := ["iri", "logical_source", "subject_map", "predicate_object_maps"]

/-- Writes a triples map. -/
def toJson (m : TriplesMap) : Json :=
  .object [("iri", .string m.iri),
    ("logical_source", m.logicalSource.elim .null (·.toJson)),
    ("subject_map", m.subjectMap.elim .null (·.toJson)),
    ("predicate_object_maps", .array (m.predicateObjectMaps.map (·.toJson)))]

/-- Reads a triples map. -/
def ofJson (room : Nat) (j : Json) : Except DecodeError TriplesMap := do
  let room ← j.enterRecord fields room
  return {
    iri := ← (← j.field fields "iri").1.asString
    logicalSource := ← (← j.optionalField fields "logical_source").mapM
      fun v => LogicalSource.ofJson room v.1
    subjectMap := ← (← j.optionalField fields "subject_map").mapM
      fun v => SubjectMap.ofJson room v.1
    predicateObjectMaps :=
      ← (← j.field fields "predicate_object_maps").1.asList PredicateObjectMap.ofJson room }

end TriplesMap

namespace RuleGraph

/-- Writes a rule graph as the list of its triples maps. -/
def toJson (g : RuleGraph) : Json := .array (g.triplesMaps.map (·.toJson))

/-- Reads a rule graph. -/
def ofJson (room : Nat) (j : Json) : Except DecodeError RuleGraph := do
  return ⟨← j.asList TriplesMap.ofJson room⟩

/-- Writes a rule graph as a text. -/
def write (g : RuleGraph) : String := g.toJson.write

/-- Reads the text of a rule graph. -/
def parse (text : String) : Except DecodeError RuleGraph :=
  match Json.parse? text with
  | some j => ofJson Json.maxLevels j
  | none => .error .form

end RuleGraph

end RdfMapping
