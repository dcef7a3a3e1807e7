/-
Triples maps: rules that make quads from the records of a source.

A triples map names what to read, how to make the subjects of a record, and which
statements to make about them.  An object is either made from the record itself or taken
from another triples map, the parent: it is then one of the subjects the parent makes
from records whose parent references have the values that the child references have here.
-/
import RdfMapping.Rules.TermMap
import RdfMapping.Source.Logical

namespace RdfMapping

/-! ### References to parents -/

/-- A condition on a pair of records: the child's reference and the parent's have the same
values. -/
structure JoinCondition where
  /-- The reference into the child's record. -/
  child : String
  /-- The reference into the parent's record. -/
  parent : String
deriving DecidableEq

/-- An object taken from the subjects of a parent triples map. -/
structure RefObjectMap where
  /-- The identity of the parent. -/
  parent : String
  /-- What must agree between the records, in order. -/
  conditions : List JoinCondition
deriving DecidableEq

namespace RefObjectMap

/-- A reference to a parent with a single condition. -/
def single (parent childReference parentReference : String) : RefObjectMap :=
  ⟨parent, [⟨childReference, parentReference⟩]⟩

/-- A reference to a parent without conditions. -/
def unconditional (parent : String) : RefObjectMap := ⟨parent, []⟩

/-- The references into the child's record, condition by condition. -/
def childReferences (r : RefObjectMap) : List String := r.conditions.map (·.child)

/-- The references into the parent's record, condition by condition. -/
def parentReferences (r : RefObjectMap) : List String := r.conditions.map (·.parent)

/-- Whether anything must agree between the records. -/
def hasConditions (r : RefObjectMap) : Bool := !r.conditions.isEmpty

end RefObjectMap

/-! ### Objects and statements -/

/-- A rule for the objects of statements. -/
inductive ObjectMap where
  /-- Terms made from the record. -/
  | term (map : TermMap)
  /-- Subjects of a parent triples map. -/
  | parent (map : RefObjectMap)

namespace ObjectMap

/-- Plain literals with the values of a reference. -/
def reference (name : String) : ObjectMap := .term (TermMap.reference name).asLiteral

/-- Literals of a datatype with the values of a reference. -/
def typedReference (name datatype : String) : ObjectMap :=
  .term ((TermMap.reference name).withDatatype datatype)

/-- IRIs with the values of a reference. -/
def iriReference (name : String) : ObjectMap := .term (TermMap.reference name)

/-- A constant IRI. -/
def constantIri (iri : String) : ObjectMap := .term (TermMap.constant iri)

/-- A constant plain literal. -/
def constantLiteral (value : String) : ObjectMap := .term (TermMap.constant value).asLiteral

/-- IRIs that a template yields. -/
def template (source : String) : Except TemplateError ObjectMap :=
  (TermMap.template source).map .term

/-- Literals that a function returns. -/
def function (call : FunctionCall) : ObjectMap := .term (TermMap.function call).asLiteral

/-- The reference to a parent, of an object map that is one. -/
def parent? : ObjectMap → Option RefObjectMap
  | .parent map => some map
  | .term _ => none

end ObjectMap

/-- A rule for statements: every predicate with every object, in every graph. -/
structure PredicateObjectMap where
  /-- The rules for the predicates. -/
  predicateMaps : List TermMap := []
  /-- The rules for the objects. -/
  objectMaps : List ObjectMap := []
  /-- The rules for the graphs of these statements alone. -/
  graphMaps : List TermMap := []

namespace PredicateObjectMap

/-- The rule with one predicate map and one object map. -/
def single (predicateMap : TermMap) (objectMap : ObjectMap) : PredicateObjectMap :=
  { predicateMaps := [predicateMap], objectMaps := [objectMap] }

/-- The rule with a constant predicate and one object map. -/
def constant (predicate : String) (objectMap : ObjectMap) : PredicateObjectMap :=
  single (TermMap.constant predicate) objectMap

/-- The rule with one more predicate map. -/
def withPredicateMap (m : PredicateObjectMap) (map : TermMap) : PredicateObjectMap :=
  { m with predicateMaps := m.predicateMaps ++ [map] }

/-- The rule with one more object map. -/
def withObjectMap (m : PredicateObjectMap) (map : ObjectMap) : PredicateObjectMap :=
  { m with objectMaps := m.objectMaps ++ [map] }

/-- The rule with one more graph map. -/
def withGraphMap (m : PredicateObjectMap) (map : TermMap) : PredicateObjectMap :=
  { m with graphMaps := m.graphMaps ++ [map] }

/-- The references to parents among the object maps. -/
def parents (m : PredicateObjectMap) : List RefObjectMap := m.objectMaps.filterMap (·.parent?)

end PredicateObjectMap

/-! ### Subjects and triples maps -/

/-- A rule for subjects. -/
structure SubjectMap where
  /-- The rule that makes the subjects. -/
  termMap : TermMap
  /-- The classes that every subject belongs to. -/
  classes : List String := []
  /-- The rules for the graphs of all statements about the subjects. -/
  graphMaps : List TermMap := []

namespace SubjectMap

/-- Subjects that a template yields. -/
def template (source : String) : Except TemplateError SubjectMap :=
  (TermMap.template source).map fun m => { termMap := m }

/-- Subjects with the values of a reference. -/
def reference (name : String) : SubjectMap := { termMap := TermMap.reference name }

/-- A constant subject. -/
def constant (iri : String) : SubjectMap := { termMap := TermMap.constant iri }

/-- The rule with one more class. -/
def withClass (m : SubjectMap) (iri : String) : SubjectMap :=
  { m with classes := m.classes ++ [iri] }

/-- The rule with one more graph map. -/
def withGraphMap (m : SubjectMap) (map : TermMap) : SubjectMap :=
  { m with graphMaps := m.graphMaps ++ [map] }

/-- The same rule for blank nodes. -/
def asBlankNode (m : SubjectMap) : SubjectMap := { m with termMap := m.termMap.asBlankNode }

end SubjectMap

/-- A rule that makes quads from the records of a source. -/
structure TriplesMap where
  /-- The identity of the rule. -/
  iri : String
  /-- What it reads. -/
  logicalSource : Option LogicalSource := none
  /-- How it makes subjects. -/
  subjectMap : Option SubjectMap := none
  /-- The statements it makes about them. -/
  predicateObjectMaps : List PredicateObjectMap := []

namespace TriplesMap

/-- A triples map that reads a source and makes nothing yet. -/
def ofSource (iri : String) (source : LogicalSource) : TriplesMap :=
  { iri, logicalSource := some source }

/-- The triples map with the given subject map. -/
def withSubjectMap (m : TriplesMap) (map : SubjectMap) : TriplesMap :=
  { m with subjectMap := some map }

/-- The triples map with one more predicate-object map. -/
def withPredicateObjectMap (m : TriplesMap) (map : PredicateObjectMap) : TriplesMap :=
  { m with predicateObjectMaps := m.predicateObjectMaps ++ [map] }

/-- The references to parents of all predicate-object maps. -/
def parents (m : TriplesMap) : List RefObjectMap := m.predicateObjectMaps.flatMap (·.parents)

end TriplesMap

end RdfMapping
