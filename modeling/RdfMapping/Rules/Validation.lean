/-
Which rule graphs can be executed.

Every triples map must have an identity of its own, something to read and a rule for
subjects; subjects must not be literals, predicates and graphs must be IRIs, every
predicate-object map needs a predicate, and every parent must be in the graph.

Validation walks the declarations in order, and within a triples map from its subject to
its last object, and stops at the first fault.
-/
import RdfMapping.Rules.Graph

namespace RdfMapping

namespace RuleGraph

/-- Requires every map of a list to make IRIs. -/
def checkIris (place : IriPlace) (maps : List TermMap) : Except GraphFault Unit :=
  if maps.any fun m => m.termType != .iri then .error (.notIri place) else .ok ()

/-- Requires the parent of an object map, if it has one, to be in the graph. -/
def checkObjectMap (g : RuleGraph) : ObjectMap → Except GraphFault Unit
  | .term _ => .ok ()
  | .parent r => if (g.get? r.parent).isSome then .ok () else .error (.unknownParent r.parent)

/-- Checks one predicate-object map. -/
def checkPredicateObjectMap (g : RuleGraph) (m : PredicateObjectMap) :
    Except GraphFault Unit := do
  if m.predicateMaps.isEmpty then throw .missingPredicateMap
  checkIris .predicate m.predicateMaps
  checkIris .graph m.graphMaps
  m.objectMaps.forM g.checkObjectMap

/-- Checks one subject map. -/
def checkSubjectMap (m : SubjectMap) : Except GraphFault Unit := do
  if m.termMap.termType = .literal then throw .literalSubject
  checkIris .graph m.graphMaps

/-- Checks the triples map at a position. -/
def checkTriplesMap (g : RuleGraph) (position : Nat) (m : TriplesMap) :
    Except GraphFault Unit := do
  if g.position? m.iri ≠ some position then throw .duplicateIdentity
  if m.logicalSource.isNone then throw .missingLogicalSource
  match m.subjectMap with
  | none => throw .missingSubjectMap
  | some subjectMap => checkSubjectMap subjectMap
  m.predicateObjectMaps.forM g.checkPredicateObjectMap

/-- Checks every triples map in declaration order. -/
def validate (g : RuleGraph) : Except GraphError Unit :=
  g.triplesMaps.zipIdx.forM fun (m, position) =>
    (g.checkTriplesMap position m).mapError fun fault => ⟨m.iri, fault⟩

end RuleGraph

end RdfMapping
