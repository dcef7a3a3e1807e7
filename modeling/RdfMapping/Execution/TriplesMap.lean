/-
Executing one triples map.

The records of the source are taken one after the other.  A record makes subjects; a
record without subject is skipped.  The graphs of the subject map apply to everything
said about the subjects, those of a predicate-object map to its own statements in
addition.  If graph maps are declared but give no graph, the statement has nowhere to go
and is not made; only without any graph map does it go to the default graph.

For every subject the class statements come first, then the statements of each
predicate-object map: every predicate with every object in every graph.
-/
import RdfMapping.Execution.Join

namespace RdfMapping

/-! ### Statements from terms -/

/-- A graph that a graph map gave: the name for the default graph stands for no name. -/
def graphOfTerm (t : Term) : Option Term :=
  if t == .iri Rr.defaultGraph then none else some t

/-- The graphs of some terms that are not among `graphs`, each once, in order of first mention. -/
def newGraphs (graphs : List (Option Term)) : List Term → List (Option Term)
  | [] => []
  | t :: ts =>
    let graph := graphOfTerm t
    if graphs.contains graph then newGraphs graphs ts
    else graph :: newGraphs (graph :: graphs) ts

/-- Graphs with those of further terms added, each graph once, in order of first mention. -/
def addGraphs (graphs : List (Option Term)) (terms : List Term) : List (Option Term) :=
  graphs ++ newGraphs graphs terms

/-- The graphs that statements go to: the default graph if no graph map applies, else just those
that the graph maps gave. -/
def targetGraphs (declared : Bool) (graphs : List (Option Term)) : List (Option Term) :=
  if declared then graphs else [none]

/-- Every subject with every class in every graph. -/
def classQuads (subjects : List Term) (classes : List String) (graphs : List (Option Term)) :
    List Quad :=
  subjects.flatMap fun s => classes.flatMap fun c => graphs.map fun g =>
    ⟨s, .iri Rdf.type, .iri c, g⟩

/-- Every subject with every predicate, every object and every graph. -/
def statementQuads (subjects predicates objects : List Term) (graphs : List (Option Term)) :
    List Quad :=
  subjects.flatMap fun s => predicates.flatMap fun p => objects.flatMap fun o =>
    graphs.map fun g => ⟨s, p, o, g⟩

namespace Engine

/-! ### The parts of a record's statements -/

/-- Where a run stands: a record of a triples map. -/
structure Site where
  /-- The triples map. -/
  triplesMap : TriplesMap
  /-- The scope of its blank nodes. -/
  scope : String
  /-- The position of the record. -/
  position : Nat
  /-- The record. -/
  record : Record

/-- The terms of a result; a function error is survived and gives none. -/
def survive (site : Site) : Except FunctionError (List Term) → Step (List Term)
  | .ok terms => return terms
  | .error error => do
    Step.absorb site.triplesMap.iri site.position error
    return []

/-- The terms of a term map at a record. -/
def termsAt (e : Engine) (site : Site) (m : TermMap) : Step (List Term) := do
  survive site (← e.evaluate m site.record site.scope)

/-- The terms of several term maps at a record, one after the other. -/
def allTermsAt (e : Engine) (site : Site) : List TermMap → Step (List Term)
  | [] => return []
  | m :: ms => do
    let terms ← e.termsAt site m
    return terms ++ (← e.allTermsAt site ms)

/-- The objects of an object map at a record. -/
def objectsAt (e : Engine) (site : Site) : ObjectMap → Step (List Term)
  | .term m => e.termsAt site m
  | .parent r => do survive site (← e.resolve r site.triplesMap site.record)

/-- The objects of several object maps at a record, one after the other. -/
def allObjectsAt (e : Engine) (site : Site) : List ObjectMap → Step (List Term)
  | [] => return []
  | m :: ms => do
    let terms ← e.objectsAt site m
    return terms ++ (← e.allObjectsAt site ms)

/-- Graphs with those of several graph maps at a record added. -/
def addGraphsAt (e : Engine) (site : Site) (graphs : List (Option Term)) (ms : List TermMap) :
    Step (List (Option Term)) := do
  return addGraphs graphs (← e.allTermsAt site ms)

/-- Makes the statements of a predicate-object map.  Without predicate the objects are not even
looked for, nor the graphs without object, nor is anything put together without graph. -/
def statementsAt (e : Engine) (site : Site) (subjectMap : SubjectMap) (subjects : List Term)
    (subjectGraphs : List (Option Term)) (m : PredicateObjectMap) : Step Unit := do
  let predicates ← e.allTermsAt site m.predicateMaps
  if predicates.isEmpty then return
  let objects ← e.allObjectsAt site m.objectMaps
  if objects.isEmpty then return
  let graphs ← e.addGraphsAt site subjectGraphs m.graphMaps
  let declared := !subjectMap.graphMaps.isEmpty || !m.graphMaps.isEmpty
  let targets := targetGraphs declared graphs
  if targets.isEmpty then return
  Step.emit (statementQuads subjects predicates objects targets)

/-- Makes all statements about the subjects of a record. -/
def describe (e : Engine) (site : Site) (subjectMap : SubjectMap) (subjects : List Term) :
    Step Unit := do
  let graphs ← e.addGraphsAt site [] subjectMap.graphMaps
  let declared := !subjectMap.graphMaps.isEmpty
  Step.emit (classQuads subjects subjectMap.classes (targetGraphs declared graphs))
  site.triplesMap.predicateObjectMaps.forM (e.statementsAt site subjectMap subjects graphs)

/-! ### Records and triples maps -/

/-- Executes a triples map at a record. -/
def visitRecord (e : Engine) (policy : SubjectErrorPolicy) (m : TriplesMap) (scope : String)
    (subjectMap : SubjectMap) (position : Nat) (record : Record) : Step Unit := do
  Step.countRecord
  match ← e.evaluate subjectMap.termMap record scope with
  | .error error =>
    match policy with
    | .skipRecord =>
      Step.absorb m.iri position error
      Step.countSkipped
    | .abortTriplesMap => throw ⟨some position, .function error⟩
  | .ok [] =>
    Step.log (.noSubject m.iri position)
    Step.countSkipped
  | .ok subjects => e.describe ⟨m, scope, position, record⟩ subjectMap subjects

/-- Executes the triples map at a position of the graph. -/
def runTriplesMap (e : Engine) (policy : SubjectErrorPolicy) (position : Nat) (m : TriplesMap) :
    Step Unit := Step.inSpan (.triplesMap m.iri) do
  let source ← sourceOf m
  let subjectMap ← subjectMapOf m
  let items ← Step.openSource e.provider m.iri source
  e.scan m.iri (fun _ => e.visitRecord policy m (blankScope position) subjectMap) 0 () items
  Step.log (.completed ((← get).progress.stats m.iri .completed))

end Engine

end RdfMapping
