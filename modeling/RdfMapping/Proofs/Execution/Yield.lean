/-
What a triples map comes to, said without a state.

The engine threads one state through everything it does: what was opened, which indexes
exist, what has been collected.  The definitions here speak about the same triples maps,
records and references to parents, but each is a plain function of the rules, the
generator and what the provider gives on a first opening.  In particular a reference to
a parent goes through all records of the parent every time, `joined`, and there is no
index anywhere.

A stretch of a run adds to the counts and quads of its triples map until it is over or
something ends it.  That is a `Yield`: a tally and possibly a failure.  Yields are put
one behind the other by `andThen`, and nothing comes behind a failure.
-/
import RdfMapping.Execution.Run

namespace RdfMapping

/-! ### Tallies -/

/-- What is counted and collected for a triples map. -/
structure Tally where
  records : Nat := 0
  skippedRecords : Nat := 0
  quads : List Quad := []

/-- Counts add up and quads follow one another. -/
instance : Append Tally where
  append t u := ⟨t.records + u.records, t.skippedRecords + u.skippedRecords, t.quads ++ u.quads⟩

/-- What has been counted and collected so far. -/
def Progress.tally (p : Progress) : Tally := ⟨p.records, p.skippedRecords, p.quads.toList⟩

/-- The counts of a triples map that ended in a certain way. -/
def Tally.stats (t : Tally) (triplesMap : String) (status : Status) : Stats :=
  ⟨triplesMap, t.records, t.skippedRecords, t.quads.length, status⟩

namespace Tally

theorem append_def (t u : Tally) :
    t ++ u = ⟨t.records + u.records, t.skippedRecords + u.skippedRecords, t.quads ++ u.quads⟩ :=
  rfl

@[simp] theorem append_empty (t : Tally) : t ++ ({} : Tally) = t := by simp [append_def]

@[simp] theorem empty_append (t : Tally) : ({} : Tally) ++ t = t := by simp [append_def]

theorem append_assoc (t u v : Tally) : t ++ u ++ v = t ++ (u ++ v) := by
  simp [append_def, Nat.add_assoc]

end Tally

theorem Progress.stats_eq (p : Progress) (triplesMap : String) (status : Status) :
    p.stats triplesMap status = p.tally.stats triplesMap status := by
  simp [Progress.stats, Tally.stats, Progress.tally]

/-! ### Yields -/

/-- What a stretch of a run adds, and the failure it ends in, if it does. -/
structure Yield where
  tally : Tally := {}
  failure : Option Failure := none

namespace Yield

/-- How the stretch ends, as the result of a step. -/
def outcome (y : Yield) : Except Failure Unit :=
  match y.failure with
  | none => .ok ()
  | some failure => .error failure

/-- The stretch followed by another one, which is not reached behind a failure. -/
def andThen (y z : Yield) : Yield :=
  match y.failure with
  | none => ⟨y.tally ++ z.tally, z.failure⟩
  | some failure => ⟨y.tally, some failure⟩

/-- Stretches one behind the other. -/
def all (ys : List Yield) : Yield := ys.foldr andThen {}

/-- The stretch that only adds quads. -/
def ofQuads (quads : List Quad) : Yield := { tally := { quads } }

/-- The stretch that only fails. -/
def ofError (error : Error) : Yield := { failure := some (.ofError error) }

@[simp] theorem andThen_empty (y : Yield) : y.andThen {} = y := by
  obtain ⟨tally, failure⟩ := y
  cases failure <;> simp [andThen]

/-- Going through the items of a source from a position on, up to a read error. -/
def scan (triplesMap : String) (visit : Nat → Record → Yield) (position : Nat) :
    List Item → Yield
  | [] => {}
  | .error fault :: _ => ofError (.source triplesMap (some position) fault)
  | .ok record :: items =>
    (visit position record).andThen (scan triplesMap visit (position + 1) items)

end Yield

/-! ### Joins by nested loops -/

/-- The terms of a result; a function error gives none. -/
def orNone : Except FunctionError (List Term) → List Term
  | .ok terms => terms
  | .error _ => []

/-- Whether a child record has a value for every condition. -/
def RefObjectMap.answerable (r : RefObjectMap) (child : Record) : Bool :=
  r.conditions.all fun c => !(child.get c.child).isEmpty

/-- Whether the ordered values of two records agree under every condition. -/
def RefObjectMap.agree (r : RefObjectMap) (child parent : Record) : Bool :=
  r.conditions.all fun c => parent.get c.parent == child.get c.child

/-- The records among the items of a source, or the first read error with its position. -/
def readItems (triplesMap : String) : Nat → List Item → Except Error (List Record)
  | _, [] => .ok []
  | position, .error fault :: _ => .error (.source triplesMap (some position) fault)
  | position, .ok record :: items => (record :: ·) <$> readItems triplesMap (position + 1) items

namespace Engine

variable (e : Engine)

/-- The subjects that a triples map at a position of the graph makes from a record. -/
def subjectsOf (position : Nat) (m : TriplesMap) (record : Record) :
    Except FunctionError (List Term) :=
  match m.subjectMap with
  | some subjectMap => e.generator.terms subjectMap.termMap record (blankScope position)
  | none => .ok []

/-- The records of a triples map, or why they cannot all be had. -/
def recordsOf (m : TriplesMap) : Except Error (List Record) :=
  match m.logicalSource with
  | none => .ok []
  | some source =>
    match e.provider.openAfter [] source with
    | .error fault => .error (.source m.iri none fault)
    | .ok items => readItems m.iri 0 items

/-- The objects of a reference to a parent for a child's record.  Without conditions and on the
same source they are the parent's subjects for that very record.  Otherwise there are none if
the record lacks a value, and else all subjects of the parent's records that agree with it. -/
def joined (r : RefObjectMap) (child : TriplesMap) (record : Record) :
    Except Error (Except FunctionError (List Term)) :=
  match e.graph.position? r.parent, e.graph.get? r.parent with
  | some position, some parent =>
    if r.conditions.isEmpty && parent.logicalSource == child.logicalSource then
      .ok (e.subjectsOf position parent record)
    else if r.answerable record then do
      let records ← e.recordsOf parent
      return .ok ((records.filter (r.agree record)).flatMap fun other =>
        orNone (e.subjectsOf position parent other))
    else .ok (.ok [])
  | _, _ => .ok (.ok [])

/-! ### Triples maps -/

/-- The terms of term maps at a record; a map whose function fails gives none. -/
def termsOf (site : Site) (ms : List TermMap) : List Term :=
  ms.flatMap fun m => orNone (e.generator.terms m site.record site.scope)

/-- The objects of an object map at a record. -/
def objectsOf (site : Site) : ObjectMap → Except Error (List Term)
  | .term m => .ok (orNone (e.generator.terms m site.record site.scope))
  | .parent r => orNone <$> e.joined r site.triplesMap site.record

/-- The objects of several object maps at a record, up to the first failing parent. -/
def allObjectsOf (site : Site) : List ObjectMap → Except Error (List Term)
  | [] => .ok []
  | m :: ms => do
    let objects ← e.objectsOf site m
    return objects ++ (← allObjectsOf site ms)

/-- What a predicate-object map comes to at a record. -/
def statementsYield (site : Site) (subjectMap : SubjectMap) (subjects : List Term)
    (m : PredicateObjectMap) : Yield :=
  let predicates := e.termsOf site m.predicateMaps
  if predicates.isEmpty then {} else
    match e.allObjectsOf site m.objectMaps with
    | .error error => .ofError error
    | .ok objects =>
      let graphs := addGraphs (addGraphs [] (e.termsOf site subjectMap.graphMaps))
        (e.termsOf site m.graphMaps)
      .ofQuads (statementQuads subjects predicates objects
        (targetGraphs (!subjectMap.graphMaps.isEmpty || !m.graphMaps.isEmpty) graphs))

/-- What the statements about the subjects of a record come to. -/
def describeYield (site : Site) (subjectMap : SubjectMap) (subjects : List Term) : Yield :=
  let graphs := addGraphs [] (e.termsOf site subjectMap.graphMaps)
  (Yield.ofQuads (classQuads subjects subjectMap.classes
    (targetGraphs (!subjectMap.graphMaps.isEmpty) graphs))).andThen
  (.all (site.triplesMap.predicateObjectMaps.map (e.statementsYield site subjectMap subjects)))

/-- What a record of a triples map comes to. -/
def recordYield (policy : SubjectErrorPolicy) (m : TriplesMap) (scope : String)
    (subjectMap : SubjectMap) (position : Nat) (record : Record) : Yield :=
  match e.generator.terms subjectMap.termMap record scope with
  | .error error =>
    match policy with
    | .skipRecord => { tally := { records := 1, skippedRecords := 1 } }
    | .abortTriplesMap =>
      { tally := { records := 1 }, failure := some ⟨some position, .function error⟩ }
  | .ok [] => { tally := { records := 1, skippedRecords := 1 } }
  | .ok subjects =>
    ({ tally := { records := 1 } } : Yield).andThen
      (e.describeYield ⟨m, scope, position, record⟩ subjectMap subjects)

/-- What the triples map at a position of the graph comes to. -/
def mapYield (policy : SubjectErrorPolicy) (position : Nat) (m : TriplesMap) : Yield :=
  match m.logicalSource, m.subjectMap with
  | some source, some subjectMap =>
    match e.provider.openAfter [] source with
    | .error fault => .ofError (.source m.iri none fault)
    | .ok items => .scan m.iri (e.recordYield policy m (blankScope position) subjectMap) 0 items
  | _, _ => {}

end Engine

/-- The quads and counts that a triples map leaves behind, or the failure that ends the run. -/
def Yield.part (c : Config) (triplesMap : String) (y : Yield) :
    Except Failure (List Quad × Stats) :=
  match y.failure with
  | none => .ok (y.tally.quads, y.tally.stats triplesMap .completed)
  | some failure =>
    if c.survives failure.error then .ok ([], y.tally.stats triplesMap .skipped)
    else .error failure

end RdfMapping
