/-
Resolving references to parents.

A reference to a parent without conditions, where child and parent read the same logical
source, means the parent's subject for the very same record, and is answered by making
it.  Every other reference is answered from an index of the parent, built by one scan
when it is first needed.

An index covers every layout that the rule graph can ask of its parent, so references
within the graph never cause a second scan.  A scan that fails leaves no index behind; the
failures of single parent records met on the way are kept all the same.
-/
import RdfMapping.Execution.State

namespace RdfMapping

/-- What the steps of a run depend on. -/
structure Engine where
  /-- The rules. -/
  graph : RuleGraph
  /-- Where records come from. -/
  provider : Provider
  /-- How terms are made. -/
  generator : Generator
  /-- Whether the cancellation signal is heeded. -/
  cancellable : Bool := true

namespace Engine

/-- Makes the terms of a term map and logs what is noted about it. -/
def evaluate (e : Engine) (m : TermMap) (record : Record) (scope : String) :
    Step (Except FunctionError (List Term)) := do
  let (result, notes) := e.generator.evaluate m record scope
  notes.toList.forM fun note => Step.log (.generation note)
  return result

/-- Ends the run if cancellation was asked for. -/
def checkCancelled (e : Engine) : Step Unit := do
  if e.cancellable && (← get).session.cancelled then Step.failWith .cancelled

/-- Goes through the items of a source from a position on, carrying a result along.  The signal is
looked at after every item that is handed out, before the item itself is. -/
def scan {α : Type} (e : Engine) (triplesMap : String) (visit : α → Nat → Record → Step α)
    (position : Nat) (result : α) : List Item → Step α
  | [] => return result
  | item :: items => do
    Step.receive e.provider
    e.checkCancelled
    match item with
    | .error fault => Step.failWith (.source triplesMap (some position) fault)
    | .ok record =>
      e.scan triplesMap visit (position + 1) (← visit result position record) items

/-- The logical source of a triples map. -/
def sourceOf (m : TriplesMap) : Step LogicalSource :=
  match m.logicalSource with
  | some source => return source
  | none => Step.failWith (.graph ⟨m.iri, .missingLogicalSource⟩)

/-- The subject map of a triples map. -/
def subjectMapOf (m : TriplesMap) : Step SubjectMap :=
  match m.subjectMap with
  | some subjectMap => return subjectMap
  | none => Step.failWith (.graph ⟨m.iri, .missingSubjectMap⟩)

/-! ### Building an index -/

/-- What a scan of a parent has found so far. -/
structure ParentScan where
  /-- The records that were read. -/
  records : Nat := 0
  /-- The rows, last one first. -/
  rows : List ParentRow := []

/-- Adds the row of a parent record.  A record whose subject fails is logged and listed, and is
otherwise as if it made no subject. -/
def addRow (e : Engine) (parent : TriplesMap) (subjectMap : SubjectMap) (scope : String)
    (found : ParentScan) (position : Nat) (record : Record) : Step ParentScan := do
  let records := found.records + 1
  match ← e.evaluate subjectMap.termMap record scope with
  | .error error =>
    Step.log (.parentFailed parent.iri position error)
    modify fun s =>
      { s with parentDiagnostics :=
        s.parentDiagnostics.push ⟨parent.iri, some position, .function error⟩ }
    return { found with records }
  | .ok [] => return { found with records }
  | .ok subjects => return { records, rows := ⟨record, subjects⟩ :: found.rows }

/-- The layouts an index is built for: those the graph can ask for and the one asked for now. -/
def layoutsFor (e : Engine) (parent : String) (asked : List String) : List (List String) :=
  let layouts := e.graph.keyLayouts parent
  if layouts.contains asked then layouts else layouts ++ [asked]

/-- Scans a parent and builds its index. -/
def buildIndex (e : Engine) (position : Nat) (parent : TriplesMap) (asked : List String) :
    Step ParentIndex := Step.inSpan (.joinIndex parent.iri) do
  let source ← sourceOf parent
  let subjectMap ← subjectMapOf parent
  let layouts := e.layoutsFor parent.iri asked
  let items ← Step.openSource e.provider parent.iri source
  let found ← e.scan parent.iri (e.addRow parent subjectMap (blankScope position)) 0 {} items
  Step.log (.indexed parent.iri found.records layouts.length)
  return ParentIndex.ofRows layouts found.rows.reverse

/-! ### Answering from an index -/

/-- The index of a parent for a layout, built now if there is none. -/
def indexFor (e : Engine) (position : Nat) (parent : TriplesMap) (layout : List String) :
    Step ParentIndex := do
  match (← get).indexes.lookup parent.iri with
  | some index => if index.covers layout then return index
  | none => pure ()
  let index ← e.buildIndex position parent layout
  modify fun s =>
    { s with indexes := (parent.iri, index) :: s.indexes.filter fun i => i.1 != parent.iri }
  return index

/-- The parent that a child's reference names, with its position. -/
def parentOf (e : Engine) (r : RefObjectMap) (child : TriplesMap) : Step (Nat × TriplesMap) :=
  match e.graph.position? r.parent, e.graph.get? r.parent with
  | some position, some parent => return (position, parent)
  | _, _ => Step.failWith (.graph ⟨child.iri, .unknownParent r.parent⟩)

/-- The objects that a child's reference to a parent gives for a record.  A function error is
one of the parent's subject map on this record. -/
def resolve (e : Engine) (r : RefObjectMap) (child : TriplesMap) (record : Record) :
    Step (Except FunctionError (List Term)) := do
  let (position, parent) ← e.parentOf r child
  if !r.hasConditions && parent.logicalSource == child.logicalSource then
    let subjectMap ← subjectMapOf parent
    e.evaluate subjectMap.termMap record (blankScope position)
  else
    match record.key? r.childReferences with
    | none => return .ok []
    | some key =>
      let index ← e.indexFor position parent r.parentReferences
      return .ok (index.find r.parentReferences key)

end Engine

end RdfMapping
