/-
Indexes for joins.

A join takes the subjects of those parent records whose values for the parent references
equal the child record's values for the child references.  A record's values for a list
of references are its key; a record that lacks values for one of them has no key and
matches nothing.

Scanning the parent once gives its rows: each record that made subjects, with those
subjects.  From the rows an index is built for each reference list, called a layout, that
some child will ask for.  Looking a key up gives the subjects of the matching rows in
record order, exactly as going through the rows would; `find_ofRows` is that statement.
-/
import RdfMapping.ValueMap
import RdfMapping.Term.Basic
import Std.Data.HashMap

namespace RdfMapping

/-- The ordered values for each reference of a layout. -/
abbrev JoinKey := List (List String)

/-- The key of a record, if it has values for every reference. -/
def Record.key? (record : Record) : List String → Option JoinKey
  | [] => some []
  | reference :: rest =>
    let values := record.get reference
    if values.isEmpty then none else (Record.key? record rest).map (values :: ·)

/-- A record has a key exactly if it has values for every reference, and then the key lists them. -/
theorem Record.key?_eq_ite (record : Record) (layout : List String) :
    record.key? layout =
      if layout.all fun reference => !(record.get reference).isEmpty then
        some (layout.map record.get)
      else none := by
  induction layout with
  | nil => rfl
  | cons reference rest ih =>
    by_cases h : (record.get reference).isEmpty
    · simp [Record.key?, h]
    · simp only [Record.key?, h, ih, List.all_cons, List.map_cons]
      split <;> simp_all

/-- A parent record that made subjects, with those subjects. -/
structure ParentRow where
  /-- The record. -/
  record : Record
  /-- Its subjects, at least one. -/
  subjects : List Term

/-- The subjects of the rows that have a key under a layout: what a join gives, said without any
index. -/
def matchingSubjects (rows : List ParentRow) (layout : List String) (key : JoinKey) : List Term :=
  (rows.filter fun row => row.record.key? layout == some key).flatMap (·.subjects)

/-- Subjects by key. -/
abbrev KeyIndex := Std.HashMap JoinKey (List Term)

namespace KeyIndex

/-- The index with one more row, whose subjects come before those already there. -/
def insertRow (layout : List String) (row : ParentRow) (index : KeyIndex) : KeyIndex :=
  match row.record.key? layout with
  | none => index
  | some key => index.insert key (row.subjects ++ index.getD key [])

/-- The index of some rows under a layout.  Rows are inserted last one first, so that a row costs
no more than its own subjects, however many share its key. -/
def ofRows (layout : List String) (rows : List ParentRow) : KeyIndex :=
  rows.foldr (insertRow layout) ∅

/-- One more row adds its subjects under its key and changes nothing else. -/
theorem getD_insertRow (layout : List String) (row : ParentRow) (index : KeyIndex)
    (key : JoinKey) :
    (insertRow layout row index).getD key [] =
      matchingSubjects [row] layout key ++ index.getD key [] := by
  unfold insertRow matchingSubjects
  cases h : row.record.key? layout with
  | none => simp [h]
  | some k =>
    by_cases hk : k = key
    · simp [h, hk]
    · simp [h, hk, Std.HashMap.getD_insert]

/-- The index gives under a key what going through the rows gives. -/
theorem getD_ofRows (layout : List String) (rows : List ParentRow) (key : JoinKey) :
    (ofRows layout rows).getD key [] = matchingSubjects rows layout key := by
  unfold ofRows
  induction rows with
  | nil => simp [matchingSubjects]
  | cons row rows ih =>
    rw [List.foldr_cons, getD_insertRow, ih]
    simp only [matchingSubjects, List.filter_cons, List.filter_nil]
    split <;> simp

end KeyIndex

/-- The indexes of one parent by layout. -/
abbrev ParentIndex := List (List String × KeyIndex)

namespace ParentIndex

/-- The indexes of some rows under each of some layouts. -/
def ofRows (layouts : List (List String)) (rows : List ParentRow) : ParentIndex :=
  layouts.map fun layout => (layout, KeyIndex.ofRows layout rows)

/-- Whether there is an index for a layout. -/
def covers (index : ParentIndex) (layout : List String) : Bool := (index.lookup layout).isSome

/-- The subjects under a key of a layout. -/
def find (index : ParentIndex) (layout : List String) (key : JoinKey) : List Term :=
  match index.lookup layout with
  | some byKey => byKey.getD key []
  | none => []

/-- Indexes of rows cover the layouts they were built for. -/
theorem covers_ofRows (layouts : List (List String)) (rows : List ParentRow)
    (layout : List String) :
    (ofRows layouts rows).covers layout = layouts.contains layout := by
  unfold ofRows covers
  induction layouts with
  | nil => rfl
  | cons l ls ih =>
    rw [List.map_cons, lookup_cons_eq_ite]
    by_cases h : layout = l
    · simp [h]
    · simp [h, ih]

/-- Under a layout they were built for they give what going through the rows gives. -/
theorem find_ofRows {layouts : List (List String)} (rows : List ParentRow)
    {layout : List String} (h : layout ∈ layouts) (key : JoinKey) :
    (ofRows layouts rows).find layout key = matchingSubjects rows layout key := by
  have found : (ofRows layouts rows).lookup layout = some (KeyIndex.ofRows layout rows) := by
    unfold ofRows
    induction layouts with
    | nil => simp at h
    | cons l ls ih =>
      rw [List.map_cons, lookup_cons_eq_ite]
      by_cases hl : layout = l
      · rw [if_pos hl, hl]
      · rw [if_neg hl]
        exact ih ((List.mem_cons.1 h).resolve_left hl)
  simp [find, found, KeyIndex.getD_ofRows]

end ParentIndex

end RdfMapping
