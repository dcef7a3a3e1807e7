/-
The quad store.

A store keeps its quads in the order they arrived and remembers the canonical text of
every quad it holds, so that membership is a hash lookup.  Quads can be added as to a
set or pushed as to a bag; the store remembers whether pushing ever put the same text in
twice, and removing duplicates is free when it did not.

What is read off a store is its list of quads in order of arrival.  The last section says
what adding and pushing do to that list.
-/
import RdfMapping.Quad.Basic
import Std.Data.HashSet

namespace RdfMapping

/-- The quads whose key is not among `seen` and has not occurred earlier in the list. -/
def firstOccurrences (seen : Std.HashSet String) : List Quad → List Quad
  | [] => []
  | q :: rest =>
    let key := q.canonical
    if seen.contains key then firstOccurrences seen rest
    else q :: firstOccurrences (seen.insert key) rest

/-- Quads in order of arrival. -/
structure Store where
  /-- The quads, oldest first. -/
  quads : Array Quad := #[]
  /-- The canonical texts of the quads. -/
  keys : Std.HashSet String := ∅
  /-- Whether some canonical text occurs twice. -/
  hasDuplicates : Bool := false

namespace Store

/-- The store that holds nothing. -/
def empty : Store := {}

/-- The number of quads, duplicates counted. -/
def size (s : Store) : Nat := s.quads.size

/-- The quads in order of arrival. -/
def toList (s : Store) : List Quad := s.quads.toList

/-- Whether a quad with this canonical text is present. -/
def contains (s : Store) (q : Quad) : Bool := s.keys.contains q.canonical

/-- Adds a quad unless one with its canonical text is present; tells whether it was added. -/
def add (s : Store) (q : Quad) : Bool × Store :=
  let key := q.canonical
  if s.keys.contains key then (false, s)
  else (true, { s with quads := s.quads.push q, keys := s.keys.insert key })

/-- Adds a quad whether or not it is present. -/
def push (s : Store) (q : Quad) : Store :=
  let key := q.canonical
  if s.keys.contains key then { s with quads := s.quads.push q, hasDuplicates := true }
  else { s with quads := s.quads.push q, keys := s.keys.insert key }

/-- Adds the quads of a list one by one; gives the number of those that were not present. -/
def addAll (s : Store) (qs : List Quad) : Nat × Store :=
  qs.foldl (fun (n, s) q =>
    let (added, s) := s.add q
    (if added then n + 1 else n, s)) (0, s)

/-- Pushes the quads of a list one by one. -/
def pushAll (s : Store) (qs : List Quad) : Store := qs.foldl push s

/-- Adds every quad of another store; gives the number of those that were not present. -/
def merge (s other : Store) : Nat × Store := s.addAll other.toList

/-- Pushes every quad of another store. -/
def extend (s other : Store) : Store := s.pushAll other.toList

/-- A store built by adding the quads of a list. -/
def ofList (qs : List Quad) : Store := (empty.addAll qs).2

/-- Keeps the first quad of each canonical text. -/
def removeDuplicates (s : Store) : Store :=
  if s.hasDuplicates then
    { s with quads := (firstOccurrences ∅ s.toList).toArray, hasDuplicates := false }
  else s

/-- The quads sorted by subject, predicate, object and graph text; equal keys keep their order
of arrival. -/
def canonicalOrder (s : Store) : List Quad :=
  ((s.toList.map fun q => (q.sortKey, q)).mergeSort fun a b => sortKeyLe a.1 b.1).map (·.2)

/-- The sorted quads, each on a line of its own. -/
def sortedText (s : Store) : String :=
  String.join (s.canonicalOrder.map fun q => q.canonical ++ "\n")

/-! ### What adding and pushing do to the list of quads -/

@[simp] theorem toList_empty : empty.toList = [] := rfl

/-- Pushing puts the quad at the end whatever is there. -/
@[simp] theorem toList_push (s : Store) (q : Quad) : (s.push q).toList = s.toList ++ [q] := by
  simp only [push, toList]
  split <;> simp

/-- Adding puts the quad at the end if it is not present. -/
theorem toList_add (s : Store) (q : Quad) :
    (s.add q).2.toList = if s.contains q then s.toList else s.toList ++ [q] := by
  simp only [add, toList, contains]
  split <;> simp_all

@[simp] theorem fst_add (s : Store) (q : Quad) : (s.add q).1 = !s.contains q := by
  simp only [add, contains]
  split <;> simp [*]

@[simp] theorem toList_pushAll (s : Store) (qs : List Quad) :
    (s.pushAll qs).toList = s.toList ++ qs := by
  unfold pushAll
  induction qs generalizing s with
  | nil => simp
  | cons q qs ih => simp [ih]

@[simp] theorem toList_extend (s other : Store) :
    (s.extend other).toList = s.toList ++ other.toList := toList_pushAll ..

@[simp] theorem length_toList (s : Store) : s.toList.length = s.size := by
  simp [toList, size]

end Store

end RdfMapping
