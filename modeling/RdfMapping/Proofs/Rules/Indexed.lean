/-
The index of identities.

A graph can be asked for the position of an identity without going through its triples maps, if it
keeps an index of them.  `RuleGraph.Indexed` is a graph with such an index, which grows with the
graph: a triples map that is added is entered under its identity unless there is an entry already.
Whatever identities repeat, `position?_ofList` and `get?_ofList` say that the index then answers
like a search from the first triples map on.
-/
import Mathlib.Data.List.Induction
import RdfMapping.Proofs.Rules.Executable
import Std.Data.HashMap

namespace RdfMapping

namespace RuleGraph

/-- A rule graph with an index of its identities. -/
structure Indexed where
  /-- The triples maps, first declared first. -/
  triplesMaps : List TriplesMap := []
  /-- The positions of the identities. -/
  positions : Std.HashMap String Nat := {}

namespace Indexed

/-- The graph with one more triples map, which is entered unless its identity already is. -/
def add (g : Indexed) (m : TriplesMap) : Indexed :=
  ⟨g.triplesMaps ++ [m], g.positions.insertIfNew m.iri g.triplesMaps.length⟩

/-- The graph of some triples maps, entered in order. -/
def ofList (ms : List TriplesMap) : Indexed := ms.foldl add {}

/-- The position the index has for an identity. -/
def position? (g : Indexed) (iri : String) : Option Nat := g.positions[iri]?

/-- The triples map at the position that the index has for an identity. -/
def get? (g : Indexed) (iri : String) : Option TriplesMap :=
  (g.position? iri).bind fun position => g.triplesMaps[position]?

theorem ofList_concat (ms : List TriplesMap) (m : TriplesMap) :
    ofList (ms ++ [m]) = (ofList ms).add m := by
  unfold ofList
  rw [List.foldl_append, List.foldl_cons, List.foldl_nil]

theorem triplesMaps_ofList (ms : List TriplesMap) : (ofList ms).triplesMaps = ms := by
  induction ms using List.reverseRecOn with
  | nil => rfl
  | append_singleton ms m ih =>
      rw [ofList_concat]
      exact congrArg (· ++ [m]) ih

theorem position?_add (g : Indexed) (m : TriplesMap) (iri : String) :
    (g.add m).position? iri =
      (g.position? iri).or (if m.iri == iri then some g.triplesMaps.length else none) := by
  unfold position? add
  rw [Std.HashMap.getElem?_insertIfNew]
  by_cases hiri : m.iri = iri
  · subst hiri
    by_cases hknown : m.iri ∈ g.positions
    · simp [hknown]
    · simp [hknown]
  · simp [hiri]

/-- The index has the first position of every identity. -/
theorem position?_ofList (ms : List TriplesMap) (iri : String) :
    (ofList ms).position? iri = RuleGraph.position? ⟨ms⟩ iri := by
  induction ms using List.reverseRecOn with
  | nil => exact Std.HashMap.getElem?_empty
  | append_singleton ms m ih =>
      rw [ofList_concat, position?_add, ih, triplesMaps_ofList]
      unfold RuleGraph.position?
      rw [List.findIdx?_append]
      by_cases hiri : m.iri == iri <;> simp [hiri]

/-- The index finds the first triples map with an identity. -/
theorem get?_ofList (ms : List TriplesMap) (iri : String) :
    (ofList ms).get? iri = RuleGraph.get? ⟨ms⟩ iri := by
  rw [get?, position?_ofList, triplesMaps_ofList, get?_eq_bind]

end Indexed

end RuleGraph

end RdfMapping
