/-
The sorted text of a store.

A quad has a place among all quads: by the text of its subject, then of its predicate, then of its
object, then of its graph, the default graph coming before every other one.  `Quad.place` is that
place in the lexicographic order, and comparing sort keys is comparing places,
`Quad.sortKeyLe_iff`.  So sorting puts the quads of a store into the order of their places, whatever
order they came in.

Different quads may have the same place, and those keep the order they came in.  That does not show
in the text: a place has all four texts in it, and with them the line of the quad,
`Quad.canonical_eq_line`.  The lines can therefore be read off the places in order, and there is
only one order for these.
-/
import Mathlib.Data.List.Sort
import Mathlib.Data.Prod.Lex
import Mathlib.Data.String.Basic
import Mathlib.Order.WithBot
import RdfMapping.Proofs.Quad.Distinct

namespace RdfMapping

namespace Quad

/-! ### Places -/

/-- The place of a quad among all quads. -/
def place (q : Quad) : String ×ₗ String ×ₗ String ×ₗ WithBot String :=
  toLex (q.subject.canonical, toLex (q.predicate.canonical, toLex (q.object.canonical,
    q.graph.elim ⊥ fun g => (g.canonical : WithBot String))))

/-- Comparing sort keys is comparing places. -/
theorem sortKeyLe_iff (q r : Quad) :
    sortKeyLe q.sortKey r.sortKey = true ↔ q.place ≤ r.place := by
  simp only [place, Prod.Lex.toLex_le_toLex]
  cases hq : q.graph <;> cases hr : r.graph <;> simp [sortKey, sortKeyLe, hq, hr, le_iff_lt_or_eq]

/-- The line that stands at a place. -/
def line (place : String ×ₗ String ×ₗ String ×ₗ WithBot String) : String :=
  let (subject, rest) := ofLex place
  let (predicate, rest) := ofLex rest
  let (object, graph) := ofLex rest
  subject ++ " " ++ predicate ++ " " ++ object ++ graph.recBotCoe "" (" " ++ ·) ++ " ."

/-- The canonical text of a quad is a matter of its place. -/
theorem canonical_eq_line (q : Quad) : q.canonical = line q.place := by
  rw [q.canonical_eq, ← String.toList_inj, String.toList_ofList]
  cases hgraph : q.graph <;> simp [render, line, place, hgraph, Term.canonical_eq]

end Quad

namespace Store

/-! ### Sorting -/

/-- It makes no difference that every sort key is made once and kept beside its quad. -/
theorem canonicalOrder_eq_mergeSort (s : Store) :
    s.canonicalOrder = s.toList.mergeSort fun q r => sortKeyLe q.sortKey r.sortKey := by
  have hmap : (s.toList.mergeSort fun q r => sortKeyLe q.sortKey r.sortKey).map
        (fun q => (q.sortKey, q)) =
      (s.toList.map fun q => (q.sortKey, q)).mergeSort fun a b => sortKeyLe a.1 b.1 :=
    List.map_mergeSort fun _ _ _ _ => rfl
  rw [canonicalOrder, ← hmap, List.map_map]
  exact List.map_id _

/-- Sorting loses no quad and adds none. -/
theorem canonicalOrder_perm (s : Store) : s.canonicalOrder.Perm s.toList := by
  rw [canonicalOrder_eq_mergeSort]
  exact List.mergeSort_perm _ _

/-- Sorted quads stand in the order of their places. -/
theorem pairwise_canonicalOrder (s : Store) :
    s.canonicalOrder.Pairwise fun q r => q.place ≤ r.place := by
  have htrans : ∀ a b c : Quad, sortKeyLe a.sortKey b.sortKey = true →
      sortKeyLe b.sortKey c.sortKey = true → sortKeyLe a.sortKey c.sortKey = true := by
    intro a b c hab hbc
    rw [Quad.sortKeyLe_iff] at hab hbc ⊢
    exact hab.trans hbc
  have htotal : ∀ a b : Quad,
      (sortKeyLe a.sortKey b.sortKey || sortKeyLe b.sortKey a.sortKey) = true := by
    intro a b
    rw [Bool.or_eq_true, Quad.sortKeyLe_iff, Quad.sortKeyLe_iff]
    exact le_total a.place b.place
  have hsorted := List.pairwise_mergeSort htrans htotal s.toList
  rw [canonicalOrder_eq_mergeSort]
  exact hsorted.imp fun hle => (Quad.sortKeyLe_iff _ _).mp hle

/-- The same quads take the same places, in one order. -/
theorem map_place_canonicalOrder_eq {s s' : Store} (h : s.toList.Perm s'.toList) :
    s.canonicalOrder.map Quad.place = s'.canonicalOrder.map Quad.place := by
  have hplaces : ∀ s : Store, (s.canonicalOrder.map Quad.place).Pairwise (· ≤ ·) := by
    intro s
    exact List.pairwise_map.mpr s.pairwise_canonicalOrder
  have hperm : s.canonicalOrder.Perm s'.canonicalOrder :=
    (s.canonicalOrder_perm.trans h).trans s'.canonicalOrder_perm.symm
  exact List.Perm.eq_of_pairwise (fun _ _ _ _ hle hge => le_antisymm hle hge) (hplaces s)
    (hplaces s') (hperm.map Quad.place)

/-- The sorted text has the line of each place, one after the other. -/
theorem sortedText_eq_join_line (s : Store) :
    s.sortedText =
      String.join ((s.canonicalOrder.map Quad.place).map fun p => Quad.line p ++ "\n") := by
  rw [sortedText, List.map_map]
  refine congrArg String.join (List.map_congr_left ?_)
  intro q _
  rw [q.canonical_eq_line]
  rfl

/--
**A store is sorted by the places of its quads.**  Sorting gives the quads that are there, as often
as they are there, in the order of their places, and stores of the same quads have the same sorted
text in whatever order the quads came.
-/
theorem sorted_by_place (s s' : Store) :
    s.canonicalOrder.Perm s.toList ∧
      s.canonicalOrder.Pairwise (fun q r => q.place ≤ r.place) ∧
      (s.toList.Perm s'.toList → s.sortedText = s'.sortedText) := by
  refine ⟨s.canonicalOrder_perm, s.pairwise_canonicalOrder, ?_⟩
  intro h
  rw [sortedText_eq_join_line, sortedText_eq_join_line, map_place_canonicalOrder_eq h]

/-- A greeting in English; the tag is written, so the datatype does not show. -/
def greeting (datatype : Option String) : Quad :=
  ⟨.iri "ann", .iri "says", .literal "hi" datatype (some "en"), none⟩

/-- Two greetings, pushed one after the other. -/
def greetings (first second : Option String) : Store :=
  (empty.push (greeting first)).push (greeting second)

theorem greetings_sorted_by_place :
    greeting none ≠ greeting (some "word") ∧
      (greetings none (some "word")).toList.Perm (greetings (some "word") none).toList ∧
      (greetings none (some "word")).sortedText = (greetings (some "word") none).sortedText := by
  have hperm :
      (greetings none (some "word")).toList.Perm (greetings (some "word") none).toList := by
    rw [greetings, greetings, toList_push, toList_push, toList_push, toList_push, toList_empty]
    exact List.Perm.swap _ _ _
  obtain ⟨-, -, htext⟩ :=
    sorted_by_place (greetings none (some "word")) (greetings (some "word") none)
  exact ⟨by decide, hperm, htext hperm⟩

end Store

end RdfMapping
