/-
The same triples maps declared in another order.

`RuleGraph.permute` moves every triples map to the position that a permutation has for it.  As long
as no identity is declared twice, nobody who asks for a triples map by its identity can tell: the
same one is found, `get?_permute`, only its position is another one, `position?_permute`.  So what
can be executed stays so, and without a filter the same triples maps are selected, each with its new
position.
-/
import Mathlib.Data.List.FinRange
import RdfMapping.Proofs.Rules.Selection

namespace RdfMapping

namespace RuleGraph

/-- The triples maps in another order: the one at a position `i` is now at `p i`. -/
def permute (g : RuleGraph) (p : Equiv.Perm (Fin g.triplesMaps.length)) : RuleGraph :=
  ⟨List.ofFn fun j => g.triplesMaps[p.symm j]⟩

variable {g : RuleGraph} (p : Equiv.Perm (Fin g.triplesMaps.length))

theorem ofFn_triplesMaps (g : RuleGraph) :
    List.ofFn (fun i : Fin g.triplesMaps.length => g.triplesMaps[i]) = g.triplesMaps :=
  List.ofFn_getElem

theorem perm_permute : (g.permute p).triplesMaps.Perm g.triplesMaps := by
  have hperm := Equiv.Perm.ofFn_comp_perm p.symm fun i => g.triplesMaps[i]
  rwa [ofFn_triplesMaps] at hperm

theorem mem_permute {m : TriplesMap} : m ∈ (g.permute p).triplesMaps ↔ m ∈ g.triplesMaps :=
  (perm_permute p).mem_iff

theorem getElem?_permute (i : Fin g.triplesMaps.length) :
    (g.permute p).triplesMaps[(p i : Nat)]? = some g.triplesMaps[i] := by
  simp [permute]

/-! ### Looking up -/

/-- Where no identity is declared twice, a triples map is found at its position. -/
theorem position?_of_nodup {g : RuleGraph} (hdistinct : (g.triplesMaps.map (·.iri)).Nodup)
    {position : Nat} {m : TriplesMap} (hget : g.triplesMaps[position]? = some m) :
    g.position? m.iri = some position := by
  obtain ⟨hlt, rfl⟩ := List.getElem?_eq_some_iff.mp hget
  rw [List.nodup_iff_pairwise_ne, List.pairwise_map, List.pairwise_iff_getElem] at hdistinct
  refine List.findIdx?_eq_some_iff_getElem.mpr ⟨hlt, by simp, ?_⟩
  intro earlier hearlier hsame
  exact hdistinct earlier position (hearlier.trans hlt) hlt hearlier (by simpa using hsame)

section Valid

variable (hvalid : g.validate = .ok ())

include hvalid

theorem nodup_iris_permute : ((g.permute p).triplesMaps.map (·.iri)).Nodup :=
  ((perm_permute p).map _).nodup_iff.mpr (nodup_iris hvalid)

/-- An identity that is found at a position is found at the new one. -/
theorem position?_permute {iri : String} {i : Fin g.triplesMaps.length}
    (h : g.position? iri = some i.val) : (g.permute p).position? iri = some (p i).val := by
  obtain ⟨hlt, hiri, -⟩ := List.findIdx?_eq_some_iff_getElem.mp h
  rw [← show g.triplesMaps[i].iri = iri by simpa using hiri]
  exact position?_of_nodup (nodup_iris_permute p hvalid) (getElem?_permute p i)

theorem get?_permute (iri : String) : (g.permute p).get? iri = g.get? iri := by
  cases hget : g.get? iri with
  | none =>
      refine List.find?_eq_none.mpr fun m hm => ?_
      exact List.find?_eq_none.mp hget m ((mem_permute p).mp hm)
  | some m =>
      have hknown : (g.get? iri).isSome := by
        rw [hget]
        rfl
      obtain ⟨position, m', hposition, hget', hat, -⟩ := exists_position_of_isSome hknown
      obtain rfl : m' = m := Option.some.inj (hget'.symm.trans hget)
      obtain ⟨hlt, rfl⟩ := List.getElem?_eq_some_iff.mp hat
      have hmoved := position?_permute p hvalid (i := ⟨position, hlt⟩) hposition
      rw [get?_eq_bind, hmoved]
      exact getElem?_permute p ⟨position, hlt⟩

/-- What can be executed can be executed in any order. -/
theorem validate_permute : (g.permute p).validate = .ok () := by
  refine validate_eq_ok_iff.mpr fun position m hget => ?_
  have hm : m ∈ g.triplesMaps := (mem_permute p).mp (List.mem_of_getElem? hget)
  obtain ⟨before, -, hexecutable⟩ := exists_executable_of_mem hvalid hm
  refine ⟨position?_of_nodup (nodup_iris_permute p hvalid) hget, hexecutable.source,
    hexecutable.subject, fun statement hstatement => ?_⟩
  have hstill := hexecutable.statements statement hstatement
  refine ⟨hstill.nonempty, hstill.predicates, hstill.graphs, fun r hr => ?_⟩
  rw [get?_permute p hvalid]
  exact hstill.parents r hr

end Valid

/-! ### Selecting everything -/

theorem selected_none_ofFn {n : Nat} (f : Fin n → TriplesMap) :
    (RuleGraph.mk (List.ofFn f)).selected none = List.ofFn fun i => (i.val, f i) := by
  have hall : ((RuleGraph.mk (List.ofFn f)).triplesMaps.zipIdx.filter fun entry =>
      wanted none entry.1.iri) = (List.ofFn f).zipIdx :=
    List.filter_eq_self.mpr fun _ _ => rfl
  rw [selected, hall]
  refine List.ext_getElem (by simp) fun i h h' => ?_
  simp

theorem selected_none_eq_ofFn (g : RuleGraph) :
    g.selected none = List.ofFn fun i : Fin g.triplesMaps.length => (i.val, g.triplesMaps[i]) := by
  have hofFn := selected_none_ofFn fun i : Fin g.triplesMaps.length => g.triplesMaps[i]
  rwa [ofFn_triplesMaps] at hofFn

/-- Without a filter the same triples maps are selected, each with its new position. -/
theorem selected_permute : ((g.permute p).selected none).Perm
    (List.ofFn fun i : Fin g.triplesMaps.length => ((p i).val, g.triplesMaps[i])) := by
  have hmoved : (fun j => (j.val, g.triplesMaps[p.symm j]))
      = (fun i => ((p i).val, g.triplesMaps[i])) ∘ p.symm := by
    funext j
    simp
  rw [permute, selected_none_ofFn, hmoved]
  exact Equiv.Perm.ofFn_comp_perm p.symm _

end RuleGraph

end RdfMapping
