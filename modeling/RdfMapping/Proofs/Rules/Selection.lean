/-
What a selection selects.

`select` turns identities into positions, and a run turns positions back into triples
maps.  In a graph that can be executed no identity stands for two triples maps, so the
detour can be cut short: the selected triples maps are the declared ones whose identity
was asked for, in the order of the declarations.  In what order and how often an identity
was asked for does not matter.
-/
import Mathlib.Data.List.Forall2
import RdfMapping.Proofs.Rules.Acceptance

namespace RdfMapping

namespace RuleGraph

/-- Whether a filter asks for an identity; without filter everything is asked for. -/
def wanted (filter : Option (List String)) (iri : String) : Bool :=
  filter.elim true fun iris => iris.contains iri

/-- The triples maps whose identity is asked for, with their positions, in declaration order. -/
def selected (g : RuleGraph) (filter : Option (List String)) : List (Nat × TriplesMap) :=
  (g.triplesMaps.zipIdx.filter fun entry => wanted filter entry.1.iri).map Prod.swap

theorem mem_selected {g : RuleGraph} {filter : Option (List String)} {position : Nat}
    {m : TriplesMap} :
    (position, m) ∈ g.selected filter ↔
      g.triplesMaps[position]? = some m ∧ wanted filter m.iri = true := by
  simp [selected, List.mem_zipIdx_iff_getElem?]

/-- The identities of what is selected are the declared ones that are asked for. -/
theorem map_iri_selected (g : RuleGraph) (filter : Option (List String)) :
    (g.selected filter).map (·.2.iri) = (g.triplesMaps.map (·.iri)).filter (wanted filter) := by
  have hzip : g.triplesMaps.map (·.iri) = g.triplesMaps.zipIdx.map fun entry => entry.1.iri := by
    rw [← Function.comp_def TriplesMap.iri Prod.fst, ← List.map_map, List.zipIdx_map_fst]
  rw [hzip, List.filter_map, selected, List.map_map]
  rfl

theorem getElem?_of_mem_selected {g : RuleGraph} {filter : Option (List String)}
    {entry : Nat × TriplesMap} (h : entry ∈ g.selected filter) :
    g.triplesMaps[entry.1]? = some entry.2 :=
  (mem_selected.mp h).1

theorem mem_of_mem_selected {g : RuleGraph} {filter : Option (List String)}
    {entry : Nat × TriplesMap} (h : entry ∈ g.selected filter) : entry.2 ∈ g.triplesMaps :=
  List.mem_of_getElem? (getElem?_of_mem_selected h)

/-- The positions below the size with their triples maps are the triples maps with their
positions. -/
theorem filterMap_filter_range (ms : List TriplesMap) (p : Nat → Bool) (n : Nat) :
    ((List.range' n ms.length).filter p).filterMap
        (fun position => (ms[position - n]?).map (position, ·))
      = ((ms.zipIdx n).filter fun entry => p entry.2).map Prod.swap := by
  induction ms generalizing n with
  | nil => rfl
  | cons m ms ih =>
      have htail : ∀ ps : List Nat, (∀ position ∈ ps, n < position) →
          ps.filterMap (fun position => ((m :: ms)[position - n]?).map (position, ·))
            = ps.filterMap (fun position => (ms[position - (n + 1)]?).map (position, ·)) := by
        intro ps hps
        refine List.filterMap_congr fun position hposition => ?_
        have hlt := hps position hposition
        rw [show position - n = (position - (n + 1)) + 1 by omega, List.getElem?_cons_succ]
      have hbelow : ∀ position ∈ (List.range' (n + 1) ms.length).filter p, n < position := by
        intro position hposition
        have := List.mem_range'_1.mp (List.mem_filter.mp hposition).1
        omega
      rw [List.length_cons, List.range'_succ, List.zipIdx_cons, List.filter_cons, List.filter_cons]
      by_cases hp : p n
      · rw [if_pos hp, if_pos hp, List.filterMap_cons, htail _ hbelow, ih]
        simp
      · rw [if_neg hp, if_neg hp, htail _ hbelow, ih]

/-- The position of an identity that was asked for, or the verdict that there is none. -/
theorem positionOrFault_eq_ok_iff {g : RuleGraph} {iri : String} {position : Nat} :
    (match g.position? iri with
      | some position => (.ok position : Except GraphError Nat)
      | none => .error ⟨iri, .unknownTriplesMap⟩) = .ok position
    ↔ g.position? iri = some position := by
  cases g.position? iri <;> simp

theorem select_eq_ok_iff {g : RuleGraph} {iris : List String} {positions : List Nat} :
    g.select (some iris) = .ok positions ↔
      ∃ ps : List Nat, List.Forall₂ (fun iri p => g.position? iri = some p) iris ps ∧
        (List.range g.size).filter ps.contains = positions := by
  rw [select]
  constructor
  · intro h
    obtain ⟨ps, hps, hfilter⟩ := bind_eq_ok_iff.mp h
    refine ⟨ps, (mapM_eq_ok_iff.mp hps).imp fun iri p => positionOrFault_eq_ok_iff.mp, ?_⟩
    simpa [pure, Except.pure] using hfilter
  · rintro ⟨ps, hps, rfl⟩
    refine bind_eq_ok_iff.mpr ⟨ps, mapM_eq_ok_iff.mpr ?_, rfl⟩
    exact hps.imp fun iri p => positionOrFault_eq_ok_iff.mpr

theorem mem_positions {g : RuleGraph} {iris : List String} {ps : List Nat}
    (h : List.Forall₂ (fun iri p => g.position? iri = some p) iris ps) {position : Nat} :
    position ∈ ps ↔ ∃ iri ∈ iris, g.position? iri = some position := by
  induction h with
  | nil => simp
  | cons hfirst _ ih => simp [hfirst, ih, eq_comm]

/-- A list of known identities is never refused. -/
theorem exists_select_eq_ok {g : RuleGraph} {iris : List String}
    (h : ∀ iri ∈ iris, (g.get? iri).isSome) : ∃ positions, g.select (some iris) = .ok positions := by
  have hps : ∃ ps : List Nat, List.Forall₂ (fun iri p => g.position? iri = some p) iris ps := by
    induction iris with
    | nil => exact ⟨[], .nil⟩
    | cons iri iris ih =>
        obtain ⟨p, m, hposition, -⟩ := exists_position_of_isSome (h iri (by simp))
        obtain ⟨ps, hrest⟩ := ih fun other hother => h other (by simp [hother])
        exact ⟨p :: ps, .cons hposition hrest⟩
  obtain ⟨ps, hps⟩ := hps
  exact ⟨_, select_eq_ok_iff.mpr ⟨ps, hps, rfl⟩⟩

/-- No identity is declared twice. -/
theorem nodup_iris {g : RuleGraph} (hvalid : g.validate = .ok ()) :
    (g.triplesMaps.map (·.iri)).Nodup :=
  (accepted_iff.mp hvalid).1

/-- What is declared is known. -/
theorem isSome_get?_of_mem {g : RuleGraph} {m : TriplesMap} (hm : m ∈ g.triplesMaps) :
    (g.get? m.iri).isSome :=
  isSome_get?_iff.mpr (List.mem_map_of_mem hm)

/-- A list that is not refused is one of known identities. -/
theorem isSome_get?_of_select {g : RuleGraph} {iris : List String} {positions : List Nat}
    (h : g.select (some iris) = .ok positions) : ∀ iri ∈ iris, (g.get? iri).isSome := by
  obtain ⟨ps, hps, -⟩ := select_eq_ok_iff.mp h
  have hknown : List.Forall₂ (fun iri p => (g.get? iri).isSome ∧ g.position? iri = some p)
      iris ps := by
    refine hps.imp fun iri p hposition => ⟨?_, hposition⟩
    have hdeclared := (position?_eq_some_iff.mp hposition).1
    exact isSome_get?_iff.mpr (List.mem_of_getElem? hdeclared)
  exact (List.forall₂_and_left _ _).mp hknown |>.1

/-- **A selection selects what was asked for**, in the order of the declarations. -/
theorem filterMap_select {g : RuleGraph} (hvalid : g.validate = .ok ())
    {filter : Option (List String)} {positions : List Nat}
    (hselect : g.select filter = .ok positions) :
    positions.filterMap (fun position => (g.triplesMaps[position]?).map (position, ·))
      = g.selected filter := by
  have hrange : ∀ p : Nat → Bool,
      ((List.range g.size).filter p).filterMap
          (fun position => (g.triplesMaps[position]?).map (position, ·))
        = (g.triplesMaps.zipIdx.filter fun entry => p entry.2).map Prod.swap := by
    intro p
    rw [List.range_eq_range']
    exact filterMap_filter_range g.triplesMaps p 0
  cases filter with
  | none =>
      obtain rfl : List.range g.size = positions := by simpa [select] using hselect
      have hall := hrange fun _ => true
      rw [List.filter_true] at hall
      exact hall
  | some iris =>
      obtain ⟨ps, hps, rfl⟩ := select_eq_ok_iff.mp hselect
      rw [hrange, selected]
      congr 1
      refine List.filter_congr fun entry hentry => ?_
      obtain ⟨m, position⟩ := entry
      have hget : g.triplesMaps[position]? = some m := List.mem_zipIdx_iff_getElem?.mp hentry
      have hposition := (validate_eq_ok_iff.mp hvalid position m hget).identity
      rw [Bool.eq_iff_iff, wanted, Option.elim_some, List.contains_iff_mem,
        List.contains_iff_mem, mem_positions hps]
      constructor
      · rintro ⟨iri, hiri, hfound⟩
        -- Two identities that are found at one position are the same.
        have hdeclared := (position?_eq_some_iff.mp hfound).1
        rw [List.getElem?_map, hget] at hdeclared
        obtain rfl : m.iri = iri := Option.some.inj hdeclared
        exact hiri
      · intro hiri
        exact ⟨m.iri, hiri, hposition⟩

end RuleGraph

end RdfMapping
