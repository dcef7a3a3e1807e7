/-
What validation establishes.

Validation goes through the triples maps and stops at the first fault.  The predicates
here say what it looks for without an order of checks: `TriplesMap.Executable` collects
what must hold of one triples map of a graph, and `validate_eq_ok_iff` says that
validation succeeds exactly if it holds of all of them.

A graph that passed has distinct identities, so a position and an identity are two names
of one triples map; `get?_eq_bind` and `exists_position_of_isSome` make that usable.
-/
import RdfMapping.Proofs.Checked
import RdfMapping.Rules.Validation

namespace RdfMapping

/-! ### Executable triples maps -/

/-- The statements of a predicate-object map have predicates and graphs that are IRIs, and
parents that are in the graph. -/
structure PredicateObjectMap.Executable (g : RuleGraph) (m : PredicateObjectMap) : Prop where
  nonempty : m.predicateMaps ≠ []
  predicates : ∀ p ∈ m.predicateMaps, p.termType = .iri
  graphs : ∀ p ∈ m.graphMaps, p.termType = .iri
  parents : ∀ r ∈ m.parents, (g.get? r.parent).isSome

/-- Subjects are no literals and their graphs are IRIs. -/
structure SubjectMap.Executable (m : SubjectMap) : Prop where
  subject : m.termMap.termType ≠ .literal
  graphs : ∀ p ∈ m.graphMaps, p.termType = .iri

/-- A triples map at a position of a graph has all it needs to be executed. -/
structure TriplesMap.Executable (g : RuleGraph) (position : Nat) (m : TriplesMap) : Prop where
  identity : g.position? m.iri = some position
  source : m.logicalSource.isSome
  subject : ∃ subjectMap, m.subjectMap = some subjectMap ∧ subjectMap.Executable
  statements : ∀ p ∈ m.predicateObjectMaps, p.Executable g

namespace RuleGraph

theorem checkIris_eq_ok_iff {place : IriPlace} {maps : List TermMap} :
    checkIris place maps = .ok () ↔ ∀ m ∈ maps, m.termType = .iri := by
  unfold checkIris
  split
  · rename_i hany
    obtain ⟨m, hm, hne⟩ := List.any_eq_true.mp hany
    simp only [reduceCtorEq, false_iff, not_forall]
    exact ⟨m, hm, by simpa using hne⟩
  · rename_i hany
    simpa using hany

theorem checkObjectMap_eq_ok_iff {g : RuleGraph} {m : ObjectMap} :
    g.checkObjectMap m = .ok () ↔ ∀ r, m.parent? = some r → (g.get? r.parent).isSome := by
  cases m with
  | term m => simp [checkObjectMap, ObjectMap.parent?]
  | parent r =>
      simp only [checkObjectMap, ObjectMap.parent?, Option.some.injEq, forall_eq']
      split <;> simp_all

theorem checkPredicateObjectMap_eq_ok_iff {g : RuleGraph} {m : PredicateObjectMap} :
    g.checkPredicateObjectMap m = .ok () ↔ m.Executable g := by
  have parents : (∀ o ∈ m.objectMaps, g.checkObjectMap o = .ok ()) ↔
      ∀ r ∈ m.parents, (g.get? r.parent).isSome := by
    simp only [checkObjectMap_eq_ok_iff, PredicateObjectMap.parents, List.mem_filterMap]
    exact ⟨fun h r ⟨o, ho, hr⟩ => h o ho r hr, fun h o ho r hr => h r ⟨o, ho, hr⟩⟩
  unfold checkPredicateObjectMap
  by_cases hempty : m.predicateMaps.isEmpty
  · rw [if_pos hempty]
    exact error_eq_ok_iff fun h => h.nonempty (by simpa using hempty)
  · rw [if_neg hempty]
    simp only [check_then_eq_ok_iff, checkIris_eq_ok_iff, forM_eq_ok_iff, parents]
    constructor
    · rintro ⟨hpredicates, hgraphs, hparents⟩
      exact ⟨by simpa using hempty, hpredicates, hgraphs, hparents⟩
    · intro h
      exact ⟨h.predicates, h.graphs, h.parents⟩

theorem checkSubjectMap_eq_ok_iff {m : SubjectMap} :
    checkSubjectMap m = .ok () ↔ m.Executable := by
  unfold checkSubjectMap
  by_cases hliteral : m.termMap.termType = .literal
  · rw [if_pos hliteral]
    exact error_eq_ok_iff fun h => h.subject hliteral
  · rw [if_neg hliteral]
    rw [checkIris_eq_ok_iff]
    constructor
    · intro hgraphs
      exact ⟨hliteral, hgraphs⟩
    · intro h
      exact h.graphs

theorem checkTriplesMap_eq_ok_iff {g : RuleGraph} {position : Nat} {m : TriplesMap} :
    g.checkTriplesMap position m = .ok () ↔ m.Executable g position := by
  unfold checkTriplesMap
  by_cases hidentity : g.position? m.iri = some position
  · rw [if_neg (not_not.mpr hidentity)]
    by_cases hsource : m.logicalSource.isSome
    · rw [if_neg (by simpa [Option.isSome_iff_ne_none] using hsource)]
      cases hsubject : m.subjectMap with
      | none =>
          refine error_eq_ok_iff fun h => ?_
          obtain ⟨subjectMap, hsome, -⟩ := h.subject
          exact nomatch hsubject.symm.trans hsome
      | some subjectMap =>
          simp only [check_then_eq_ok_iff, checkSubjectMap_eq_ok_iff, forM_eq_ok_iff,
            checkPredicateObjectMap_eq_ok_iff]
          constructor
          · rintro ⟨hexec, hstatements⟩
            exact ⟨hidentity, hsource, ⟨subjectMap, hsubject, hexec⟩, hstatements⟩
          · intro h
            obtain ⟨other, hsome, hexec⟩ := h.subject
            cases hsubject.symm.trans hsome
            exact ⟨hexec, h.statements⟩
    · rw [if_pos (by simpa using hsource)]
      exact error_eq_ok_iff fun h => hsource h.source
  · rw [if_pos hidentity]
    exact error_eq_ok_iff fun h => hidentity h.identity

/-- **Validation succeeds exactly if every triples map can be executed.** -/
theorem validate_eq_ok_iff {g : RuleGraph} :
    g.validate = .ok () ↔
      ∀ position (m : TriplesMap),
        g.triplesMaps[position]? = some m → m.Executable g position := by
  unfold validate
  rw [forM_eq_ok_iff]
  simp only [mapError_eq_ok_iff, checkTriplesMap_eq_ok_iff, Prod.forall,
    List.mem_zipIdx_iff_getElem?]
  exact forall_comm

/-! ### Looking up in an executable graph -/

/-- An identity is known if it is declared. -/
theorem isSome_get?_iff {g : RuleGraph} {iri : String} :
    (g.get? iri).isSome ↔ iri ∈ g.triplesMaps.map (·.iri) := by
  simp [get?, List.find?_isSome]

/-- The position of an identity is the first one at which it is declared. -/
theorem position?_eq_some_iff {g : RuleGraph} {iri : String} {position : Nat} :
    g.position? iri = some position ↔
      (g.triplesMaps.map (·.iri))[position]? = some iri ∧
        iri ∉ (g.triplesMaps.map (·.iri)).take position := by
  rw [position?, List.findIdx?_eq_some_iff_getElem, List.getElem?_eq_some_iff]
  constructor
  · rintro ⟨hlt, hiri, hfirst⟩
    refine ⟨⟨by simpa using hlt, by simpa using hiri⟩, fun hmem => ?_⟩
    obtain ⟨i, hi, hsame⟩ := List.mem_take_iff_getElem.mp hmem
    exact hfirst i (by omega) (by simpa using hsame)
  · rintro ⟨⟨hlt, hiri⟩, hfirst⟩
    refine ⟨by simpa using hlt, by simpa using hiri, fun i hi hsame => hfirst ?_⟩
    exact List.mem_take_iff_getElem.mpr ⟨i, by omega, by simpa using hsame⟩

/-- Looking up an identity gives the triples map at its position. -/
theorem get?_eq_bind (g : RuleGraph) (iri : String) :
    g.get? iri = (g.position? iri).bind fun position => g.triplesMaps[position]? := by
  unfold get? position?
  induction g.triplesMaps with
  | nil => rfl
  | cons m ms ih =>
      rw [List.find?_cons, List.findIdx?_cons]
      by_cases h : m.iri = iri
      · simp [h]
      · have hbeq : (m.iri == iri) = false := by simpa using h
        rw [hbeq, ih]
        cases ms.findIdx? fun m => m.iri == iri <;> rfl

/-- A known identity has a position, and there is a triples map with this identity. -/
theorem exists_position_of_isSome {g : RuleGraph} {iri : String} (h : (g.get? iri).isSome) :
    ∃ position m, g.position? iri = some position ∧ g.get? iri = some m ∧
      g.triplesMaps[position]? = some m ∧ m.iri = iri := by
  obtain ⟨m, hm⟩ := Option.isSome_iff_exists.mp h
  have hbind := hm
  rw [get?_eq_bind, Option.bind_eq_some_iff] at hbind
  obtain ⟨position, hposition, hget⟩ := hbind
  have hiri := List.find?_some hm
  exact ⟨position, m, hposition, hm, hget, by simpa using hiri⟩

section Valid

variable {g : RuleGraph} (hvalid : g.validate = .ok ()) {m : TriplesMap} (hm : m ∈ g.triplesMaps)

include hvalid hm

theorem exists_executable_of_mem :
    ∃ position, g.triplesMaps[position]? = some m ∧ m.Executable g position := by
  obtain ⟨position, hget⟩ := List.mem_iff_getElem?.mp hm
  exact ⟨position, hget, validate_eq_ok_iff.mp hvalid position m hget⟩

/-- A triples map of a valid graph is the one that its identity finds. -/
theorem get?_of_mem : g.get? m.iri = some m := by
  obtain ⟨position, hget, hexecutable⟩ := exists_executable_of_mem hvalid hm
  rw [get?_eq_bind, hexecutable.identity]
  exact hget

theorem exists_source_of_mem : ∃ source, m.logicalSource = some source := by
  obtain ⟨position, -, hexecutable⟩ := exists_executable_of_mem hvalid hm
  exact Option.isSome_iff_exists.mp hexecutable.source

theorem exists_subjectMap_of_mem : ∃ subjectMap, m.subjectMap = some subjectMap := by
  obtain ⟨position, -, hexecutable⟩ := exists_executable_of_mem hvalid hm
  obtain ⟨subjectMap, hsubject, -⟩ := hexecutable.subject
  exact ⟨subjectMap, hsubject⟩

end Valid

/-! ### Layouts -/

theorem mem_parents {m : TriplesMap} {p : PredicateObjectMap} {r : RefObjectMap}
    (hp : p ∈ m.predicateObjectMaps) (hr : .parent r ∈ p.objectMaps) : r ∈ m.parents :=
  List.mem_flatMap.mpr ⟨p, hp, List.mem_filterMap.mpr ⟨.parent r, hr, rfl⟩⟩

/-- The layouts of a parent are those by which some reference in the graph asks for it. -/
theorem mem_keyLayouts {g : RuleGraph} {parent : String} {layout : List String} :
    layout ∈ g.keyLayouts parent ↔
      ∃ m ∈ g.triplesMaps, ∃ r ∈ m.parents, r.parent = parent ∧ r.parentReferences = layout := by
  have hfold : ∀ (rs : List RefObjectMap) (layouts : List (List String)),
      layout ∈ rs.foldl (fun layouts r => if layouts.contains r.parentReferences then layouts
        else layouts ++ [r.parentReferences]) layouts ↔
      layout ∈ layouts ∨ ∃ r ∈ rs, r.parentReferences = layout := by
    intro rs
    induction rs with
    | nil => simp
    | cons r rs ih =>
        intro layouts
        rw [List.foldl_cons, ih]
        by_cases hseen : layouts.contains r.parentReferences = true
        · have hold : r.parentReferences = layout → layout ∈ layouts := by
            rintro rfl
            exact List.contains_iff_mem.mp hseen
          rw [if_pos hseen, List.exists_mem_cons_iff]
          tauto
        · rw [if_neg hseen, List.exists_mem_cons_iff, List.mem_append, List.mem_singleton,
            or_assoc, eq_comm (a := layout)]
  unfold keyLayouts
  rw [hfold]
  simp only [List.not_mem_nil, false_or, List.mem_filter, List.mem_flatMap, beq_iff_eq]
  constructor
  · rintro ⟨r, ⟨⟨m, hm, hr⟩, hparent⟩, hlayout⟩
    exact ⟨m, hm, r, hr, hparent, hlayout⟩
  · rintro ⟨m, hm, r, hr, hparent, hlayout⟩
    exact ⟨r, ⟨⟨m, hm, hr⟩, hparent⟩, hlayout⟩

end RuleGraph

end RdfMapping
