/-
How deeply the text of a rule graph is nested.

Rules can be inside each other without bound in one way only: a term map may call a function, and
the parameters of the call are term maps again.  `nesting` is the number of calls that are inside
each other.  Everything else stands at a fixed depth of a rule graph.  So the arrays and objects
inside each other in the text are bounded by the calls alone, `RuleGraph.levels_toJson_le`, and
each call takes five of them: the call, the list of parameters, the parameter, its term map and
where the values of that come from.
-/
import RdfMapping.Json.Rules
import RdfMapping.Proofs.Json.Reader

namespace RdfMapping

open Json

/-! ### Calls inside each other -/

mutual

/-- How many calls of functions are inside each other in a term map. -/
def TermMap.nesting : TermMap → Nat
  | ⟨.constant _, _, _, _⟩ => 0
  | ⟨.reference _, _, _, _⟩ => 0
  | ⟨.template _, _, _, _⟩ => 0
  | ⟨.function ⟨_, parameters⟩, _, _, _⟩ => Parameter.nesting parameters + 1

/-- How many are inside each other in one of some parameters. -/
def Parameter.nesting : List Parameter → Nat
  | [] => 0
  | ⟨_, value, _⟩ :: rest => max value.nesting (Parameter.nesting rest)

end

/-- The nesting of the most deeply nested rule of a list. -/
def deepest {α : Type} (nesting : α → Nat) (as : List α) : Nat :=
  as.foldr (fun a n => max (nesting a) n) 0

/-- How many calls are inside each other in an object map; a parent is found without any. -/
def ObjectMap.nesting : ObjectMap → Nat
  | .term m => m.nesting
  | .parent _ => 0

/-- How many calls are inside each other in a predicate-object map. -/
def PredicateObjectMap.nesting (m : PredicateObjectMap) : Nat :=
  max (deepest TermMap.nesting m.predicateMaps)
    (max (deepest ObjectMap.nesting m.objectMaps) (deepest TermMap.nesting m.graphMaps))

/-- How many calls are inside each other in a subject map. -/
def SubjectMap.nesting (m : SubjectMap) : Nat :=
  max m.termMap.nesting (deepest TermMap.nesting m.graphMaps)

/-- How many calls are inside each other in a triples map. -/
def TriplesMap.nesting (m : TriplesMap) : Nat :=
  max (m.subjectMap.elim 0 SubjectMap.nesting)
    (deepest PredicateObjectMap.nesting m.predicateObjectMaps)

/-- How many calls are inside each other in a rule graph. -/
def RuleGraph.nesting (g : RuleGraph) : Nat := deepest TriplesMap.nesting g.triplesMaps

/-! ### Levels of lists -/

theorem le_deepest {α : Type} {nesting : α → Nat} {a : α} {as : List α} (h : a ∈ as) :
    nesting a ≤ deepest nesting as := by
  induction as with
  | nil => cases h
  | cons b as ih =>
      have hcons : deepest nesting (b :: as) = max (nesting b) (deepest nesting as) := rfl
      rcases List.mem_cons.mp h with rfl | h
      · omega
      · have := ih h
        omega

theorem Json.itemLevels_le {items : List Json} {n : Nat} (h : ∀ v ∈ items, v.levels ≤ n) :
    itemLevels items ≤ n := by
  induction items with
  | nil => exact Nat.zero_le n
  | cons v items ih =>
      have hfirst := h v (by simp)
      have hrest := ih fun w hw => h w (by simp [hw])
      rw [itemLevels]
      omega

/-- If calls take five levels in each rule of a list, they do in the list. -/
theorem Json.itemLevels_map_le {α : Type} {write : α → Json} {nesting : α → Nat} {base : Nat}
    (h : ∀ a, (write a).levels ≤ base + 5 * nesting a) (as : List α) :
    itemLevels (as.map write) ≤ base + 5 * deepest nesting as := by
  refine itemLevels_le fun v hv => ?_
  obtain ⟨a, ha, rfl⟩ := List.mem_map.mp hv
  have hwritten := h a
  have hdeepest : nesting a ≤ deepest nesting as := le_deepest ha
  omega

/-! ### Levels of rules -/

theorem TermType.levels_toJson (t : TermType) : t.toJson.levels = 0 := by
  cases t <;> rfl

theorem TermMap.levels_toJson (m : TermMap) :
    m.toJson.levels = m.source.toJson.levels + 1 := by
  obtain ⟨source, termType, datatype, language⟩ := m
  simp only [toJson, levels, memberLevels, termType.levels_toJson, levels_ofOption, Nat.max_zero]

mutual

/-- A term map takes two levels, and a call five more. -/
theorem TermMap.levels_toJson_le : ∀ m : TermMap, m.toJson.levels ≤ 2 + 5 * m.nesting
  | ⟨.constant value, termType, datatype, language⟩ => by
    rw [TermMap.levels_toJson]
    exact Nat.le_add_right 2 _
  | ⟨.reference name, termType, datatype, language⟩ => by
    rw [TermMap.levels_toJson]
    exact Nat.le_add_right 2 _
  | ⟨.template t, termType, datatype, language⟩ => by
    rw [TermMap.levels_toJson]
    exact Nat.le_add_right 2 _
  | ⟨.function ⟨function, parameters⟩, termType, datatype, language⟩ => by
    have hparameters := Parameter.itemLevels_toJson_le parameters
    rw [TermMap.levels_toJson, TermMap.nesting]
    simp only [ValueSource.toJson, FunctionCall.toJson, levels, memberLevels, Nat.max_zero,
      Nat.zero_max]
    omega

theorem Parameter.itemLevels_toJson_le : ∀ ps : List Parameter,
    itemLevels (parametersToJson ps) ≤ 3 + 5 * Parameter.nesting ps
  | [] => Nat.zero_le _
  | ⟨name, value, required⟩ :: rest => by
    have hvalue := TermMap.levels_toJson_le value
    have hrest := Parameter.itemLevels_toJson_le rest
    simp only [parametersToJson, Parameter.toJson, itemLevels, levels, memberLevels, Nat.max_zero,
      Nat.zero_max, Parameter.nesting]
    omega

end

theorem LogicalSource.levels_toJson_le (s : LogicalSource) : s.toJson.levels ≤ 2 := by
  have hformulation : s.formulation.toJson.levels ≤ 1 := by
    cases s.formulation with
    | other name => exact Nat.le_refl 1
    | _ => exact Nat.zero_le 1
  simp only [toJson, levels, memberLevels, levels_ofOption, Nat.max_zero, Nat.zero_max]
  omega

theorem RefObjectMap.levels_toJson_le (r : RefObjectMap) : r.toJson.levels ≤ 3 := by
  have hconditions : itemLevels (r.conditions.map (·.toJson)) ≤ 1 := by
    refine itemLevels_le fun v hv => ?_
    obtain ⟨c, -, rfl⟩ := List.mem_map.mp hv
    exact Nat.le_refl 1
  simp only [toJson, levels, memberLevels, Nat.max_zero, Nat.zero_max]
  omega

theorem ObjectMap.levels_toJson_le (m : ObjectMap) : m.toJson.levels ≤ 4 + 5 * m.nesting := by
  cases m with
  | term m =>
      have hterm := m.levels_toJson_le
      simp only [toJson, levels, memberLevels, Nat.max_zero, nesting]
      omega
  | parent r =>
      have hparent := r.levels_toJson_le
      simp only [toJson, levels, memberLevels, Nat.max_zero, nesting]
      omega

theorem PredicateObjectMap.levels_toJson_le (m : PredicateObjectMap) :
    m.toJson.levels ≤ 6 + 5 * m.nesting := by
  have hpredicates : itemLevels (m.predicateMaps.map (·.toJson)) ≤ _ :=
    itemLevels_map_le TermMap.levels_toJson_le m.predicateMaps
  have hobjects : itemLevels (m.objectMaps.map (·.toJson)) ≤ _ :=
    itemLevels_map_le ObjectMap.levels_toJson_le m.objectMaps
  have hgraphs : itemLevels (m.graphMaps.map (·.toJson)) ≤ _ :=
    itemLevels_map_le TermMap.levels_toJson_le m.graphMaps
  simp only [toJson, levels, memberLevels, Nat.max_zero, nesting]
  omega

theorem SubjectMap.levels_toJson_le (m : SubjectMap) : m.toJson.levels ≤ 4 + 5 * m.nesting := by
  have hterm := m.termMap.levels_toJson_le
  have hgraphs : itemLevels (m.graphMaps.map (·.toJson)) ≤ _ :=
    itemLevels_map_le TermMap.levels_toJson_le m.graphMaps
  have hclasses : itemLevels (m.classes.map .string) ≤ 0 := by
    refine itemLevels_le fun v hv => ?_
    obtain ⟨c, -, rfl⟩ := List.mem_map.mp hv
    exact Nat.le_refl 0
  simp only [toJson, levels, memberLevels, Nat.max_zero, nesting]
  omega

theorem TriplesMap.levels_toJson_le (m : TriplesMap) : m.toJson.levels ≤ 8 + 5 * m.nesting := by
  have hsource : (m.logicalSource.elim .null (·.toJson)).levels ≤ 2 := by
    cases m.logicalSource with
    | none => exact Nat.zero_le 2
    | some source => exact source.levels_toJson_le
  have hsubject : (m.subjectMap.elim .null (·.toJson)).levels
      ≤ 4 + 5 * m.subjectMap.elim 0 SubjectMap.nesting := by
    cases m.subjectMap with
    | none => exact Nat.zero_le _
    | some subjectMap => exact subjectMap.levels_toJson_le
  have hstatements : itemLevels (m.predicateObjectMaps.map (·.toJson)) ≤ _ :=
    itemLevels_map_le PredicateObjectMap.levels_toJson_le m.predicateObjectMaps
  simp only [toJson, levels, memberLevels, Nat.max_zero, Nat.zero_max, nesting]
  omega

/-- **Only calls nest a rule graph deeply.**  Nine levels are enough for one without calls, and five
more for every call that is inside others. -/
theorem RuleGraph.levels_toJson_le (g : RuleGraph) : g.toJson.levels ≤ 9 + 5 * g.nesting := by
  have hmaps : itemLevels (g.triplesMaps.map (·.toJson)) ≤ _ :=
    itemLevels_map_le TriplesMap.levels_toJson_le g.triplesMaps
  simp only [toJson, levels, nesting]
  omega

end RdfMapping
