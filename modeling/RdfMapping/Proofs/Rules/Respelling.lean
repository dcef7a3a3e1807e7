/-
Rule graphs whose classes are written in another way.

A class of a subject map is short for a statement about every subject, so a triples map can
say the same with a predicate-object map of its own for each class.  A `Spelling` is any mixture
of the two: what becomes of the classes as classes, and which statements for classes are put
behind those that are there already.

Nothing but the classes changes in this.  Identities, positions, sources and parents are those
of the triples map as it was, and so are the faults that validation and selection find.
-/
import RdfMapping.Proofs.Rules.Selection
import RdfMapping.Vocabulary

namespace RdfMapping

/-- The statements that a class is short for. -/
def PredicateObjectMap.ofClass (iri : String) : PredicateObjectMap :=
  .constant Rdf.type (.constantIri iri)

/-- A way to write the classes of a subject map. -/
structure Spelling where
  /-- The classes that are written in place of some classes. -/
  kept : List String → List String
  /-- The classes that are written as statements in place of some classes. -/
  spelled : List String → List String

namespace Spelling

/-- Every class is written as a class, in the way that a function writes it. -/
def asClasses (write : String → String) : Spelling := ⟨List.map write, fun _ => []⟩

/-- Every class is written as a statement. -/
def asStatements : Spelling := ⟨fun _ => [], id⟩

end Spelling

/-! ### Triples maps -/

/-- The subject map in another spelling. -/
def SubjectMap.respell (w : Spelling) (s : SubjectMap) : SubjectMap :=
  { s with classes := w.kept s.classes }

namespace TriplesMap

/-- The classes that the subjects belong to. -/
def classes (m : TriplesMap) : List String := m.subjectMap.elim [] (·.classes)

/-- The triples map in another spelling. -/
def respell (w : Spelling) (m : TriplesMap) : TriplesMap :=
  { m with
    subjectMap := m.subjectMap.map (·.respell w)
    predicateObjectMaps := m.predicateObjectMaps ++ (w.spelled m.classes).map .ofClass }

variable (w : Spelling) (m : TriplesMap)

@[simp] theorem respell_iri : (m.respell w).iri = m.iri := rfl

@[simp] theorem respell_logicalSource : (m.respell w).logicalSource = m.logicalSource := rfl

@[simp] theorem respell_subjectMap :
    (m.respell w).subjectMap = m.subjectMap.map (·.respell w) := rfl

@[simp] theorem respell_predicateObjectMaps :
    (m.respell w).predicateObjectMaps
      = m.predicateObjectMaps ++ (w.spelled m.classes).map .ofClass := rfl

/-- Statements for classes have no parents. -/
@[simp] theorem respell_parents : (m.respell w).parents = m.parents := by
  have hnone : ((w.spelled m.classes).map PredicateObjectMap.ofClass).flatMap (·.parents) = [] := by
    rw [List.flatMap_eq_nil_iff]
    intro p hp
    obtain ⟨c, -, rfl⟩ := List.mem_map.mp hp
    rfl
  unfold parents
  rw [respell_predicateObjectMaps, List.flatMap_append, hnone, List.append_nil]

/-- The triples map with each class spelled out: a statement with the constant predicate `rdf:type`
and the class as constant object, behind all other statements. -/
def spelledOut (m : TriplesMap) : TriplesMap :=
  { m with
    subjectMap := m.subjectMap.map fun s => { s with classes := [] }
    predicateObjectMaps :=
      m.predicateObjectMaps ++ m.classes.map fun c => .constant Rdf.type (.constantIri c) }

/-- Where every class is written as it is, nothing changes. -/
theorem respell_asClasses_eq_self {write : String → String} {m : TriplesMap}
    (h : ∀ c ∈ m.classes, write c = c) : m.respell (.asClasses write) = m := by
  obtain ⟨iri, source, subjectMap, statements⟩ := m
  cases subjectMap with
  | none => simp [respell, Spelling.asClasses]
  | some s =>
      have hclasses : s.classes.map write = s.classes :=
        (List.map_congr_left h).trans (List.map_id _)
      simp [respell, SubjectMap.respell, Spelling.asClasses, hclasses]

end TriplesMap

/-! ### Rule graphs -/

namespace RuleGraph

/-- The rule graph in another spelling. -/
def respell (w : Spelling) (g : RuleGraph) : RuleGraph := ⟨g.triplesMaps.map (·.respell w)⟩

/-- The rule graph with each class spelled out as a statement. -/
def spelledOut (g : RuleGraph) : RuleGraph := ⟨g.triplesMaps.map (·.spelledOut)⟩

theorem spelledOut_eq (g : RuleGraph) : g.spelledOut = g.respell .asStatements := rfl

variable (w : Spelling) (g : RuleGraph)

@[simp] theorem position?_respell (iri : String) :
    (g.respell w).position? iri = g.position? iri := by
  unfold position? respell
  rw [List.findIdx?_map]
  rfl

@[simp] theorem get?_respell (iri : String) :
    (g.respell w).get? iri = (g.get? iri).map (·.respell w) := by
  unfold get? respell
  rw [List.find?_map]
  rfl

@[simp] theorem keyLayouts_respell (parent : String) :
    (g.respell w).keyLayouts parent = g.keyLayouts parent := by
  unfold keyLayouts respell
  rw [List.flatMap_map]
  simp

/-- Where every class is written as it is, nothing changes. -/
theorem respell_asClasses_eq_self {write : String → String} {g : RuleGraph}
    (h : ∀ m ∈ g.triplesMaps, ∀ c ∈ m.classes, write c = c) :
    g.respell (.asClasses write) = g := by
  have hmaps : g.triplesMaps.map (·.respell (.asClasses write)) = g.triplesMaps.map id :=
    List.map_congr_left fun m hm => TriplesMap.respell_asClasses_eq_self (h m hm)
  rw [List.map_id] at hmaps
  unfold respell
  rw [hmaps]

/-! ### Validation -/

theorem checkPredicateObjectMap_respell :
    (g.respell w).checkPredicateObjectMap = g.checkPredicateObjectMap := by
  have hobjects : (g.respell w).checkObjectMap = g.checkObjectMap := by
    funext map
    cases map with
    | term map => rfl
    | parent r => simp [checkObjectMap]
  funext p
  unfold checkPredicateObjectMap
  rw [hobjects]

/-- There is nothing wrong with the statements of a class. -/
theorem checkPredicateObjectMap_ofClass (iri : String) :
    g.checkPredicateObjectMap (.ofClass iri) = .ok () := rfl

theorem checkTriplesMap_respell (position : Nat) (m : TriplesMap) :
    (g.respell w).checkTriplesMap position (m.respell w)
      = g.checkTriplesMap position m := by
  have hclasses : ((w.spelled m.classes).map PredicateObjectMap.ofClass).forM
      g.checkPredicateObjectMap = .ok () := by
    rw [forM_eq_ok_iff]
    intro p hp
    obtain ⟨c, -, rfl⟩ := List.mem_map.mp hp
    exact g.checkPredicateObjectMap_ofClass c
  have hstatements : (m.respell w).predicateObjectMaps.forM g.checkPredicateObjectMap
      = m.predicateObjectMaps.forM g.checkPredicateObjectMap := by
    rw [TriplesMap.respell_predicateObjectMaps, List.forM_eq_forM, List.forM_append,
      ← List.forM_eq_forM, hclasses]
    cases m.predicateObjectMaps.forM g.checkPredicateObjectMap <;> rfl
  unfold checkTriplesMap
  rw [position?_respell, checkPredicateObjectMap_respell, hstatements]
  cases hsubject : m.subjectMap with
  | none => simp [hsubject]
  | some s => simp [hsubject, SubjectMap.respell, checkSubjectMap]

/-- **Validation finds the same fault, or none, however classes are written.** -/
theorem validate_respell : (g.respell w).validate = g.validate := by
  unfold validate
  rw [respell, List.zipIdx_map, List.forM_eq_forM, List.forM_map, ← List.forM_eq_forM]
  congr 1
  funext entry
  obtain ⟨m, position⟩ := entry
  exact congrArg (Except.mapError _) (g.checkTriplesMap_respell w position m)

/-! ### Selection -/

theorem select_respell (filter : Option (List String)) :
    (g.respell w).select filter = g.select filter := by
  have hsize : (g.respell w).size = g.size := List.length_map _
  cases filter with
  | none => simp [select, hsize]
  | some iris => simp [select, hsize]

/-- What is selected is respelled where it stands. -/
theorem selected_respell (filter : Option (List String)) :
    (g.respell w).selected filter
      = (g.selected filter).map fun entry => (entry.1, entry.2.respell w) := by
  unfold selected
  rw [respell, List.zipIdx_map, List.filter_map, List.map_map, List.map_map]
  rfl

end RuleGraph

end RdfMapping
