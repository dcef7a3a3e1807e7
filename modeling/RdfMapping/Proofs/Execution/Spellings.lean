/-
An engine for rules that spell classes in another way.

A class makes a quad for every subject in every graph of the subject map, and so does a
predicate-object map with `rdf:type` and the class as constants.  The two take different ways
through the engine, and they differ in one thing: a constant is resolved against the base, a
class is not.

All that an engine does for a rule graph in another spelling can be said in terms of the rule
graph as it was.  Every step but one is the same step, since a spelling changes nothing that a
parent or a statement could be looked up by.  The exception is `describe_respell`, which says
where the quads about classes are made.
-/
import Mathlib.Data.List.Perm.Basic
import RdfMapping.Proofs.Execution.Steps
import RdfMapping.Proofs.Rules.Respelling

namespace RdfMapping

/-! ### What classes stand for -/

/-- The IRI that a constant is made into: what it resolves to against the base, or the constant
itself if it does not resolve. -/
def resolvedIri (base : Option Iri) (iri : String) : String := (absoluteIri? base iri).getD iri

/-- An absolute IRI is left as it is. -/
theorem resolvedIri_of_isValid (base : Option Iri) {iri : String} (h : Iri.isValid iri = true) :
    resolvedIri base iri = iri := by
  simp [resolvedIri, absoluteIri?, h]

/-- Without a base nothing is resolved. -/
theorem resolvedIri_none (iri : String) : resolvedIri none iri = iri := by
  unfold resolvedIri absoluteIri?
  split <;> rfl

/-- The IRIs that some classes are made into in a spelling. -/
def Spelling.iris (w : Spelling) (base : Option Iri) (classes : List String) : List String :=
  w.kept classes ++ (w.spelled classes).map (resolvedIri base)

/-- Two spellings in which some classes stand for the same IRIs. -/
def Spelling.Agree (w w' : Spelling) (base : Option Iri) (classes : List String) : Prop :=
  (w.iris base classes).Perm (w'.iris base classes)

/-! ### Quads about classes -/

section ClassQuads

variable (subjects : List Term) (graphs : List (Option Term))

theorem object_of_mem_classQuads {classes : List String} {q : Quad}
    (hq : q ∈ classQuads subjects classes graphs) : q.object.isLiteral = false := by
  simp only [classQuads, List.mem_flatMap, List.mem_map] at hq
  obtain ⟨t, -, c, -, g, -, rfl⟩ := hq
  rfl

theorem classQuads_append (cs ds : List String) :
    (classQuads subjects cs graphs ++ classQuads subjects ds graphs).Perm
      (classQuads subjects (cs ++ ds) graphs) := by
  unfold classQuads
  simp only [List.flatMap_append]
  exact List.flatMap_append_perm _ _ _

theorem classQuads_perm {cs ds : List String} (h : cs.Perm ds) :
    (classQuads subjects cs graphs).Perm (classQuads subjects ds graphs) :=
  List.Perm.flatMap_left _ fun _ _ => h.flatMap_right _

/-- The quads about some classes may be made class by class. -/
theorem flatMap_classQuads (cs : List String) :
    (cs.flatMap fun c => classQuads subjects [c] graphs).Perm (classQuads subjects cs graphs) := by
  induction cs with
  | nil => simp [classQuads]
  | cons c cs ih =>
      rw [List.flatMap_cons]
      exact (ih.append_left _).trans (classQuads_append subjects graphs [c] cs)

/-- The quads about classes that a spelling makes of its statements. -/
def spelledQuads (base : Option Iri) (spelled : List String) : List Quad :=
  spelled.flatMap fun c => classQuads subjects [resolvedIri base c] graphs

theorem object_of_mem_spelledQuads {base : Option Iri} {spelled : List String} {q : Quad}
    (hq : q ∈ spelledQuads subjects graphs base spelled) : q.object.isLiteral = false := by
  obtain ⟨c, -, hq⟩ := List.mem_flatMap.mp hq
  exact object_of_mem_classQuads subjects graphs hq

/-- A spelling makes the quads about the IRIs that its classes stand for. -/
theorem classQuads_spelling (w : Spelling) (base : Option Iri) (classes : List String) :
    (classQuads subjects (w.kept classes) graphs
        ++ spelledQuads subjects graphs base (w.spelled classes)).Perm
      (classQuads subjects (w.iris base classes) graphs) := by
  have hspelled : (spelledQuads subjects graphs base (w.spelled classes)).Perm
      (classQuads subjects ((w.spelled classes).map (resolvedIri base)) graphs) := by
    unfold spelledQuads
    rw [← List.flatMap_map (resolvedIri base) fun c => classQuads subjects [c] graphs]
    exact flatMap_classQuads subjects graphs _
  exact (hspelled.append_left _).trans (classQuads_append subjects graphs _ _)

end ClassQuads

/-! ### Engines for another spelling -/

namespace Engine

open Step

/-- The engine for the rules in another spelling. -/
def respell (w : Spelling) (e : Engine) : Engine := { e with graph := e.graph.respell w }

/-- The site with its triples map in another spelling. -/
def Site.respell (w : Spelling) (site : Site) : Site :=
  { site with triplesMap := site.triplesMap.respell w }

section Respell

variable (e : Engine) (w : Spelling)

theorem scan_respell {α : Type} (iri : String) (visit : α → Nat → Record → Step α)
    (items : List Item) :
    ∀ n a, (e.respell w).scan iri visit n a items = e.scan iri visit n a items := by
  induction items with
  | nil => exact fun _ _ => rfl
  | cons item items ih =>
      intro n a
      unfold scan
      simp only [ih]
      rfl

theorem subjectMapOf_respell (m : TriplesMap) :
    subjectMapOf (m.respell w) = (·.respell w) <$> subjectMapOf m := by
  unfold subjectMapOf
  rw [TriplesMap.respell_subjectMap]
  cases m.subjectMap <;> rfl

theorem layoutsFor_respell (parent : String) (asked : List String) :
    (e.respell w).layoutsFor parent asked = e.layoutsFor parent asked := by
  unfold layoutsFor respell
  rw [RuleGraph.keyLayouts_respell]

theorem buildIndex_respell (position : Nat) (parent : TriplesMap) (layout : List String) :
    (e.respell w).buildIndex position (parent.respell w) layout
      = e.buildIndex position parent layout := by
  unfold buildIndex
  rw [subjectMapOf_respell]
  simp only [bind_map_left, layoutsFor_respell, scan_respell]
  rfl

theorem indexFor_respell (position : Nat) (parent : TriplesMap) (layout : List String) :
    (e.respell w).indexFor position (parent.respell w) layout
      = e.indexFor position parent layout := by
  rw [indexFor_eq, indexFor_eq]
  unfold freshIndex
  rw [buildIndex_respell]
  rfl

theorem parentOf_respell (r : RefObjectMap) (child : TriplesMap) :
    (e.respell w).parentOf r (child.respell w)
      = (fun found => (found.1, found.2.respell w)) <$> e.parentOf r child := by
  unfold parentOf respell
  rw [RuleGraph.position?_respell, RuleGraph.get?_respell]
  cases e.graph.position? r.parent with
  | none => rfl
  | some position => cases e.graph.get? r.parent <;> rfl

/-- A reference to a parent gives the same in every spelling. -/
theorem resolve_respell (r : RefObjectMap) (child : TriplesMap) (record : Record) :
    (e.respell w).resolve r (child.respell w) record = e.resolve r child record := by
  unfold resolve
  rw [parentOf_respell]
  simp only [bind_map_left, subjectMapOf_respell, indexFor_respell]
  rfl

theorem allTermsAt_respell (site : Site) (ms : List TermMap) :
    (e.respell w).allTermsAt (site.respell w) ms = e.allTermsAt site ms := by
  induction ms with
  | nil => rfl
  | cons m ms ih =>
      unfold allTermsAt
      rw [ih]
      rfl

theorem allObjectsAt_respell (site : Site) (ms : List ObjectMap) :
    (e.respell w).allObjectsAt (site.respell w) ms = e.allObjectsAt site ms := by
  induction ms with
  | nil => rfl
  | cons m ms ih =>
      have hfirst : (e.respell w).objectsAt (site.respell w) m = e.objectsAt site m := by
        cases m with
        | term m => rfl
        | parent r =>
            unfold objectsAt
            dsimp only
            rw [Site.respell, resolve_respell]
            rfl
      unfold allObjectsAt
      rw [ih, hfirst]

theorem addGraphsAt_respell (site : Site) (graphs : List (Option Term)) (ms : List TermMap) :
    (e.respell w).addGraphsAt (site.respell w) graphs ms = e.addGraphsAt site graphs ms := by
  unfold addGraphsAt
  rw [allTermsAt_respell]

/-- A statement comes to the same in every spelling. -/
theorem statementsAt_respell (site : Site) (s : SubjectMap) (subjects : List Term)
    (graphs : List (Option Term)) (p : PredicateObjectMap) :
    (e.respell w).statementsAt (site.respell w) (s.respell w) subjects graphs p
      = e.statementsAt site s subjects graphs p := by
  unfold statementsAt
  simp only [allTermsAt_respell, allObjectsAt_respell, addGraphsAt_respell]
  rfl

end Respell

/-! ### Statements for classes -/

section Classes

variable (e : Engine)

theorem termsAt_constant (site : Site) (iri : String) :
    e.termsAt site (.constant iri) = pure [.iri (resolvedIri e.generator.base iri)] := by
  have hterm : (TermMap.constant iri).constantTerm e.generator.base site.scope iri
      = .iri (resolvedIri e.generator.base iri) := by
    unfold TermMap.constantTerm TermMap.termOf? resolvedIri
    dsimp only [TermMap.constant, TermMap.ofSource]
    cases absoluteIri? e.generator.base iri <;> rfl
  rw [← hterm]
  rfl

theorem emit_nil : (emit [] : Step Unit) = pure () := by
  funext s
  show EStateM.Result.ok () { s with progress := { s.progress with
    quads := s.progress.quads ++ ([] : List Quad).toArray } } = .ok () s
  simp

theorem emit_then_emit (as bs : List Quad) :
    (do emit as; emit bs : Step Unit) = emit (as ++ bs) := by
  funext s
  show EStateM.Result.ok () { s with progress := { s.progress with
      quads := s.progress.quads ++ as.toArray ++ bs.toArray } }
    = .ok () { s with progress := { s.progress with
      quads := s.progress.quads ++ (as ++ bs).toArray } }
  simp

/-- The statements for a class are quads about the IRI that it stands for, in the graphs of the
subjects. -/
theorem statementsAt_ofClass (site : Site) (s : SubjectMap) (subjects : List Term)
    (graphs : List (Option Term)) (iri : String) :
    e.statementsAt site s subjects graphs (.ofClass iri)
      = emit (classQuads subjects [resolvedIri e.generator.base iri]
          (targetGraphs (!s.graphMaps.isEmpty) graphs)) := by
  have htype : resolvedIri e.generator.base Rdf.type = Rdf.type :=
    resolvedIri_of_isValid _ (by decide +kernel)
  have hpredicates : e.allTermsAt site [.constant Rdf.type] = pure [.iri Rdf.type] := by
    unfold allTermsAt
    rw [termsAt_constant, htype]
    rfl
  have hobjects : e.allObjectsAt site [.constantIri iri]
      = pure [.iri (resolvedIri e.generator.base iri)] := by
    unfold allObjectsAt objectsAt ObjectMap.constantIri
    dsimp only
    rw [termsAt_constant]
    rfl
  have hgraphs : e.addGraphsAt site graphs [] = pure graphs := by
    show (pure (graphs ++ []) : Step _) = pure graphs
    rw [List.append_nil]
  unfold statementsAt PredicateObjectMap.ofClass PredicateObjectMap.constant
    PredicateObjectMap.single
  dsimp only
  rw [hpredicates, hobjects, hgraphs]
  simp only [pure_bind, List.isEmpty_cons, Bool.false_eq_true, if_false, List.isEmpty_nil,
    Bool.not_true, Bool.or_false]
  have hquads : statementQuads subjects [.iri Rdf.type] [.iri (resolvedIri e.generator.base iri)]
        (targetGraphs (!s.graphMaps.isEmpty) graphs)
      = classQuads subjects [resolvedIri e.generator.base iri]
        (targetGraphs (!s.graphMaps.isEmpty) graphs) := by
    simp [statementQuads, classQuads]
  rw [hquads]
  split
  · rename_i hnone
    have hempty : classQuads subjects [resolvedIri e.generator.base iri] [] = [] := by
      simp [classQuads]
    rw [List.isEmpty_iff.mp hnone, hempty, emit_nil]
  · rfl

theorem forM_statementsAt_ofClass (site : Site) (s : SubjectMap) (subjects : List Term)
    (graphs : List (Option Term)) (classes : List String) :
    (classes.map PredicateObjectMap.ofClass).forM (e.statementsAt site s subjects graphs)
      = emit (spelledQuads subjects (targetGraphs (!s.graphMaps.isEmpty) graphs)
          e.generator.base classes) := by
  induction classes with
  | nil => exact emit_nil.symm
  | cons c classes ih =>
      rw [List.map_cons, List.forM, ih, statementsAt_ofClass, emit_then_emit]
      rfl

/-- In a spelling, what is said about subjects is first their classes, then what is stated in any
spelling, then their classes that are spelled out. -/
theorem describe_respell (w : Spelling) {site : Site} {s : SubjectMap}
    (hs : site.triplesMap.subjectMap = some s) (subjects : List Term) :
    (e.respell w).describe (site.respell w) (s.respell w) subjects = (do
      let graphs ← e.addGraphsAt site [] s.graphMaps
      let targets := targetGraphs (!s.graphMaps.isEmpty) graphs
      emit (classQuads subjects (w.kept s.classes) targets)
      site.triplesMap.predicateObjectMaps.forM (e.statementsAt site s subjects graphs)
      emit (spelledQuads subjects targets e.generator.base (w.spelled s.classes))) := by
  have hclasses : site.triplesMap.classes = s.classes := by
    unfold TriplesMap.classes
    rw [hs]
    rfl
  have hstatements : ∀ graphs,
      (e.respell w).statementsAt (site.respell w) (s.respell w) subjects graphs
        = e.statementsAt site s subjects graphs := fun graphs =>
    funext (e.statementsAt_respell w site s subjects graphs)
  unfold describe
  rw [addGraphsAt_respell]
  refine congrArg (e.addGraphsAt site [] s.graphMaps >>= ·) (funext fun graphs => ?_)
  refine congrArg (emit _ >>= ·) (funext fun _ => ?_)
  rw [hstatements, Site.respell, TriplesMap.respell_predicateObjectMaps, hclasses,
    List.forM_eq_forM, List.forM_append, ← List.forM_eq_forM, forM_statementsAt_ofClass]

end Classes

end Engine

end RdfMapping
