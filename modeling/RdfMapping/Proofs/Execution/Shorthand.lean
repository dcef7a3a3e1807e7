/-
Classes are short for statements.

A class that the base leaves as it is, as it does with every absolute IRI, may be spelled out as
a statement without anything changing but the order of the quads: `classes_shorthand`.  A class
that is relative to the base may not, because it is resolved in the statement and not in the
class.

More generally, any two spellings of the same rules come to the same if the classes stand for the
same IRIs in them, `run_respell`.  Quads about classes come before the other statements of a
record in the one and behind them in the other; they are owed for as long as the one has them
and the other has not.
-/
import RdfMapping.Proofs.Execution.Abreast
import RdfMapping.Proofs.Execution.SetAndBag
import RdfMapping.Proofs.Execution.Spellings
import RdfMapping.Proofs.Quad.Reordering

namespace RdfMapping

/-! ### What stays the same -/

/-- What two triples maps leave behind is the same but for the order of the quads, and for the
number of those that were thrown away. -/
structure Contribution.SameButOrder (a b : Contribution) : Prop where
  quads : Reordered a.quads b.quads
  diagnostics : a.diagnostics = b.diagnostics

/-- Two runs end with the same error, or with the same quads in some order and the same
diagnostics. -/
inductive SameButOrder : Except Error Execution → Except Error Execution → Prop
  | error (error : Error) : SameButOrder (.error error) (.error error)
  | ok {a b : Execution} (quads : a.store.toList.Perm b.store.toList)
      (diagnostics : a.report.diagnostics = b.report.diagnostics) :
      SameButOrder (.ok a) (.ok b)

/-! ### Two spellings side by side -/

/-- Spellings that agree make the same quads about classes, some early and some late. -/
theorem reordered_classQuads {w w' : Spelling} {base : Option Iri} {classes : List String}
    (h : w.Agree w' base classes) (subjects : List Term) (graphs : List (Option Term)) :
    Reordered
      (classQuads subjects (w.kept classes) graphs
        ++ spelledQuads subjects graphs base (w.spelled classes))
      (classQuads subjects (w'.kept classes) graphs
        ++ spelledQuads subjects graphs base (w'.spelled classes)) := by
  refine .of_perm ?_ fun q hq => ?_
  · have hleft := classQuads_spelling subjects graphs w base classes
    have hright := classQuads_spelling subjects graphs w' base classes
    exact hleft.trans ((classQuads_perm subjects graphs h).trans hright.symm)
  · rcases List.mem_append.mp hq with hq | hq
    · exact object_of_mem_classQuads subjects graphs hq
    · exact object_of_mem_spelledQuads subjects graphs hq

namespace Engine

open Step

/-- The same quads up to order, once each side has made those that it still owes. -/
def Owing (owed owed' : List Quad) (qs rs : List Quad) : Prop :=
  Reordered (qs ++ owed) (rs ++ owed')

theorem extends_owing {owed owed' : List Quad} (h : ∀ q ∈ owed, q.object.isLiteral = false)
    (h' : ∀ q ∈ owed', q.object.isLiteral = false) : Extends (Owing owed owed') := by
  intro qs rs hqs more
  have hleft := (Reordered.append_right_comm qs more h).symm
  have hright := Reordered.append_right_comm rs more h'
  exact hleft.trans ((hqs.append (.refl more)).trans hright)

section Spellings

variable (e : Engine) (w w' : Spelling)

theorem abreast_describe {site : Site} {s : SubjectMap}
    (hs : site.triplesMap.subjectMap = some s)
    (hagree : w.Agree w' e.generator.base s.classes)
    (subjects : List Term) :
    Abreast Reordered Reordered
      ((e.respell w).describe (site.respell w) (s.respell w) subjects)
      ((e.respell w').describe (site.respell w') (s.respell w') subjects) := by
  rw [e.describe_respell w hs, e.describe_respell w' hs]
  refine abreast_bind (e.abreast_addGraphsAt site [] s.graphMaps) fun graphs => ?_
  dsimp only
  generalize targetGraphs (!s.graphMaps.isEmpty) graphs = targets
  have hclasses := reordered_classQuads hagree subjects targets
  have hextends : Extends
      (Owing (spelledQuads subjects targets e.generator.base (w.spelled s.classes))
        (spelledQuads subjects targets e.generator.base (w'.spelled s.classes))) :=
    extends_owing (fun _ => object_of_mem_spelledQuads subjects targets)
      fun _ => object_of_mem_spelledQuads subjects targets
  revert hclasses hextends
  generalize spelledQuads subjects targets e.generator.base (w.spelled s.classes) = owed
  generalize spelledQuads subjects targets e.generator.base (w'.spelled s.classes) = owed'
  intro hclasses hextends
  -- What is spelled out is owed from the first quads about classes to the last ones.
  have hfirst : Abreast Reordered (Owing owed owed')
      (emit (classQuads subjects (w.kept s.classes) targets))
      (emit (classQuads subjects (w'.kept s.classes) targets)) := by
    refine abreast_emit fun qs rs h => ?_
    unfold Owing
    rw [List.append_assoc, List.append_assoc]
    exact h.append hclasses
  refine abreast_bind hfirst fun _ => ?_
  refine abreast_bind (abreast_forM _ fun p _ => e.abreast_statementsAt site hextends s _ _ p)
    fun _ => ?_
  exact abreast_emit fun qs rs h => h

theorem abreast_visitRecord (policy : SubjectErrorPolicy) {m : TriplesMap} (scope : String)
    {s : SubjectMap} (hs : m.subjectMap = some s)
    (hagree : w.Agree w' e.generator.base s.classes)
    (n : Nat) (record : Record) :
    Abreast Reordered Reordered
      ((e.respell w).visitRecord policy (m.respell w) scope (s.respell w) n record)
      ((e.respell w').visitRecord policy (m.respell w') scope (s.respell w') n record) := by
  refine abreast_bind (abreast_modify fun _ _ => rfl) fun _ => ?_
  refine abreast_bind (e.abreast_evaluate s.termMap record scope) fun result => ?_
  cases result with
  | error error =>
      cases policy with
      | skipRecord =>
          exact abreast_bind (abreast_absorb _ _ _) fun _ => abreast_modify fun _ _ => rfl
      | abortTriplesMap => exact abreast_throw _
  | ok subjects =>
      cases subjects with
      | nil => exact abreast_bind (abreast_log _) fun _ => abreast_modify fun _ _ => rfl
      | cons t ts =>
          have hsite : (⟨m, scope, n, record⟩ : Site).triplesMap.subjectMap = some s := hs
          exact e.abreast_describe w w' hsite hagree (t :: ts)

theorem abreast_runTriplesMap (policy : SubjectErrorPolicy) (position : Nat) {m : TriplesMap}
    (hagree : w.Agree w' e.generator.base m.classes) :
    Abreast Reordered Reordered ((e.respell w).runTriplesMap policy position (m.respell w))
      ((e.respell w').runTriplesMap policy position (m.respell w')) := by
  refine abreast_inSpan _ ?_
  refine abreast_bind (abreast_sourceOf m) fun source => ?_
  rw [subjectMapOf_respell, subjectMapOf_respell, bind_map_left, bind_map_left]
  unfold subjectMapOf
  cases hs : m.subjectMap with
  | none => exact abreast_throw _
  | some s =>
      have hclasses : m.classes = s.classes := by
        unfold TriplesMap.classes
        rw [hs]
        rfl
      rw [hclasses] at hagree
      dsimp only
      rw [pure_bind, pure_bind]
      refine abreast_bind (abreast_openSource _ _ _) fun items => ?_
      rw [scan_respell, scan_respell]
      refine abreast_bind (e.abreast_scan _ (fun _ n record =>
        e.abreast_visitRecord w w' policy _ hs hagree n record) items 0 ()) fun _ => ?_
      refine abreast_get_bind fun u u' hu => ?_
      -- The counts are the same, since they take in the number of quads only.
      have hstats : u'.progress.stats m.iri .completed = u.progress.stats m.iri .completed := by
        have hsize : u'.progress.quads.size = u.progress.quads.size := by
          simpa using hu.quads.perm.length_eq.symm
        rw [hu.rest]
        simp [Progress.stats, RunState.withQuads, hsize]
      rw [TriplesMap.respell_iri, TriplesMap.respell_iri, hstats]
      exact abreast_log _

/-- What a triples map leaves behind, from states that may have any quads collected. -/
theorem ends_contribution (c : Config) (position : Nat) {m : TriplesMap}
    (hagree : w.Agree w' e.generator.base m.classes)
    {s s' : RunState} (hs : s.Akin AnyQuads s') :
    Ends Contribution.SameButOrder AnyQuads
      ((e.respell w).contribution c position (m.respell w) s)
      ((e.respell w').contribution c position (m.respell w') s') := by
  have hclean : RunState.Akin Reordered { s with progress := {} } { s' with progress := {} } := by
    refine ⟨.refl [], ?_⟩
    rw [hs.rest]
    rfl
  have hrun := e.abreast_runTriplesMap w w' c.subjectFunctionErrors position hagree _ _ hclean
  rw [contribution_eq, contribution_eq]
  revert hrun
  generalize (e.respell w).runTriplesMap c.subjectFunctionErrors position (m.respell w)
    { s with progress := {} } = r
  generalize (e.respell w').runTriplesMap c.subjectFunctionErrors position (m.respell w')
    { s' with progress := {} } = r'
  intro hrun
  cases hrun with
  | @ok _ _ u u' _ hu =>
      have hnoted : u'.noted = u.noted := by
        rw [hu.rest]
        rfl
      dsimp only
      refine .ok ⟨hu.quads, hnoted.symm⟩ ⟨trivial, ?_⟩
      rw [hu.rest]
      rfl
  | @error failure u u' hu =>
      have hnoted : u'.noted = u.noted := by
        rw [hu.rest]
        rfl
      dsimp only
      split
      · refine .ok ⟨.refl [], ?_⟩ ⟨trivial, ?_⟩
        · dsimp only
          rw [hnoted]
          rfl
        · rw [hu.rest]
          rfl
      · refine .error failure ⟨trivial, ?_⟩
        rw [hu.rest]
        rfl

/-- Triples maps one after the other. -/
theorem ends_contributions (c : Config) {selected : List (Nat × TriplesMap)}
    (hagree : ∀ entry ∈ selected, w.Agree w' e.generator.base entry.2.classes)
    {s s' : RunState} (hs : s.Akin AnyQuads s') :
    Ends (List.Forall₂ Contribution.SameButOrder) AnyQuads
      ((e.respell w).contributions c
        (selected.map fun entry => (entry.1, entry.2.respell w)) s)
      ((e.respell w').contributions c
        (selected.map fun entry => (entry.1, entry.2.respell w')) s') := by
  induction selected generalizing s s' with
  | nil => exact .ok .nil hs
  | cons entry selected ih =>
      obtain ⟨position, m⟩ := entry
      have hfirst := e.ends_contribution w w' c position (hagree (position, m) (by simp)) hs
      rw [List.map_cons, List.map_cons, contributions_cons_apply, contributions_cons_apply]
      revert hfirst
      generalize (e.respell w).contribution c position (m.respell w) s = r
      generalize (e.respell w').contribution c position (m.respell w') s' = r'
      intro hfirst
      cases hfirst with
      | error failure hnext => exact .error failure hnext
      | @ok first first' u u' hvalue hnext =>
          have hrest := ih (fun other hother => hagree other (by simp [hother])) hnext
          dsimp only
          revert hrest
          generalize (e.respell w).contributions c
            (selected.map fun entry => (entry.1, entry.2.respell w)) u = r
          generalize (e.respell w').contributions c
            (selected.map fun entry => (entry.1, entry.2.respell w')) u' = r'
          intro hrest
          cases hrest with
          | error failure hlast => exact .error failure hlast
          | ok hvalues hlast => exact .ok (.cons hvalue hvalues) hlast

end Spellings

end Engine

/-! ### Runs -/

namespace Executor

variable {x : Executor} {graph : RuleGraph} {filter : Option (List String)} {session : Session}

/-- The quads of contributions that are the same but for the order. -/
theorem reordered_flatMap {parts parts' : List Contribution}
    (h : List.Forall₂ Contribution.SameButOrder parts parts') :
    Reordered (parts.flatMap (·.quads)) (parts'.flatMap (·.quads)) := by
  induction h with
  | nil => exact .refl []
  | cons hpart _ ih => exact hpart.quads.append ih

theorem diagnostics_flatMap {parts parts' : List Contribution}
    (h : List.Forall₂ Contribution.SameButOrder parts parts') :
    parts.flatMap (·.diagnostics) = parts'.flatMap (·.diagnostics) := by
  induction h with
  | nil => rfl
  | cons hpart _ ih => rw [List.flatMap_cons, List.flatMap_cons, hpart.diagnostics, ih]

/-- A rule graph sets out in every spelling or fails with the same error in all. -/
theorem prepare_respell (x : Executor) (graph : RuleGraph) (filter : Option (List String))
    (w : Spelling) :
    x.prepare (graph.respell w) filter = (x.prepare graph filter).map fun prepared =>
      (prepared.1.respell w, prepared.2.map fun entry => (entry.1, entry.2.respell w)) := by
  cases hprepare : x.prepare graph filter with
  | error error =>
      have hcauses := prepare_eq_error_iff.mp hprepare
      exact prepare_eq_error_iff.mpr (by rwa [RuleGraph.validate_respell, RuleGraph.select_respell])
  | ok prepared =>
      obtain ⟨base, positions, hbase, hvalid, hselect, rfl⟩ := prepare_eq_ok_iff.mp hprepare
      refine prepare_eq_ok_iff.mpr ⟨base, positions, hbase, ?_, ?_, ?_⟩
      · rw [RuleGraph.validate_respell, hvalid]
      · rw [RuleGraph.select_respell, hselect]
      · rw [RuleGraph.selected_respell]
        rfl

/-- **The spelling of classes does not matter** as long as they stand for the same IRIs: two runs
from one session end in the same way, but for the order of the quads. -/
theorem run_respell (x : Executor) (graph : RuleGraph) (filter : Option (List String))
    (session : Session) (w w' : Spelling)
    (hagree : ∀ base, x.config.base = .ok base → ∀ m ∈ graph.triplesMaps,
      w.Agree w' base m.classes) :
    SameButOrder (x.run (graph.respell w) filter session).result
      (x.run (graph.respell w') filter session).result := by
  have hleft := x.prepare_respell graph filter w
  have hright := x.prepare_respell graph filter w'
  cases hprepare : x.prepare graph filter with
  | error error =>
      rw [hprepare] at hleft hright
      rw [run_eq_of_prepare_eq_error hleft, run_eq_of_prepare_eq_error hright]
      exact .error error
  | ok prepared =>
      obtain ⟨base, positions, hbase, -, -, rfl⟩ := prepare_eq_ok_iff.mp hprepare
      rw [hprepare] at hleft hright
      have hselected : ∀ entry ∈ graph.selected filter,
          w.Agree w' (x.engine graph base).generator.base entry.2.classes :=
        fun _ hentry => hagree base hbase _ (RuleGraph.mem_of_mem_selected hentry)
      have hstart : ∀ w : Spelling, RunState.atStart session
          ((graph.selected filter).map fun entry => (entry.1, entry.2.respell w))
          = .atStart session (graph.selected filter) := by
        intro w
        unfold RunState.atStart
        rw [List.length_map]
      have hsame : (RunState.atStart session (graph.selected filter)).Akin AnyQuads
          (.atStart session (graph.selected filter)) := ⟨trivial, rfl⟩
      have hends := (x.engine graph base).ends_contributions w w' x.config hselected hsame
      -- The quads of the one run are all plain, since they are what it emits.
      have hplain : ∀ q ∈ x.emitted (graph.respell w) filter session, q.Plain :=
        fun _ => plain_of_mem_emitted
      unfold emitted at hplain
      rw [hleft] at hplain
      dsimp only [Except.map] at hplain
      rw [run_eq_of_prepare hleft, run_eq_of_prepare hright, hstart, hstart]
      rw [hstart] at hplain
      dsimp only
      revert hends hplain
      generalize ((x.engine graph base).respell w).contributions x.config
        ((graph.selected filter).map fun entry => (entry.1, entry.2.respell w))
        (.atStart session (graph.selected filter)) = r
      generalize ((x.engine graph base).respell w').contributions x.config
        ((graph.selected filter).map fun entry => (entry.1, entry.2.respell w'))
        (.atStart session (graph.selected filter)) = r'
      intro hends hplain
      cases hends with
      | error failure _ => exact .error failure.error
      | ok hparts _ =>
          have hquads := reordered_flatMap hparts
          refine .ok ?_ (diagnostics_flatMap hparts)
          rw [Execution.toList_ofContributions, Execution.toList_ofContributions]
          split
          · exact hquads.distinct_perm hplain
          · exact hquads.perm

end Executor

/-- What a constant of the rules is made into under a configuration. -/
def Config.resolved (c : Config) (iri : String) : String :=
  match c.base with
  | .ok base => resolvedIri base iri
  | .error _ => iri

/-- An absolute IRI stands for itself, and without a base every IRI does. -/
theorem Config.resolved_eq_self {c : Config} {iri : String}
    (h : c.baseIri = none ∨ Iri.isValid iri = true) : c.resolved iri = iri := by
  unfold resolved
  cases hbase : c.base with
  | error cause => rfl
  | ok base =>
      rcases h with hnone | hvalid
      · unfold Config.base at hbase
        rw [hnone] at hbase
        cases hbase
        exact resolvedIri_none iri
      · exact resolvedIri_of_isValid base hvalid

namespace Executor

/-- Spelling classes out resolves them: it comes to the same as resolving them first and leaving
them classes. -/
theorem resolved_shorthand (x : Executor) (graph : RuleGraph) (filter : Option (List String))
    (session : Session) :
    SameButOrder (x.run (graph.respell (.asClasses x.config.resolved)) filter session).result
      (x.run graph.spelledOut filter session).result := by
  rw [RuleGraph.spelledOut_eq]
  refine x.run_respell graph filter session _ _ fun base hbase m _ => ?_
  have hresolved : x.config.resolved = resolvedIri base := by
    funext iri
    unfold Config.resolved
    rw [hbase]
  simp [Spelling.Agree, Spelling.iris, Spelling.asClasses, Spelling.asStatements, hresolved]

/--
**Classes are short for statements.**  If every class of a rule graph is an IRI that stands for
itself, as absolute ones do, then each may be replaced by a predicate-object map at the end with
`rdf:type` and the class as constants.  A run of any of the triples maps fails with the same
error or gives the same quads in another order.
-/
theorem classes_shorthand (x : Executor) (graph : RuleGraph) (filter : Option (List String))
    (session : Session)
    (hclasses : ∀ m ∈ graph.triplesMaps, ∀ c ∈ m.classes, x.config.resolved c = c) :
    SameButOrder (x.run graph filter session).result
      (x.run graph.spelledOut filter session).result := by
  have hshorthand := x.resolved_shorthand graph filter session
  rwa [RuleGraph.respell_asClasses_eq_self hclasses] at hshorthand

/-! ### A museum -/

/-- A single exhibit, and a base. -/
def museum : Executor where
  provider := { openAfter := fun _ _ => .ok [.ok (.ofPairs [("id", "ex:urn"), ("name", "Urn")])] }
  config := { baseIri := some "http://ex/" }

/-- Exhibits of a class, said in a graph of their own and with their names. -/
def exhibits (iri : String) : RuleGraph := ⟨
  [{ iri := "ex:M", logicalSource := some ⟨"rows", .csv, none, none⟩
     subjectMap := some
       { termMap := .reference "id", classes := [iri], graphMaps := [.constant "ex:hall"] }
     predicateObjectMaps := [.constant "ex:name" (.reference "name")] }]⟩

/-- That the exhibit is of a class. -/
def classQuad (iri : String) : Quad :=
  ⟨.iri "ex:urn", .iri Rdf.type, .iri iri, some (.iri "ex:hall")⟩

/-- What the exhibit is called. -/
def nameQuad : Quad := ⟨.iri "ex:urn", .iri "ex:name", .string "Urn", some (.iri "ex:hall")⟩

/-- A run in the museum that emits nothing twice keeps what it emits. -/
theorem exists_museum_run {graph : RuleGraph} {qs : List Quad}
    (hok : (museum.run graph none {}).result.isOk = true)
    (hemitted : museum.emitted graph none {} = qs)
    (hqs : (qs.eraseDupsBy fun q r => q.render == r.render) = qs) :
    ∃ execution, (museum.run graph none {}).result = .ok execution ∧
      execution.store.toList = qs := by
  obtain ⟨execution, hrun⟩ := exists_of_isOk hok
  refine ⟨execution, hrun, ?_⟩
  rw [toList_eq_distinct_emitted hrun rfl, hemitted, distinct_eq_eraseDupsBy_render, hqs]

theorem museum_classes_shorthand :
    ∃ short long, (museum.run (exhibits "ex:Urn") none {}).result = .ok short ∧
      (museum.run (exhibits "ex:Urn").spelledOut none {}).result = .ok long ∧
      short.store.toList = [classQuad "ex:Urn", nameQuad] ∧
      long.store.toList.Perm [classQuad "ex:Urn", nameQuad] := by
  have hshort : ∃ short, (museum.run (exhibits "ex:Urn") none {}).result = .ok short ∧
      short.store.toList = [classQuad "ex:Urn", nameQuad] :=
    exists_museum_run (by decide +kernel) (by decide +kernel) (by decide +kernel)
  obtain ⟨short, hrun, hstore⟩ := hshort
  have hclasses : ∀ m ∈ (exhibits "ex:Urn").triplesMaps, ∀ c ∈ m.classes,
      museum.config.resolved c = c := by
    have habsolute : museum.config.resolved "ex:Urn" = "ex:Urn" :=
      Config.resolved_eq_self (.inr (by decide +kernel))
    simpa [exhibits, TriplesMap.classes] using habsolute
  have hsame := classes_shorthand museum (exhibits "ex:Urn") none {} hclasses
  rw [hrun] at hsame
  cases hlong : (museum.run (exhibits "ex:Urn").spelledOut none {}).result with
  | error error => rw [hlong] at hsame; cases hsame
  | ok long =>
      rw [hlong] at hsame
      cases hsame with
      | ok hquads _ =>
          rw [hstore] at hquads
          exact ⟨short, long, hrun, rfl, hstore, hquads.symm⟩

/-- A class that is relative to the base is not resolved; spelled out it is. -/
theorem museum_resolves_spelledOut :
    (exhibits "Urn").validate = .ok () ∧
      ¬ SameButOrder (museum.run (exhibits "Urn") none {}).result
        (museum.run (exhibits "Urn").spelledOut none {}).result := by
  have hshort : ∃ short, (museum.run (exhibits "Urn") none {}).result = .ok short ∧
      short.store.toList = [classQuad "Urn", nameQuad] :=
    exists_museum_run (by decide +kernel) (by decide +kernel) (by decide +kernel)
  have hlong : ∃ long, (museum.run (exhibits "Urn").spelledOut none {}).result = .ok long ∧
      long.store.toList = [nameQuad, classQuad "http://ex/Urn"] :=
    exists_museum_run (by decide +kernel) (by decide +kernel) (by decide +kernel)
  obtain ⟨short, hshort, hstore⟩ := hshort
  obtain ⟨long, hlong, hstore'⟩ := hlong
  refine ⟨by decide +kernel, fun hsame => ?_⟩
  rw [hshort, hlong] at hsame
  cases hsame with
  | ok hquads _ =>
      rw [hstore, hstore'] at hquads
      have hmem := hquads.mem_iff.mp (show classQuad "Urn" ∈ [classQuad "Urn", nameQuad] by simp)
      revert hmem
      decide

end Executor

end RdfMapping
