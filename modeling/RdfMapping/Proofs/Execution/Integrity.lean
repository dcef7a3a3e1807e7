/-
Objects that are taken from a parent are described by the parent.

A triples map evaluates the subject map of its parent on its own account: at the very record, if
the two read the same source and nothing has to agree, and else while an index of the parent is
built.  The parent's own part of the run evaluates it once more.  `references_described` says that
the two do not come apart.  If the parent is executed and completed, and its subjects have a class
and no graph of their own, then every quad in the store whose object a reference to the parent
contributed has its object described there too: it has this class in the default graph.

What contributes a quad is its origin: the classes of the subjects, or one of the object maps of a
statement.  `quadsFrom` says which quads come from an origin at a record, one origin apart from the
others, and `exists_origin_of_mapYield` that a triples map has no quads but these.

Both evaluations are of the same subject map in the scope of the parent's position, at records
of the parent's source.  So a term that a reference contributes is a subject of the parent at one
of its records, and a scan that gets through has met them all.  The store may be one that removes
repetitions: the object of a class statement is an IRI, and only literals have lookalikes.
-/
import RdfMapping.Proofs.Execution.Interruption
import RdfMapping.Proofs.Execution.Legality

namespace RdfMapping

/-! ### Quads of a yield -/

namespace Yield

variable {y z : Yield} {q : Quad}

theorem failure_andThen_eq_none_iff :
    (y.andThen z).failure = none ↔ y.failure = none ∧ z.failure = none := by
  unfold andThen
  cases y.failure <;> simp

/-- What comes first is there, whatever follows. -/
theorem mem_andThen_of_left (h : q ∈ y.tally.quads) : q ∈ (y.andThen z).tally.quads := by
  unfold andThen
  cases y.failure with
  | none => exact List.mem_append_left _ h
  | some failure => exact h

/-- What follows is there unless there was a failure before. -/
theorem mem_andThen_of_right (hy : y.failure = none) (h : q ∈ z.tally.quads) :
    q ∈ (y.andThen z).tally.quads := by
  unfold andThen
  rw [hy]
  exact List.mem_append_right _ h

theorem mem_of_mem_andThen (h : q ∈ (y.andThen z).tally.quads) :
    q ∈ y.tally.quads ∨ q ∈ z.tally.quads := by
  unfold andThen at h
  cases hy : y.failure with
  | none => rw [hy] at h; exact List.mem_append.mp h
  | some failure => rw [hy] at h; exact .inl h

theorem mem_of_mem_all {ys : List Yield} (h : q ∈ (all ys).tally.quads) :
    ∃ y ∈ ys, q ∈ y.tally.quads := by
  induction ys with
  | nil => cases h
  | cons y ys ih =>
      rcases mem_of_mem_andThen h with hfirst | hrest
      · exact ⟨y, by simp, hfirst⟩
      · obtain ⟨z, hz, hq⟩ := ih hrest
        exact ⟨z, by simp [hz], hq⟩

variable {iri : String} {visit : Nat → Record → Yield} {items : List Item} {n : Nat}

/-- A scan that gets through has what each of its records yields. -/
theorem mem_scan (hscan : (scan iri visit n items).failure = none) {record : Record}
    (hrecord : .ok record ∈ items) (hq : ∀ k, q ∈ (visit k record).tally.quads) :
    q ∈ (scan iri visit n items).tally.quads := by
  induction items generalizing n with
  | nil => cases hrecord
  | cons item items ih =>
      cases item with
      | error fault => cases hscan
      | ok first =>
          obtain ⟨hfirst, hrest⟩ := failure_andThen_eq_none_iff.mp hscan
          rcases List.mem_cons.mp hrecord with heq | hlater
          · rw [Except.ok.inj heq] at hq
            exact mem_andThen_of_left (hq n)
          · exact mem_andThen_of_right hfirst (ih hrest hlater)

theorem mem_of_mem_scan (h : q ∈ (scan iri visit n items).tally.quads) :
    ∃ k record, .ok record ∈ items ∧ q ∈ (visit k record).tally.quads := by
  induction items generalizing n with
  | nil => cases h
  | cons item items ih =>
      cases item with
      | error fault => cases h
      | ok first =>
          rcases mem_of_mem_andThen h with hfirst | hrest
          · exact ⟨n, first, by simp, hfirst⟩
          · obtain ⟨k, record, hrecord, hq⟩ := ih hrest
            exact ⟨k, record, by simp [hrecord], hq⟩

end Yield

/-! ### Subjects and their classes -/

theorem mem_of_readItems {iri : String} {n : Nat} {items : List Item} {records : List Record}
    (h : readItems iri n items = .ok records) {record : Record} (hrecord : record ∈ records) :
    .ok record ∈ items := by
  induction items generalizing n records with
  | nil => cases h; cases hrecord
  | cons item items ih =>
      cases item with
      | error fault => cases h
      | ok first =>
          obtain ⟨others, hothers, rfl⟩ := map_eq_ok_iff.mp h
          rcases List.mem_cons.mp hrecord with rfl | hlater
          · simp
          · simp [ih hothers hlater]

namespace Engine

variable {e : Engine} {t : Term} {record : Record}

/-- The record is one that the triples map reads. -/
def Reads (e : Engine) (m : TriplesMap) (record : Record) : Prop :=
  ∃ source items, m.logicalSource = some source ∧
    e.provider.openAfter [] source = .ok items ∧ .ok record ∈ items

theorem reads_of_mem_recordsOf {m : TriplesMap} (hsource : m.logicalSource.isSome)
    {records : List Record} (h : e.recordsOf m = .ok records) (hrecord : record ∈ records) :
    e.Reads m record := by
  obtain ⟨source, hsource⟩ := Option.isSome_iff_exists.mp hsource
  rw [recordsOf, hsource] at h
  dsimp only at h
  cases hitems : e.provider.openAfter [] source with
  | error fault => rw [hitems] at h; cases h
  | ok items =>
      rw [hitems] at h
      exact ⟨source, items, hsource, hitems, mem_of_readItems h hrecord⟩

/-- A subject is said to have its classes before anything else is said about it. -/
theorem mem_recordYield_of_class (policy : SubjectErrorPolicy) (m : TriplesMap) (scope : String)
    {subjectMap : SubjectMap} (n : Nat)
    (ht : t ∈ orNone (e.generator.terms subjectMap.termMap record scope)) {c : String}
    (hclass : c ∈ subjectMap.classes) (hgraphs : subjectMap.graphMaps = []) :
    ⟨t, .iri Rdf.type, .iri c, none⟩
      ∈ (e.recordYield policy m scope subjectMap n record).tally.quads := by
  unfold recordYield
  cases hterms : e.generator.terms subjectMap.termMap record scope with
  | error error => rw [hterms] at ht; cases ht
  | ok subjects =>
      rw [hterms] at ht
      cases subjects with
      | nil => cases ht
      | cons t' ts =>
          refine Yield.mem_andThen_of_right rfl (Yield.mem_andThen_of_left ?_)
          have htargets : targetGraphs (!subjectMap.graphMaps.isEmpty)
              (addGraphs [] (e.termsOf ⟨m, scope, n, record⟩ subjectMap.graphMaps)) = [none] := by
            rw [hgraphs]
            rfl
          rw [htargets]
          exact List.mem_flatMap.mpr ⟨t, ht, List.mem_flatMap.mpr ⟨c, hclass, by simp⟩⟩

/-- A triples map that is completed gives its classes to all of its subjects. -/
theorem mem_mapYield_of_class {policy : SubjectErrorPolicy} {position : Nat} {m : TriplesMap}
    (hdone : (e.mapYield policy position m).failure = none) (hreads : e.Reads m record)
    (ht : t ∈ orNone (e.subjectsOf position m record)) {subjectMap : SubjectMap}
    (hsubject : m.subjectMap = some subjectMap) {c : String} (hclass : c ∈ subjectMap.classes)
    (hgraphs : subjectMap.graphMaps = []) :
    ⟨t, .iri Rdf.type, .iri c, none⟩ ∈ (e.mapYield policy position m).tally.quads := by
  obtain ⟨source, items, hsource, hitems, hrecord⟩ := hreads
  rw [subjectsOf, hsubject] at ht
  rw [mapYield, hsource, hsubject] at hdone ⊢
  dsimp only at hdone ⊢
  rw [hitems] at hdone ⊢
  exact Yield.mem_scan hdone hrecord fun k =>
    mem_recordYield_of_class policy m _ k ht hclass hgraphs

/-! ### What references contribute -/

/-- What is joined are subjects that the parent makes of its records. -/
theorem exists_reads_of_joined {r : RefObjectMap} {position : Nat} {parent child : TriplesMap}
    (hposition : e.graph.position? r.parent = some position)
    (hparent : e.graph.get? r.parent = some parent) (hsource : parent.logicalSource.isSome)
    (hreads : e.Reads child record) {result : Except FunctionError (List Term)}
    (h : e.joined r child record = .ok result) (ht : t ∈ orNone result) :
    ∃ other, e.Reads parent other ∧ t ∈ orNone (e.subjectsOf position parent other) := by
  unfold joined at h
  rw [hposition, hparent] at h
  dsimp only at h
  split at h
  · rename_i hsame
    -- Child and parent read the same source, so the child's record is one of the parent's.
    have hsource' : parent.logicalSource = child.logicalSource := by
      simpa using (Bool.and_eq_true_iff.mp hsame).2
    obtain rfl := Except.ok.inj h
    refine ⟨record, ?_, ht⟩
    unfold Reads at hreads ⊢
    rwa [hsource']
  · split at h
    · obtain ⟨records, hrecords, hresult⟩ := bind_eq_ok_iff.mp h
      obtain rfl := Except.ok.inj hresult
      obtain ⟨other, hother, ht⟩ := List.mem_flatMap.mp ht
      have hmem := List.mem_of_mem_filter hother
      exact ⟨other, reads_of_mem_recordsOf hsource hrecords hmem, ht⟩
    · obtain rfl := Except.ok.inj h
      cases ht

end Engine

/-! ### Where quads come from -/

/-- What contributes quads in a triples map. -/
inductive Origin where
  /-- The classes of the subjects. -/
  | classes
  /-- An object map of a statement. -/
  | objects (statement : PredicateObjectMap) (map : ObjectMap)

/-- The origins in a triples map, in the order of their quads. -/
def TriplesMap.origins (m : TriplesMap) : List Origin :=
  .classes :: m.predicateObjectMaps.flatMap fun p => p.objectMaps.map (.objects p)

theorem mem_statementQuads {subjects predicates objects : List Term}
    {graphs : List (Option Term)} {q : Quad} :
    q ∈ statementQuads subjects predicates objects graphs ↔
      q.subject ∈ subjects ∧ q.predicate ∈ predicates ∧ q.object ∈ objects ∧ q.graph ∈ graphs := by
  simp only [statementQuads, List.mem_flatMap, List.mem_map]
  constructor
  · rintro ⟨s, hs, p, hp, o, ho, g, hg, rfl⟩
    exact ⟨hs, hp, ho, hg⟩
  · rintro ⟨hs, hp, ho, hg⟩
    exact ⟨_, hs, _, hp, _, ho, _, hg, rfl⟩

namespace Engine

variable {e : Engine} {t : Term} {record : Record}

/-- The quads that an origin in the triples map at a position contributes at a record: every subject
with every class, or every subject with every predicate and every object that the object map has
there, in every graph. -/
def quadsFrom (e : Engine) (position : Nat) (m : TriplesMap) (record : Record)
    (origin : Origin) : List Quad :=
  match m.subjectMap with
  | none => []
  | some subjectMap =>
    let site : Site := ⟨m, blankScope position, 0, record⟩
    let subjects := orNone (e.subjectsOf position m record)
    let graphs := addGraphs [] (e.termsOf site subjectMap.graphMaps)
    match origin with
    | .classes =>
      classQuads subjects subjectMap.classes (targetGraphs (!subjectMap.graphMaps.isEmpty) graphs)
    | .objects p map =>
      statementQuads subjects (e.termsOf site p.predicateMaps)
        ((e.objectsOf site map).toOption.getD [])
        (targetGraphs (!subjectMap.graphMaps.isEmpty || !p.graphMaps.isEmpty)
          (addGraphs graphs (e.termsOf site p.graphMaps)))

/-- What a reference contributes has for its object what the reference is joined with. -/
theorem exists_joined_of_quadsFrom {position : Nat} {m : TriplesMap} {p : PredicateObjectMap}
    {r : RefObjectMap} {q : Quad} (hq : q ∈ e.quadsFrom position m record (.objects p (.parent r))) :
    ∃ result, e.joined r m record = .ok result ∧ q.object ∈ orNone result := by
  unfold quadsFrom at hq
  split at hq
  · cases hq
  · obtain ⟨-, -, hobject, -⟩ := mem_statementQuads.mp hq
    rw [objectsOf] at hobject
    cases hjoined : e.joined r m record with
    | error error =>
        rw [hjoined] at hobject
        cases hobject
    | ok result =>
        rw [hjoined] at hobject
        exact ⟨result, rfl, hobject⟩

/-- The objects of a statement are those of its object maps. -/
theorem exists_objectsOf {site : Site} {ms : List ObjectMap} {objects : List Term}
    (h : e.allObjectsOf site ms = .ok objects) (ht : t ∈ objects) :
    ∃ m ∈ ms, ∃ ts, e.objectsOf site m = .ok ts ∧ t ∈ ts := by
  induction ms generalizing objects with
  | nil => cases h; cases ht
  | cons m ms ih =>
      obtain ⟨first, hfirst, h⟩ := bind_eq_ok_iff.mp h
      obtain ⟨rest, hrest, h⟩ := bind_eq_ok_iff.mp h
      obtain rfl := Except.ok.inj h
      rcases List.mem_append.mp ht with ht | ht
      · exact ⟨m, by simp, first, hfirst, ht⟩
      · obtain ⟨m', hm', ts, hts, ht⟩ := ih hrest ht
        exact ⟨m', by simp [hm'], ts, hts, ht⟩

/-- A quad of a statement comes from one of its object maps. -/
theorem exists_origin_of_statementsYield {position n : Nat} {m : TriplesMap}
    {p : PredicateObjectMap} (hp : p ∈ m.predicateObjectMaps) {subjectMap : SubjectMap}
    (hsubject : m.subjectMap = some subjectMap) {q : Quad}
    (hq : q ∈ (e.statementsYield ⟨m, blankScope position, n, record⟩ subjectMap
      (orNone (e.subjectsOf position m record)) p).tally.quads) :
    ∃ origin ∈ m.origins, q ∈ e.quadsFrom position m record origin := by
  unfold statementsYield at hq
  dsimp only at hq
  split at hq
  · cases hq
  · split at hq
    · cases hq
    · rename_i objects hobjects
      obtain ⟨hs, hpred, hobject, hgraph⟩ := mem_statementQuads.mp hq
      obtain ⟨map, hmap, ts, hts, ht⟩ := exists_objectsOf hobjects hobject
      refine ⟨.objects p map, ?_, ?_⟩
      · exact List.mem_cons_of_mem _
          (List.mem_flatMap.mpr ⟨p, hp, List.mem_map.mpr ⟨map, hmap, rfl⟩⟩)
      · -- Nothing that is evaluated at a record depends on how many came before it.
        have hsame : e.objectsOf ⟨m, blankScope position, 0, record⟩ map = .ok ts := by
          cases map <;> exact hts
        unfold quadsFrom
        rw [hsubject]
        refine mem_statementQuads.mpr ⟨hs, hpred, ?_, hgraph⟩
        rw [hsame]
        exact ht

/-- A quad of a triples map comes from one of its origins at one of its records. -/
theorem exists_origin_of_mapYield {policy : SubjectErrorPolicy} {position : Nat} {m : TriplesMap}
    {q : Quad} (hq : q ∈ (e.mapYield policy position m).tally.quads) :
    ∃ record, e.Reads m record ∧
      ∃ origin ∈ m.origins, q ∈ e.quadsFrom position m record origin := by
  unfold mapYield at hq
  split at hq
  · rename_i source subjectMap hsource hsubject
    split at hq
    · cases hq
    · rename_i items hitems
      obtain ⟨n, record, hrecord, hq⟩ := Yield.mem_of_mem_scan hq
      refine ⟨record, ⟨source, items, hsource, hitems, hrecord⟩, ?_⟩
      have hterms : e.subjectsOf position m record
          = e.generator.terms subjectMap.termMap record (blankScope position) := by
        rw [subjectsOf, hsubject]
      unfold recordYield at hq
      rw [← hterms] at hq
      split at hq
      · cases policy <;> cases hq
      · cases hq
      · rename_i subjects _ hsubjects
        have hsubjects' : orNone (e.subjectsOf position m record) = subjects := by
          rw [hsubjects]
          rfl
        rw [← hsubjects'] at hq
        rcases Yield.mem_of_mem_andThen hq with hq | hq
        · cases hq
        · rcases Yield.mem_of_mem_andThen hq with hq | hq
          · refine ⟨.classes, List.mem_cons_self, ?_⟩
            unfold quadsFrom
            rw [hsubject]
            exact hq
          · obtain ⟨y, hy, hq⟩ := Yield.mem_of_mem_all hq
            obtain ⟨p, hp, rfl⟩ := List.mem_map.mp hy
            exact exists_origin_of_statementsYield hp hsubject hq
  · cases hq

end Engine

/-! ### Parts of a run -/

theorem Yield.eq_of_part_completed {c : Config} {iri : String} {y : Yield}
    {part : List Quad × Stats} (h : y.part c iri = .ok part) (hstatus : part.2.status = .completed) :
    y.failure = none ∧ part = (y.tally.quads, y.tally.stats iri .completed) := by
  unfold Yield.part at h
  cases hfailure : y.failure with
  | none =>
      rw [hfailure] at h
      exact ⟨rfl, (Except.ok.inj h).symm⟩
  | some failure =>
      rw [hfailure] at h
      dsimp only at h
      split at h
      · obtain rfl := Except.ok.inj h
        cases hstatus
      · cases h

theorem Yield.mem_of_mem_part {c : Config} {iri : String} {y : Yield} {part : List Quad × Stats}
    (h : y.part c iri = .ok part) {q : Quad} (hq : q ∈ part.1) : q ∈ y.tally.quads := by
  unfold Yield.part at h
  cases hfailure : y.failure with
  | none =>
      rw [hfailure] at h
      obtain rfl := Except.ok.inj h
      exact hq
  | some failure =>
      rw [hfailure] at h
      dsimp only at h
      split at h
      · obtain rfl := Except.ok.inj h
        cases hq
      · cases h

namespace Executor

variable {x : Executor} {graph : RuleGraph} {base : Option Iri} {filter : Option (List String)}
  {session : Session} {execution : Execution}

/-- A run that succeeds although it heeds the signal does the same without. -/
theorem run_unheeding_eq_ok (h : (x.run graph filter session).result = .ok execution) :
    (x.unheeding.run graph filter session).result = .ok execution := by
  cases hheeds : x.cancellable with
  | false =>
      have hsame : x.unheeding = x := by
        unfold unheeding
        rw [← hheeds]
      rw [hsame, h]
  | true =>
      obtain ⟨engine, selected, parts, s, hprepare, hparts, rfl⟩ := exists_contributions_of_run h
      obtain ⟨base, positions, -, -, -, hengine⟩ := prepare_eq_ok_iff.mp hprepare
      obtain ⟨rfl, rfl⟩ := Prod.mk.inj hengine
      have hfree : x.unheeding.prepare graph filter
          = .ok ((x.engine graph base).unheeding, graph.selected filter) := by
        rw [prepare_unheeding, hprepare]
        rfl
      have hshadows := Engine.shadows_contributions (e := x.engine graph base) hheeds x.config
        (graph.selected filter)
      have hparts' : (x.engine graph base).unheeding.contributions x.unheeding.config
          (graph.selected filter) (.atStart session (graph.selected filter)) = .ok parts s :=
        hshadows.eq_ok hparts
      rw [run_eq_of_prepare hfree, hparts']
      rfl

/-- A run that succeeds without signal is put together from the parts of its triples maps. -/
theorem Ready.exists_parts (h : x.Ready graph base)
    (hcalm : x.cancellable = true → session.cancelled = false)
    (hrun : (x.run graph filter session).result = .ok execution) :
    ∃ parts, (x.engine graph base).partsOf x.config (graph.selected filter) = .ok parts ∧
      execution.store = x.config.assemble (parts.map (·.1)) ∧
      execution.report.triplesMaps = parts.map (·.2) ∧
      x.emitted graph filter session = parts.flatMap (·.1) := by
  obtain ⟨engine, selected, contributions, s, hprepare, hcontributions, rfl⟩ :=
    exists_contributions_of_run hrun
  obtain ⟨base', positions, hbase, -, -, hengine⟩ := prepare_eq_ok_iff.mp hprepare
  obtain ⟨rfl, rfl⟩ := Prod.mk.inj hengine
  obtain rfl : base' = base := by
    rw [h.based, Except.ok.injEq] at hbase
    exact hbase.symm
  have hselected : ∀ entry ∈ graph.selected filter,
      entry.2 ∈ (x.engine graph base').graph.triplesMaps ∧
        (x.engine graph base').KnowsParents entry.2 := by
    intro entry hentry
    have hm := RuleGraph.mem_of_mem_selected hentry
    exact ⟨hm, h.knowsParents hm⟩
  obtain ⟨s', full, -, hfull, hview⟩ := Engine.shows_contributions h.repeatable x.config hselected
    (.atStart session (graph.selected filter)) (Engine.sound_of_calm hcalm rfl)
  rw [hcontributions] at hfull
  cases full with
  | error failure => cases hfull
  | ok parts =>
      cases hfull
      refine ⟨_, hview.symm, ?_, ?_, ?_⟩
      · rw [List.map_map]
        rfl
      · rw [List.map_map]
        rfl
      · rw [emitted, hprepare]
        dsimp only
        rw [hcontributions, List.flatMap_map]
        rfl

/-- What a triples map of a run that is reported to be completed has yielded was emitted. -/
theorem Ready.exists_completed (h : x.Ready graph base)
    (hcalm : x.cancellable = true → session.cancelled = false)
    (hrun : (x.run graph filter session).result = .ok execution) {stats : Stats}
    (hstats : stats ∈ execution.report.triplesMaps) (hstatus : stats.status = .completed) :
    ∃ entry ∈ graph.selected filter, entry.2.iri = stats.triplesMap ∧
      ((x.engine graph base).mapYield x.config.subjectFunctionErrors entry.1 entry.2).failure
        = none ∧
      ∀ q ∈ ((x.engine graph base).mapYield x.config.subjectFunctionErrors entry.1
        entry.2).tally.quads, q ∈ x.emitted graph filter session := by
  obtain ⟨parts, hparts, -, hreport, hemitted⟩ := h.exists_parts hcalm hrun
  rw [hreport] at hstats
  obtain ⟨part, hpart, rfl⟩ := List.mem_map.mp hstats
  obtain ⟨entry, hentry, hyield⟩ := exists_of_mapM_eq_ok hparts hpart
  obtain ⟨hdone, hpartEq⟩ := Yield.eq_of_part_completed hyield hstatus
  refine ⟨entry, hentry, ?_, hdone, fun q hq => ?_⟩
  · rw [hpartEq]
    rfl
  · rw [hemitted]
    refine List.mem_flatMap.mpr ⟨part, hpart, ?_⟩
    rw [hpartEq]
    exact hq

/-! ### Stores -/

/-- A quad that is emitted is in the store, unless it is about a literal. -/
theorem mem_store_of_object (h : (x.run graph filter session).result = .ok execution) {q : Quad}
    (hq : q ∈ x.emitted graph filter session) (hobject : q.object.isLiteral = false) :
    q ∈ execution.store.toList := by
  cases hremove : x.config.removeDuplicates with
  | false => rwa [toList_eq_emitted h hremove]
  | true =>
      rw [toList_eq_distinct_emitted h hremove,
        mem_distinct_iff_lookalike fun _ => plain_of_mem_emitted]
      obtain ⟨before, after, hsplit⟩ := List.append_of_mem hq
      exact ⟨before, after, hsplit, fun r _ => Quad.not_lookalike_of_object hobject r⟩

/-- Every quad in the store comes from an origin in a triples map that was executed. -/
theorem Ready.exists_origin (h : x.Ready graph base)
    (hcalm : x.cancellable = true → session.cancelled = false)
    (hrun : (x.run graph filter session).result = .ok execution) {q : Quad}
    (hq : q ∈ execution.store.toList) :
    ∃ entry ∈ graph.selected filter, ∃ record, (x.engine graph base).Reads entry.2 record ∧
      ∃ origin ∈ entry.2.origins,
        q ∈ (x.engine graph base).quadsFrom entry.1 entry.2 record origin := by
  obtain ⟨parts, hparts, -, -, hemitted⟩ := h.exists_parts hcalm hrun
  have hq := mem_emitted_of_mem_store hrun hq
  rw [hemitted] at hq
  obtain ⟨part, hpart, hq⟩ := List.mem_flatMap.mp hq
  obtain ⟨entry, hentry, hyield⟩ := exists_of_mapM_eq_ok hparts hpart
  obtain ⟨record, hreads, horigin⟩ :=
    Engine.exists_origin_of_mapYield (Yield.mem_of_mem_part hyield hq)
  exact ⟨entry, hentry, record, hreads, horigin⟩

/-- A completed parent gives its classes to what a reference to it is joined with. -/
theorem Ready.mem_store_of_joined (h : x.Ready graph base)
    (hcalm : x.cancellable = true → session.cancelled = false)
    (hrun : (x.run graph filter session).result = .ok execution) {parent : TriplesMap}
    (hparent : parent ∈ graph.triplesMaps)
    (hcompleted : ∃ stats ∈ execution.report.triplesMaps,
      stats.triplesMap = parent.iri ∧ stats.status = .completed)
    {subjectMap : SubjectMap} (hsubject : parent.subjectMap = some subjectMap)
    (hgraphs : subjectMap.graphMaps = []) {c : String} (hclass : c ∈ subjectMap.classes)
    {r : RefObjectMap} (hnames : r.parent = parent.iri) {child : TriplesMap} {record : Record}
    (hreads : (x.engine graph base).Reads child record)
    {result : Except FunctionError (List Term)}
    (hjoined : (x.engine graph base).joined r child record = .ok result) {t : Term}
    (ht : t ∈ orNone result) :
    ⟨t, .iri Rdf.type, .iri c, none⟩ ∈ execution.store.toList := by
  -- The parent of the report is the one that the reference names.
  obtain ⟨stats, hstats, hname, hstatus⟩ := hcompleted
  obtain ⟨⟨position, m⟩, hselected, hiri, hdone, hemitted⟩ :=
    h.exists_completed hcalm hrun hstats hstatus
  have hget := RuleGraph.getElem?_of_mem_selected hselected
  have hfound : graph.get? r.parent = some parent := by
    rw [hnames]
    exact RuleGraph.get?_of_mem h.valid hparent
  obtain rfl : m = parent := by
    have hsame := RuleGraph.get?_of_mem h.valid (RuleGraph.mem_of_mem_selected hselected)
    rw [hiri, hname, RuleGraph.get?_of_mem h.valid hparent, Option.some.injEq] at hsame
    exact hsame.symm
  have hposition : graph.position? r.parent = some position := by
    rw [hnames]
    exact (RuleGraph.validate_eq_ok_iff.mp h.valid position m hget).identity
  obtain ⟨other, hother, ht⟩ := Engine.exists_reads_of_joined (e := x.engine graph base) hposition
    hfound (h.repeatable.complete m hparent).1 hreads hjoined ht
  refine mem_store_of_object hrun (hemitted _ ?_) rfl
  exact Engine.mem_mapYield_of_class hdone hother ht hsubject hclass hgraphs

/--
**What is taken from a parent is described by the parent.**  Every quad in the store comes from an
origin in a triples map that was executed, at a record that this triples map reads.  If a reference
to a parent is such an origin of the quad, and the parent is executed and completed, then each
class of the parent is in the default graph of the store a class of the object of the quad,
provided that the subjects of the parent have no graphs of their own and that sources can be opened
again with the same result.
-/
theorem references_described (hbased : x.config.base = .ok base)
    (hreopens : ∀ m ∈ graph.triplesMaps, ∀ source, m.logicalSource = some source →
      ∀ opened, x.provider.openAfter opened source = x.provider.openAfter [] source)
    (hrun : (x.run graph filter session).result = .ok execution)
    {parent : TriplesMap} (hparent : parent ∈ graph.triplesMaps)
    (hcompleted : ∃ stats ∈ execution.report.triplesMaps,
      stats.triplesMap = parent.iri ∧ stats.status = .completed)
    {subjectMap : SubjectMap} (hsubject : parent.subjectMap = some subjectMap)
    (hgraphs : subjectMap.graphMaps = []) {c : String} (hclass : c ∈ subjectMap.classes)
    {q : Quad} (hq : q ∈ execution.store.toList) :
    (∃ entry ∈ graph.selected filter, ∃ record, (x.engine graph base).Reads entry.2 record ∧
        ∃ origin ∈ entry.2.origins,
          q ∈ (x.engine graph base).quadsFrom entry.1 entry.2 record origin) ∧
      ∀ entry ∈ graph.selected filter, ∀ record, (x.engine graph base).Reads entry.2 record →
        ∀ p r, .objects p (.parent r) ∈ entry.2.origins → r.parent = parent.iri →
          q ∈ (x.engine graph base).quadsFrom entry.1 entry.2 record (.objects p (.parent r)) →
            ⟨q.object, .iri Rdf.type, .iri c, none⟩ ∈ execution.store.toList := by
  have hfree := run_unheeding_eq_ok hrun
  obtain ⟨_, _, _, _, hprepare, -, -⟩ := exists_contributions_of_run hrun
  obtain ⟨_, _, -, hvalid, -, -⟩ := prepare_eq_ok_iff.mp hprepare
  have hready : x.unheeding.Ready graph base := ⟨hbased, hvalid, hreopens, nofun⟩
  refine ⟨hready.exists_origin nofun hfree hq, ?_⟩
  intro entry _ record hreads p r _ hnames hfrom
  obtain ⟨result, hjoined, hobject⟩ := Engine.exists_joined_of_quadsFrom hfrom
  exact hready.mem_store_of_joined nofun hfree hparent hcompleted hsubject hgraphs hclass hnames
    hreads hjoined hobject

/-! ### A stable -/

/-- Two riders of one horse, and a horse that nobody rides. -/
def stable : Executor where
  provider := MemorySources.provider
    ⟨[("riders", [.ofPairs [("name", "ann"), ("horse", "Bella")],
        .ofPairs [("name", "ben"), ("horse", "Bella")]]),
      ("horses", [.ofPairs [("name", "Bella")], .ofPairs [("name", "Cora")]])]⟩

/-- Riders with what they ride, found by name. -/
def rider : TriplesMap where
  iri := "ex:Rider"
  logicalSource := some ⟨"riders", .csv, none, none⟩
  subjectMap := some { termMap := (TermMap.reference "name").asBlankNode }
  predicateObjectMaps := [.constant "ex:rides" (.parent (.single "ex:Horse" "horse" "name"))]

/-- Horses, which are animals. -/
def horse : TriplesMap where
  iri := "ex:Horse"
  logicalSource := some ⟨"horses", .csv, none, none⟩
  subjectMap := some
    { termMap := (TermMap.reference "name").asBlankNode, classes := ["ex:Animal"] }

theorem stable_ready : stable.Ready ⟨[rider, horse]⟩ none where
  based := rfl
  valid := by decide +kernel
  reopens := fun _ _ _ _ _ => rfl
  silent := fun _ _ => rfl

/-- Somebody rides Bella. -/
def ridesBella (label : String) : Quad :=
  ⟨.blank label, .iri "ex:rides", .blank "tm1-Bella", none⟩

/-- Something is an animal. -/
def isAnimal (label : String) : Quad := ⟨.blank label, .iri Rdf.type, .iri "ex:Animal", none⟩

theorem stable_parts :
    (stable.engine ⟨[rider, horse]⟩ none).partsOf stable.config
        (RuleGraph.selected ⟨[rider, horse]⟩ none) =
      .ok [([ridesBella "tm0-ann", ridesBella "tm0-ben"], ⟨"ex:Rider", 2, 0, 2, .completed⟩),
        ([isAnimal "tm1-Bella", isAnimal "tm1-Cora"], ⟨"ex:Horse", 2, 0, 2, .completed⟩)] := by
  decide +kernel

theorem stable_quadsFrom :
    (stable.engine ⟨[rider, horse]⟩ none).quadsFrom 0 rider
        (.ofPairs [("name", "ann"), ("horse", "Bella")])
        (.objects (.constant "ex:rides" (.parent (.single "ex:Horse" "horse" "name")))
          (.parent (.single "ex:Horse" "horse" "name"))) =
      [ridesBella "tm0-ann"] := by
  decide +kernel

/-- The horse that Ann rides is an animal. -/
theorem stable_references_described :
    ∃ execution, (stable.run ⟨[rider, horse]⟩ none {}).result = .ok execution ∧
      ridesBella "tm0-ann" ∈ execution.store.toList ∧
      isAnimal "tm1-Bella" ∈ execution.store.toList := by
  have hselect : RuleGraph.select ⟨[rider, horse]⟩ none = .ok [0, 1] := rfl
  have hcontent : (stable.run ⟨[rider, horse]⟩ none {}).result.map Execution.content = _ :=
    stable_ready.run_eq hselect fun _ => rfl
  rw [stable_parts] at hcontent
  obtain ⟨execution, hrun, hcontent⟩ := map_eq_ok_iff.mp hcontent
  have hstored : ridesBella "tm0-ann" ∈ execution.store.toList := by
    have hquads : execution.store.toList = distinct [ridesBella "tm0-ann", ridesBella "tm0-ben",
        isAnimal "tm1-Bella", isAnimal "tm1-Cora"] := congrArg Prod.fst hcontent
    have hdistinct : distinct [ridesBella "tm0-ann", ridesBella "tm0-ben",
        isAnimal "tm1-Bella", isAnimal "tm1-Cora"] = [ridesBella "tm0-ann", ridesBella "tm0-ben",
        isAnimal "tm1-Bella", isAnimal "tm1-Cora"] := by
      rw [distinct_eq_eraseDupsBy_render]
      decide +kernel
    rw [hquads, hdistinct]
    exact List.mem_cons_self
  have hcompleted : ∃ stats ∈ execution.report.triplesMaps,
      stats.triplesMap = horse.iri ∧ stats.status = .completed := by
    have hstats : execution.report.triplesMaps =
        [⟨"ex:Rider", 2, 0, 2, .completed⟩, ⟨"ex:Horse", 2, 0, 2, .completed⟩] :=
      congrArg Prod.snd hcontent
    rw [hstats]
    exact ⟨⟨"ex:Horse", 2, 0, 2, .completed⟩, by simp, rfl, rfl⟩
  have hhorse : horse ∈ [rider, horse] := by simp
  have hrider : (0, rider) ∈ RuleGraph.selected ⟨[rider, horse]⟩ none := List.mem_cons_self
  have hfrom := stable_quadsFrom ▸ List.mem_singleton_self (ridesBella "tm0-ann")
  refine ⟨execution, hrun, hstored, ?_⟩
  exact (references_described rfl stable_ready.reopens hrun hhorse hcompleted rfl rfl
    (List.mem_singleton_self "ex:Animal") hstored).2 (0, rider) hrider _
      ⟨_, _, rfl, rfl, List.mem_cons_self⟩ _ _
      (List.mem_cons_of_mem _ List.mem_cons_self) rfl hfrom

end Executor

end RdfMapping
