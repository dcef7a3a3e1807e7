/-
How the failures of a triples map are entered.

The steps of a triples map are gone through in the order of the program, from the terms of a
record to the items of a source.  Each enters what fails in it, as a function of the rules and
the record, and goes on; a step that asks for an index may end the triples map, and has then
entered a part of what would have failed at its record.
-/
import RdfMapping.Proofs.Execution.ParentFailures

namespace RdfMapping

namespace Engine

open Step

variable {e : Engine} (hvalid : e.graph.validate = .ok ())

/-! ### Objects -/

/-- What may come of a reference: what it takes from the very same record, or, if it takes nothing
from there, whatever is found in an index. -/
def Resolves (e : Engine) (r : RefObjectMap) (child : TriplesMap) (record : Record)
    (result : Except FunctionError (List Term)) : Prop :=
  result = e.sharedSubjects r child record ∨
    e.consultedFor r child record ≠ [] ∧ e.sharedSubjects r child record = .ok [] ∧
      ∃ objects, result = .ok objects

theorem Resolves.noted {r : RefObjectMap} {site : Site} {result : Except FunctionError (List Term)}
    (h : e.Resolves r site.triplesMap site.record result) :
    site.noted result = site.noted (e.ownObjects site (.parent r)) := by
  rw [ownObjects]
  rcases h with rfl | ⟨-, hshared, objects, rfl⟩
  · rfl
  · rw [hshared]
    rfl

theorem consultedAmong_cons (site : Site) (m : ObjectMap) (ms : List ObjectMap) :
    e.consultedAmong site (m :: ms) = e.consultedAmong site [m] ++ e.consultedAmong site ms := by
  unfold consultedAmong
  rw [← List.flatMap_append, ← List.filterMap_append, List.singleton_append]

/-- Whether objects were found says something about where they may come from. -/
structure Finds (e : Engine) (site : Site) (ms : List ObjectMap) (objects : List Term) : Prop where
  some : objects ≠ [] → e.MayFind site ms
  none : objects = [] → e.FindsNoOwn site ms

theorem Finds.cons {site : Site} {m : ObjectMap} {ms : List ObjectMap}
    {objects objects' : List Term} (h : e.Finds site [m] objects)
    (h' : e.Finds site ms objects') : e.Finds site (m :: ms) (objects ++ objects') where
  some hne := by
    have hmore : ∀ part : List ObjectMap, part ⊆ m :: ms → e.MayFind site part →
        e.consultedAmong site part ⊆ e.consultedAmong site (m :: ms) →
        e.MayFind site (m :: ms) := by
      intro part hsub hfind hconsulted
      refine hfind.imp (fun ⟨m', hm', hown⟩ => ⟨m', hsub hm', hown⟩) fun hasked => ?_
      obtain ⟨parent, hparent⟩ := List.exists_mem_of_ne_nil _ hasked
      exact List.ne_nil_of_mem (hconsulted hparent)
    rw [consultedAmong_cons] at hmore
    by_cases hfirst : objects = []
    · refine hmore ms (List.subset_cons_self m ms) (h'.some ?_) (List.subset_append_right _ _)
      rintro rfl
      exact hne (by rw [hfirst, List.append_nil])
    · exact hmore [m] (by simp) (h.some hfirst) (List.subset_append_left _ _)
  none hnil := by
    obtain ⟨hfirst, hrest⟩ := List.append_eq_nil_iff.mp hnil
    intro m' hm'
    rcases List.mem_cons.mp hm' with rfl | hm'
    · exact h.none hfirst m' (by simp)
    · exact h'.none hrest m' hm'

include hvalid in
theorem tells_resolve {child : TriplesMap} (hchild : child ∈ e.graph.triplesMaps)
    {r : RefObjectMap} (hr : r ∈ child.parents) (record : Record) :
    Tells (e.Told child.iri) (e.resolve r child record)
      (fun result ds => ds = [] ∧ e.Resolves r child record result)
      fun error ds => ds = [] ∧ Interrupts (e.consultedFor r child record) error := by
  have hR := e.bookkeeping_told child.iri
  obtain ⟨position, parent, hposition, hparent, -⟩ :=
    RuleGraph.exists_position_of_isSome (knowsParents_of_validate hvalid hchild r hr)
  obtain ⟨source, hsource⟩ :=
    RuleGraph.exists_source_of_mem hvalid (List.mem_of_find?_eq_some hparent)
  obtain ⟨subjectMap, hsubject⟩ :=
    RuleGraph.exists_subjectMap_of_mem hvalid (List.mem_of_find?_eq_some hparent)
  have hfound : e.parentOf r child = pure (position, parent) := by
    rw [parentOf, hposition, hparent]
  have hconditions : (!r.hasConditions) = r.conditions.isEmpty := by
    simp [RefObjectMap.hasConditions]
  unfold resolve Resolves consultedFor sharedSubjects
  rw [hfound, pure_bind, hposition, hparent, hconditions]
  dsimp only
  by_cases hsame : (r.conditions.isEmpty && parent.logicalSource == child.logicalSource) = true
  · simp only [if_pos hsame]
    rw [subjectMapOf_eq hsubject, pure_bind, subjectsOf_eq hsubject]
    exact (e.lists_evaluate hR _ _ _).tells ⟨rfl, .inl rfl⟩
  · simp only [if_neg hsame]
    rw [r.key?_childReferences]
    by_cases hanswerable : r.answerable record = true
    · simp only [if_pos hanswerable]
      refine tells_bind hR
        (tells_indexFor hposition hparent hsource hsubject r.parentReferences) ?_
        fun _ _ => id
      rintro index _ rfl
      exact tells_pure hR ⟨rfl, .inr ⟨by simp, trivial, _, rfl⟩⟩
    · simp only [if_neg hanswerable]
      exact tells_pure hR ⟨rfl, .inl rfl⟩

include hvalid in
theorem tells_objectsAt {site : Site} (hm : site.triplesMap ∈ e.graph.triplesMaps)
    {m : ObjectMap} (hr : ∀ r, m = .parent r → r ∈ site.triplesMap.parents) :
    Tells (e.Told site.triplesMap.iri) (e.objectsAt site m)
      (fun objects ds => ds = site.noted (e.ownObjects site m) ∧ e.Finds site [m] objects)
      fun error ds => ds = [] ∧ Interrupts (e.consultedAmong site [m]) error := by
  have hR := e.bookkeeping_told site.triplesMap.iri
  have hown : ∀ result, result = e.ownObjects site m → e.Finds site [m] (orNone result) := by
    rintro _ rfl
    exact ⟨fun hne => .inl ⟨m, by simp, hne⟩, fun hnil m' hm' => by simp_all⟩
  cases m with
  | term m => exact (e.lists_termsAt hR site m).tells ⟨rfl, hown _ rfl⟩
  | parent r =>
      have hconsulted : e.consultedAmong site [.parent r]
          = e.consultedFor r site.triplesMap site.record :=
        List.append_nil _
      rw [hconsulted]
      refine tells_bind hR (tells_resolve hvalid hm (hr r rfl) site.record) ?_ fun _ _ => id
      rintro result _ ⟨rfl, hresolves⟩
      refine (lists_survive hR site result).tells ⟨hresolves.noted, ?_⟩
      rcases hresolves with hshared | ⟨hasked, hshared, -⟩
      · exact hown result hshared
      · refine ⟨fun _ => .inr (hconsulted ▸ hasked), fun _ m' hm' => ?_⟩
        obtain rfl : m' = .parent r := by simpa using hm'
        rw [ownObjects, hshared]
        rfl

include hvalid in
theorem tells_allObjectsAt {site : Site} (hm : site.triplesMap ∈ e.graph.triplesMaps)
    {p : PredicateObjectMap} (hp : p ∈ site.triplesMap.predicateObjectMaps) {ms : List ObjectMap}
    (hms : ∀ m ∈ ms, m ∈ p.objectMaps) :
    Tells (e.Told site.triplesMap.iri) (e.allObjectsAt site ms)
      (fun objects ds => ds = e.objectFailures site ms ∧ e.Finds site ms objects)
      fun error ds => ds <+: e.objectFailures site ms ∧
        Interrupts (e.consultedAmong site ms) error := by
  have hR := e.bookkeeping_told site.triplesMap.iri
  induction ms with
  | nil =>
      exact tells_pure hR ⟨rfl, fun h => absurd rfl h, fun _ _ hm' => absurd hm' (by simp)⟩
  | cons m ms ih =>
      have hr : ∀ r, m = .parent r → r ∈ site.triplesMap.parents := by
        rintro r rfl
        exact RuleGraph.mem_parents hp (hms _ (by simp))
      rw [consultedAmong_cons, objectFailures, List.flatMap_cons]
      refine tells_bind hR (tells_objectsAt hvalid hm hr) ?_ ?_
      · rintro objects _ ⟨rfl, hfinds⟩
        refine tells_bind hR (ih fun m' hm' => hms m' (by simp [hm'])) ?_ ?_
        · rintro objects' _ ⟨rfl, hfinds'⟩
          refine tells_pure hR ⟨?_, hfinds.cons hfinds'⟩
          rw [List.append_nil]
          rfl
        · rintro error ds ⟨hbegins, hinterrupts⟩
          refine ⟨(List.prefix_append_right_inj _).mpr hbegins, hinterrupts.mono ?_⟩
          exact fun _ => List.mem_append_right _
      · rintro error _ ⟨rfl, hinterrupts⟩
        exact ⟨List.nil_prefix, hinterrupts.mono fun _ => List.mem_append_left _⟩

/-! ### Statements -/

theorem consultedBy_eq {site : Site} {p : PredicateObjectMap}
    (h : (e.termsOf site p.predicateMaps).isEmpty = false) :
    e.consultedBy site p = e.consultedAmong site p.objectMaps := by
  rw [consultedBy, h]
  rfl

/-- A predicate-object map has failures of some kind. -/
theorem exists_statementFailures (e : Engine) (site : Site) (p : PredicateObjectMap) :
    ∃ ds, e.StatementFailures site p ds := by
  cases hnone : (e.termsOf site p.predicateMaps).isEmpty with
  | true => exact ⟨_, .unstated hnone⟩
  | false =>
      by_cases hfinds : e.FindsNoOwn site p.objectMaps
      · exact ⟨_, .objectless hnone hfinds⟩
      · refine ⟨_, .stated hnone (.inl ?_)⟩
        simpa [FindsNoOwn] using hfinds

theorem exists_allStatementFailures (e : Engine) (site : Site) (ps : List PredicateObjectMap) :
    ∃ ds, e.AllStatementFailures site ps ds := by
  induction ps with
  | nil => exact ⟨[], .nil⟩
  | cons p ps ih =>
      obtain ⟨ds, hds⟩ := e.exists_statementFailures site p
      obtain ⟨ds', hds'⟩ := ih
      exact ⟨ds ++ ds', .cons hds hds'⟩

include hvalid in
theorem tells_statementsAt {site : Site} (hm : site.triplesMap ∈ e.graph.triplesMaps)
    (subjectMap : SubjectMap) (subjects : List Term) (graphs : List (Option Term))
    {p : PredicateObjectMap} (hp : p ∈ site.triplesMap.predicateObjectMaps) :
    Tells (e.Told site.triplesMap.iri) (e.statementsAt site subjectMap subjects graphs p)
      (fun _ ds => e.StatementFailures site p ds)
      fun error ds => ∃ ds', e.StatementFailures site p ds' ∧ ds <+: ds' ∧
        Interrupts (e.consultedBy site p) error := by
  have hR := e.bookkeeping_told site.triplesMap.iri
  refine lists_bind_tells hR (e.lists_allTermsAt hR site p.predicateMaps) ?_
  cases hnone : (e.termsOf site p.predicateMaps).isEmpty with
  | true =>
      refine tells_pure hR ?_
      rw [List.append_nil]
      exact .unstated hnone
  | false =>
      rw [consultedBy_eq hnone]
      refine tells_bind hR (tells_allObjectsAt hvalid hm hp fun _ => id) ?_ ?_
      · rintro objects _ ⟨rfl, hfinds⟩
        cases hobjects : objects.isEmpty with
        | true =>
            refine tells_pure hR ?_
            rw [List.append_nil]
            exact .objectless hnone (hfinds.none (List.isEmpty_iff.mp hobjects))
        | false =>
            have hsome : objects ≠ [] := by
              rintro rfl
              cases hobjects
            refine lists_bind_tells hR (e.lists_addGraphsAt hR site graphs p.graphMaps) ?_
            dsimp only
            -- What is left puts together what was found.
            have hstated := StatementFailures.stated hnone (hfinds.some hsome)
            split
            · refine tells_pure hR ?_
              rwa [List.append_nil]
            · refine (lists_emit hR _).tells ?_
              rwa [List.append_nil]
      · rintro error ds ⟨hbegins, hinterrupts⟩
        refine ⟨_, .stated hnone (.inr hinterrupts.ne_nil), ?_, hinterrupts⟩
        rw [List.prefix_append_right_inj]
        exact hbegins.trans (List.prefix_append _ _)

include hvalid in
theorem tells_allStatementsAt {site : Site} (hm : site.triplesMap ∈ e.graph.triplesMaps)
    (subjectMap : SubjectMap) (subjects : List Term) (graphs : List (Option Term))
    {ps : List PredicateObjectMap} (hps : ∀ p ∈ ps, p ∈ site.triplesMap.predicateObjectMaps) :
    Tells (e.Told site.triplesMap.iri)
      (ps.forM (e.statementsAt site subjectMap subjects graphs))
      (fun _ ds => e.AllStatementFailures site ps ds)
      fun error ds => ∃ ds', e.AllStatementFailures site ps ds' ∧ ds <+: ds' ∧
        Interrupts (ps.flatMap (e.consultedBy site)) error := by
  have hR := e.bookkeeping_told site.triplesMap.iri
  induction ps with
  | nil => exact tells_pure hR .nil
  | cons p ps ih =>
      rw [List.forM, List.flatMap_cons]
      refine tells_bind hR (tells_statementsAt hvalid hm subjectMap subjects graphs
        (hps p (by simp))) ?_ ?_
      · intro _ ds hds
        refine (ih fun p' hp' => hps p' (by simp [hp'])).mono ?_ ?_
        · exact fun _ ds' hds' => .cons hds hds'
        · rintro error ds' ⟨all, hall, hbegins, hinterrupts⟩
          refine ⟨ds ++ all, .cons hds hall, (List.prefix_append_right_inj ds).mpr hbegins, ?_⟩
          exact hinterrupts.mono fun _ => List.mem_append_right _
      · rintro error ds ⟨all, hall, hbegins, hinterrupts⟩
        obtain ⟨rest, hrest⟩ := e.exists_allStatementFailures site ps
        refine ⟨all ++ rest, .cons hall hrest, hbegins.trans (List.prefix_append _ _), ?_⟩
        exact hinterrupts.mono fun _ => List.mem_append_left _

include hvalid in
theorem tells_describe {site : Site} (hm : site.triplesMap ∈ e.graph.triplesMaps)
    (subjectMap : SubjectMap) (subjects : List Term) :
    Tells (e.Told site.triplesMap.iri) (e.describe site subjectMap subjects)
      (fun _ ds => e.DescriptionFailures site subjectMap ds)
      fun error ds => ∃ ds', e.DescriptionFailures site subjectMap ds' ∧ ds <+: ds' ∧
        Interrupts (site.triplesMap.predicateObjectMaps.flatMap (e.consultedBy site)) error := by
  have hR := e.bookkeeping_told site.triplesMap.iri
  refine lists_bind_tells hR (e.lists_addGraphsAt hR site [] subjectMap.graphMaps) ?_
  refine lists_bind_tells hR (lists_emit hR _) ?_
  refine (tells_allStatementsAt hvalid hm subjectMap subjects _ fun _ => id).mono ?_ ?_
  · exact fun _ ds hds => ⟨ds, hds, rfl⟩
  · rintro error ds ⟨all, hall, hbegins, hinterrupts⟩
    refine ⟨_, ⟨all, hall, rfl⟩, ?_, hinterrupts⟩
    exact (List.prefix_append_right_inj _).mpr hbegins

/-! ### Records -/

/-- What is entered for a record that the triples map goes on from. -/
structure Visited (e : Engine) (policy : SubjectErrorPolicy) (position : Nat) (m : TriplesMap)
    (n : Nat) (record : Record) (a : Account) : Prop where
  passes : ¬ e.Aborts policy position m record
  records : a.records = 1
  skippedRecords : a.skippedRecords ≤ 1
  failures : e.RecordFailures position m n record a.log.failures

/-- What is entered for a record that the triples map ends at. -/
structure CutShort (e : Engine) (policy : SubjectErrorPolicy) (position : Nat) (m : TriplesMap)
    (n : Nat) (record : Record) (error : Error) (a : Account) : Prop where
  skippedRecords : a.skippedRecords = 0
  failures : ∀ items,
    e.FailuresOver policy position m n (.ok record :: items) (some error) a.log.failures

section

variable {policy : SubjectErrorPolicy} {position : Nat} {m : TriplesMap} {n : Nat}
  {record : Record} {a b : Account} {ds ds' : List Diagnostic}

/-- A record without subject is counted once more. -/
theorem Visited.skipped (hpasses : ¬ e.Aborts policy position m record) (ha : a.Lists ds)
    (hb : b.Lists ds') (hfailures : e.RecordFailures position m n record (ds ++ ds')) :
    e.Visited policy position m n record
      ({ records := 1 } ++ (a ++ (b ++ { skippedRecords := 1 }))) where
  passes := hpasses
  records := by simp [ha.records, hb.records]
  skippedRecords := by simp [ha.skippedRecords, hb.skippedRecords]
  failures := by simpa [ha.failures, hb.failures] using hfailures

theorem Visited.described (hpasses : ¬ e.Aborts policy position m record) (ha : a.Lists ds)
    (hb : b.Lists ds') (hfailures : e.RecordFailures position m n record (ds ++ ds')) :
    e.Visited policy position m n record ({ records := 1 } ++ (a ++ b)) where
  passes := hpasses
  records := by simp [ha.records, hb.records]
  skippedRecords := by simp [ha.skippedRecords, hb.skippedRecords]
  failures := by simpa [ha.failures, hb.failures] using hfailures

theorem CutShort.described {error : Error} {all : List Diagnostic} (ha : a.Lists ds)
    (hb : b.Lists ds') (hall : e.RecordFailures position m n record (ds ++ all))
    (hbegins : ds' <+: all) (hinterrupts : Interrupts (e.consultedAt position m n record) error) :
    e.CutShort policy position m n record error ({ records := 1 } ++ (a ++ b)) where
  skippedRecords := by simp [ha.skippedRecords, hb.skippedRecords]
  failures items := by
    have hlisted : (({ records := 1 } : Account) ++ (a ++ b)).log.failures = ds ++ ds' := by
      simp [ha.failures, hb.failures]
    rw [hlisted]
    exact .scan items hall ((List.prefix_append_right_inj ds).mpr hbegins) hinterrupts

end

include hvalid in
/-- A record is counted, and its failures are listed. -/
theorem books_visitRecord (policy : SubjectErrorPolicy) (position : Nat) {m : TriplesMap}
    (hm : m ∈ e.graph.triplesMaps) {subjectMap : SubjectMap}
    (hsubject : m.subjectMap = some subjectMap) (n : Nat) (record : Record) :
    Books (e.Told m.iri) (e.visitRecord policy m (blankScope position) subjectMap n record)
      (fun _ => e.Visited policy position m n record) (e.CutShort policy position m n record) := by
  have hR := e.bookkeeping_told m.iri
  refine books_bind hR (books_countRecord hR) ?_ fun _ _ => False.elim
  rintro _ _ rfl
  refine lists_bind_books hR (e.lists_evaluate hR subjectMap.termMap record (blankScope position))
    fun a ha => ?_
  rw [← subjectsOf_eq hsubject]
  cases hresult : e.subjectsOf position m record with
  | error error =>
      cases policy with
      | skipRecord =>
          refine lists_bind_books hR (lists_absorb hR m.iri n error) fun b hb => ?_
          refine (books_countSkipped hR).mono ?_ fun _ _ => False.elim
          rintro _ _ rfl
          exact .skipped (fun h => nomatch h.1) ha hb (.failed hresult)
      | abortTriplesMap =>
          refine books_throw hR ⟨?_, fun items => ?_⟩
          · simp [ha.skippedRecords]
          · simpa [ha.failures] using FailuresOver.abort items rfl hresult
  | ok subjects =>
      have hpasses : ¬ e.Aborts policy position m record := by
        rintro ⟨-, error, herror⟩
        rw [hresult] at herror
        cases herror
      cases subjects with
      | nil =>
          refine lists_bind_books hR (lists_log hR rfl fun _ => rfl) fun b hb => ?_
          refine (books_countSkipped hR).mono ?_ fun _ _ => False.elim
          rintro _ _ rfl
          exact .skipped hpasses ha hb (.subjectless hresult)
      | cons subject subjects =>
          let site : Site := ⟨m, blankScope position, n, record⟩
          have hasked : e.consultedAt position m n record
              = m.predicateObjectMaps.flatMap (e.consultedBy site) := by
            rw [consultedAt, hresult]
          have hdescribes : Tells (e.Told site.triplesMap.iri)
              (e.describe site subjectMap (subject :: subjects)) _ _ :=
            tells_describe hvalid hm subjectMap (subject :: subjects)
          refine Books.mono hdescribes ?_ ?_
          · rintro _ b ⟨ds, hb, hds⟩
            exact .described hpasses ha hb (.described hsubject hresult hds)
          · rintro error b ⟨ds, hb, all, hall, hbegins, hinterrupts⟩
            exact .described ha hb (.described hsubject hresult hall) hbegins
              (hasked ▸ hinterrupts)

/-! ### Items -/

/-- What is left of executing a triples map when its source is open. -/
def ownItems (e : Engine) (policy : SubjectErrorPolicy) (position : Nat) (m : TriplesMap)
    (subjectMap : SubjectMap) (items : List Item) : Step Unit := do
  e.scan m.iri (fun _ => e.visitRecord policy m (blankScope position) subjectMap) 0 () items
  log (.completed ((← get).progress.stats m.iri .completed))

theorem runTriplesMap_eq (policy : SubjectErrorPolicy) (position : Nat) {m : TriplesMap}
    {source : LogicalSource} (hsource : m.logicalSource = some source) {subjectMap : SubjectMap}
    (hsubject : m.subjectMap = some subjectMap) :
    e.runTriplesMap policy position m = inSpan (.triplesMap m.iri)
      (openSource e.provider m.iri source >>= e.ownItems policy position m subjectMap) := by
  unfold runTriplesMap
  rw [sourceOf_eq hsource, subjectMapOf_eq hsubject, pure_bind, pure_bind]
  rfl

/-- What is entered over the items of the source of a triples map. -/
structure Counted (e : Engine) (policy : SubjectErrorPolicy) (position : Nat) (m : TriplesMap)
    (n : Nat) (items : List Item) (ended : Option Error) (a : Account) : Prop where
  records : ended = none → a.records = items.length
  skippedRecords : a.skippedRecords ≤ a.records
  failures : e.FailuresOver policy position m n items ended a.log.failures

theorem Visited.append {policy : SubjectErrorPolicy} {position : Nat} {m : TriplesMap} {n : Nat}
    {record : Record} {items : List Item} {ended : Option Error} {a b : Account}
    (h : e.Visited policy position m n record a)
    (h' : e.Counted policy position m (n + 1) items ended b) :
    e.Counted policy position m n (.ok record :: items) ended (a ++ b) where
  records hended := by
    rw [Account.records_append, h.records, h'.records hended, List.length_cons]
    omega
  skippedRecords := by
    have hone := h.skippedRecords
    have hrest := h'.skippedRecords
    rw [Account.skippedRecords_append, Account.records_append, h.records]
    omega
  failures := by
    rw [Account.log_append, Log.failures_append]
    exact .record h.passes h.failures h'.failures

/-- Nothing more counts once all items were visited. -/
theorem Counted.append {policy : SubjectErrorPolicy} {position : Nat} {m : TriplesMap} {n : Nat}
    {items : List Item} {ended : Option Error} {a b : Account}
    (h : e.Counted policy position m n items ended a) (hb : b.Lists []) :
    e.Counted policy position m n items ended (a ++ b) where
  records hended := by rw [Account.records_append, hb.records, h.records hended, Nat.add_zero]
  skippedRecords := by
    rw [Account.skippedRecords_append, Account.records_append, hb.records, hb.skippedRecords]
    exact h.skippedRecords
  failures := by
    rw [Account.log_append, Log.failures_append, hb.failures, List.append_nil]
    exact h.failures

include hvalid in
/-- Every record is counted and all failures are listed, up to where the triples map ends. -/
theorem books_scanItems (policy : SubjectErrorPolicy) (position : Nat) {m : TriplesMap}
    (hm : m ∈ e.graph.triplesMaps) {subjectMap : SubjectMap}
    (hsubject : m.subjectMap = some subjectMap) (items : List Item) :
    Books (e.Told m.iri)
      (e.scan m.iri (fun _ => e.visitRecord policy m (blankScope position) subjectMap) 0 () items)
      (fun _ => e.Counted policy position m 0 items none)
      fun error => e.Counted policy position m 0 items (some error) := by
  have hvisit : ∀ (_ : Unit) (n : Nat) (record : Record) (items : List Item),
      Books (e.Told m.iri) (e.visitRecord policy m (blankScope position) subjectMap n record)
        (fun _ => e.Visited policy position m n record)
        fun error => e.Counted policy position m n (.ok record :: items) (some error) := by
    intro _ n record items
    refine (books_visitRecord hvalid policy position hm hsubject n record).mono (fun _ _ => id) ?_
    intro error a h
    exact ⟨nofun, by simp [h.skippedRecords], h.failures items⟩
  refine e.books_scan (e.bookkeeping_told m.iri) m.iri
    (fun n items => e.Counted policy position m n items none)
    (fun n items error => e.Counted policy position m n items (some error))
    hvisit ?_ ?_ ?_ ?_ ?_ items 0 ()
  · exact fun n => ⟨fun _ => rfl, Nat.le_refl 0, .done n⟩
  · exact fun n item items => ⟨nofun, Nat.le_refl 0, .cancelled n item items⟩
  · exact fun n fault items => ⟨nofun, Nat.le_refl 0, .fault n fault items⟩
  · exact fun n record items a b ha hb => ha.append hb
  · exact fun n record items error a b ha hb => ha.append hb

include hvalid in
/-- When all items were visited the triples map is completed. -/
theorem books_ownItems (policy : SubjectErrorPolicy) (position : Nat) {m : TriplesMap}
    (hm : m ∈ e.graph.triplesMaps) {subjectMap : SubjectMap}
    (hsubject : m.subjectMap = some subjectMap) (items : List Item) :
    Books (e.Told m.iri) (e.ownItems policy position m subjectMap items)
      (fun _ => e.Counted policy position m 0 items none)
      fun error => e.Counted policy position m 0 items (some error) := by
  have hR := e.bookkeeping_told m.iri
  refine books_bind hR (books_scanItems hvalid policy position hm hsubject items) ?_ fun _ _ => id
  intro _ a hcounted
  have hcompleted : Tells (e.Told m.iri)
      (do log (.completed ((← get).progress.stats m.iri .completed)))
      (fun _ ds => ds = []) fun _ _ => False :=
    (lists_get fun _ => lists_log hR rfl fun _ => rfl).tells rfl
  refine Books.mono hcompleted ?_ ?_
  · rintro _ b ⟨_, hb, rfl⟩
    exact hcounted.append hb
  · rintro error b ⟨ds, -, hfalse⟩
    exact hfalse.elim

end Engine

end RdfMapping
