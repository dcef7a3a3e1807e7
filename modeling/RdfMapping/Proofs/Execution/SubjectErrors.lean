/-
A subject that fails costs its record or its triples map.

There are two policies for a record whose subject ends in a function error.  Either the record is
skipped, or the triples map is given up at it.  `aborts_cost_triplesMaps` says that, as long as
all sources can be read, the second policy costs whole triples maps and nothing else: a run under
it succeeds, gives up just the triples maps that come upon such a record, each with a diagnostic
about the first one, and is otherwise the run under the first policy without these triples maps.

Neither does anything else that fails give a triples map up, nor does the policy have a say in the
indexes of parents, where a record whose subject fails is left out in any case.  Both can be seen
from what a triples map yields: the policy matters for the subject of a record and nowhere else,
so up to the first failing subject the yields under the two policies are the same.
-/
import RdfMapping.Function.Standard
import RdfMapping.Proofs.Execution.Atomicity
import RdfMapping.Proofs.Execution.Integrity
import RdfMapping.Proofs.Execution.NestedLoops

namespace RdfMapping

/-- All sources of the graph can be opened and read to their ends. -/
def Provider.Unfailing (p : Provider) (g : RuleGraph) : Prop :=
  ∀ m ∈ g.triplesMaps, ∀ source, m.logicalSource = some source →
    ∃ records : List Record, p.openAfter [] source = .ok (records.map .ok)

/-- The executor with another policy for failing subjects. -/
def Executor.withSubjectErrors (x : Executor) (policy : SubjectErrorPolicy) : Executor :=
  { x with config := { x.config with subjectFunctionErrors := policy } }

/-! ### Failures of a yield -/

/-- Either everything is fine, or there is a first error. -/
theorem exists_first_error {α β ε : Type} (f : α → Except ε β) (as : List α) :
    (∀ a ∈ as, ∃ b, f a = .ok b) ∨
      ∃ before a after error, as = before ++ a :: after ∧ f a = .error error ∧
        ∀ earlier ∈ before, ∃ b, f earlier = .ok b := by
  induction as with
  | nil => exact .inl nofun
  | cons a as ih =>
      cases ha : f a with
      | error error => exact .inr ⟨[], a, as, error, rfl, ha, nofun⟩
      | ok b =>
          rcases ih with hall | ⟨before, a', after, error, rfl, herror, hbefore⟩
          · exact .inl (List.forall_mem_cons.mpr ⟨⟨b, ha⟩, hall⟩)
          · exact .inr ⟨a :: before, a', after, error, rfl, herror,
              List.forall_mem_cons.mpr ⟨⟨b, ha⟩, hbefore⟩⟩

namespace Yield

variable {iri : String} {visit visit' : Nat → Record → Yield}
  {records : List Record} {n : Nat}

theorem failure_all_eq_none {ys : List Yield} (h : ∀ y ∈ ys, y.failure = none) :
    (all ys).failure = none := by
  induction ys with
  | nil => rfl
  | cons y ys ih =>
      exact failure_andThen_eq_none_iff.mpr ⟨h y (by simp), ih fun z hz => h z (by simp [hz])⟩

theorem failure_scan_eq_none (h : ∀ record ∈ records, ∀ k, (visit k record).failure = none) :
    (scan iri visit n (records.map .ok)).failure = none := by
  induction records generalizing n with
  | nil => rfl
  | cons record records ih =>
      refine failure_andThen_eq_none_iff.mpr ⟨h record (by simp) n, ?_⟩
      exact ih fun other hother => h other (by simp [hother])

theorem scan_congr (h : ∀ record ∈ records, ∀ k, visit k record = visit' k record) :
    scan iri visit n (records.map .ok) = scan iri visit' n (records.map .ok) := by
  induction records generalizing n with
  | nil => rfl
  | cons record records ih =>
      rw [List.map_cons, scan, scan, h record (by simp) n,
        ih fun other hother => h other (by simp [hother])]

/-- A scan fails with the first record that fails. -/
theorem failure_scan_of_first {before after : List Record} {record : Record} {failure : Failure}
    (hbefore : ∀ earlier ∈ before, ∀ k, (visit k earlier).failure = none)
    (hfirst : (visit (n + before.length) record).failure = some failure) :
    (scan iri visit n ((before ++ record :: after).map .ok)).failure = some failure := by
  induction before generalizing n with
  | nil =>
      show ((visit n record).andThen _).failure = _
      rw [andThen, show (visit n record).failure = some failure from hfirst]
  | cons earlier before ih =>
      have hrest : (scan iri visit (n + 1) ((before ++ record :: after).map .ok)).failure
          = some failure := by
        refine ih (fun other hother => hbefore other (by simp [hother])) ?_
        rw [← hfirst, List.length_cons, Nat.add_assoc, Nat.add_comm 1]
      show ((visit n earlier).andThen _).failure = _
      rw [andThen, hbefore earlier (by simp) n]
      exact hrest

end Yield

/-! ### Triples maps under the two policies -/

namespace Engine

variable {e : Engine} {position : Nat} {m : TriplesMap} {record : Record}

/-- The subject of the record at a position ends in a function error, and it is the first one. -/
def FailsFirst (e : Engine) (position : Nat) (m : TriplesMap) (n : Nat) (error : FunctionError) :
    Prop :=
  ∃ before record after, e.recordsOf m = .ok (before ++ record :: after) ∧ before.length = n ∧
    e.subjectsOf position m record = .error error ∧
    ∀ earlier ∈ before, ∃ ts, e.subjectsOf position m earlier = .ok ts

/-- The policy has no say in a record whose subject does not fail. -/
theorem recordYield_of_ok {subjectMap : SubjectMap} {scope : String} {ts : List Term}
    (hok : e.generator.terms subjectMap.termMap record scope = .ok ts) (m : TriplesMap) (n : Nat) :
    e.recordYield .abortTriplesMap m scope subjectMap n record
      = e.recordYield .skipRecord m scope subjectMap n record := by
  unfold recordYield
  rw [hok]
  cases ts <;> rfl

section Unfailing

variable (h : e.provider.Unfailing e.graph)

include h

theorem exists_recordsOf (hm : m ∈ e.graph.triplesMaps) :
    ∃ records, e.recordsOf m = .ok records := by
  unfold recordsOf
  cases hsource : m.logicalSource with
  | none => exact ⟨[], rfl⟩
  | some source =>
      obtain ⟨records, hrecords⟩ := h m hm source hsource
      dsimp only
      rw [hrecords]
      exact ⟨records, readItems_map_ok m.iri records 0⟩

theorem exists_joined (r : RefObjectMap) (child : TriplesMap) (record : Record) :
    ∃ result, e.joined r child record = .ok result := by
  unfold joined
  cases hposition : e.graph.position? r.parent with
  | none => exact ⟨_, rfl⟩
  | some position =>
      cases hparent : e.graph.get? r.parent with
      | none => exact ⟨_, rfl⟩
      | some parent =>
          obtain ⟨records, hrecords⟩ := exists_recordsOf h (List.mem_of_find?_eq_some hparent)
          dsimp only
          split
          · exact ⟨_, rfl⟩
          · split
            · rw [hrecords]
              exact ⟨_, rfl⟩
            · exact ⟨_, rfl⟩

theorem exists_allObjectsOf (site : Site) (ms : List ObjectMap) :
    ∃ objects, e.allObjectsOf site ms = .ok objects := by
  induction ms with
  | nil => exact ⟨[], rfl⟩
  | cons m ms ih =>
      have hfirst : ∃ objects, e.objectsOf site m = .ok objects := by
        cases m with
        | term map => exact ⟨_, rfl⟩
        | parent r =>
            obtain ⟨result, hresult⟩ := exists_joined h r site.triplesMap site.record
            exact ⟨orNone result, by rw [objectsOf, hresult]; rfl⟩
      obtain ⟨first, hfirst⟩ := hfirst
      obtain ⟨rest, hrest⟩ := ih
      exact ⟨first ++ rest, by rw [allObjectsOf, hfirst, hrest]; rfl⟩

/-- Nothing that is said about the subjects of a record fails. -/
theorem failure_describeYield (site : Site) (subjectMap : SubjectMap) (subjects : List Term) :
    (e.describeYield site subjectMap subjects).failure = none := by
  refine Yield.failure_andThen_eq_none_iff.mpr ⟨rfl, Yield.failure_all_eq_none fun y hy => ?_⟩
  obtain ⟨p, -, rfl⟩ := List.mem_map.mp hy
  obtain ⟨objects, hobjects⟩ := exists_allObjectsOf h site p.objectMaps
  unfold statementsYield
  rw [hobjects]
  dsimp only
  split <;> rfl

theorem failure_recordYield_skipRecord (m : TriplesMap) (scope : String)
    (subjectMap : SubjectMap) (n : Nat) (record : Record) :
    (e.recordYield .skipRecord m scope subjectMap n record).failure = none := by
  unfold recordYield
  split
  · rfl
  · rfl
  · exact Yield.failure_andThen_eq_none_iff.mpr ⟨rfl, failure_describeYield h _ _ _⟩

theorem failure_mapYield_skipRecord (hm : m ∈ e.graph.triplesMaps) :
    (e.mapYield .skipRecord position m).failure = none := by
  unfold mapYield
  split
  · rename_i source subjectMap hsource hsubject
    obtain ⟨records, hrecords⟩ := h m hm source hsource
    rw [hrecords]
    exact Yield.failure_scan_eq_none fun record _ k =>
      failure_recordYield_skipRecord h m _ subjectMap k record
  · rfl

/-- Giving up at failing subjects either makes no difference, as none fails, or means to be given
up at the first one. -/
theorem mapYield_abortTriplesMap_cases (he : e.Repeatable) (position : Nat)
    (hm : m ∈ e.graph.triplesMaps) :
    ((∀ record, e.Reads m record → ∃ ts, e.subjectsOf position m record = .ok ts) ∧
        e.mapYield .abortTriplesMap position m = e.mapYield .skipRecord position m) ∨
      (∃ record, e.Reads m record ∧ ∃ error, e.subjectsOf position m record = .error error) ∧
        ∃ n error, e.FailsFirst position m n error ∧
          (e.mapYield .abortTriplesMap position m).failure = some ⟨some n, .function error⟩ := by
  obtain ⟨source, hsource⟩ := Option.isSome_iff_exists.mp (he.complete m hm).1
  obtain ⟨subjectMap, hsubject⟩ := Option.isSome_iff_exists.mp (he.complete m hm).2
  obtain ⟨records, hrecords⟩ := h m hm source hsource
  have hsubjects : ∀ record, e.subjectsOf position m record
      = e.generator.terms subjectMap.termMap record (blankScope position) := by
    intro record
    rw [subjectsOf, hsubject]
  have hyield : ∀ policy, e.mapYield policy position m
      = .scan m.iri (e.recordYield policy m (blankScope position) subjectMap) 0
        (records.map .ok) := by
    intro policy
    rw [mapYield, hsource, hsubject]
    dsimp only
    rw [hrecords]
  have hrecordsOf : e.recordsOf m = .ok records := by
    rw [recordsOf, hsource]
    dsimp only
    rw [hrecords]
    exact readItems_map_ok m.iri records 0
  rcases exists_first_error (e.subjectsOf position m) records with
    hall | ⟨before, record, after, error, rfl, herror, hearlier⟩
  · refine .inl ⟨?_, ?_⟩
    · rintro record ⟨source', items, hsource', hitems, hrecord⟩
      rw [hsource, Option.some.injEq] at hsource'
      rw [← hsource', hrecords, Except.ok.injEq] at hitems
      rw [← hitems] at hrecord
      exact hall record (by simpa using hrecord)
    · rw [hyield, hyield]
      refine Yield.scan_congr fun record hrecord k => ?_
      obtain ⟨ts, hts⟩ := hall record hrecord
      exact recordYield_of_ok ((hsubjects record).symm.trans hts) m k
  · refine .inr ⟨⟨record, ⟨source, _, hsource, hrecords, by simp⟩, error, herror⟩,
      before.length, error, ⟨before, record, after, hrecordsOf, rfl, herror, hearlier⟩, ?_⟩
    rw [hyield]
    refine Yield.failure_scan_of_first (fun earlier hmem k => ?_) ?_
    · obtain ⟨ts, hts⟩ := hearlier earlier hmem
      rw [recordYield_of_ok ((hsubjects earlier).symm.trans hts) m k]
      exact failure_recordYield_skipRecord h m _ subjectMap k earlier
    · rw [recordYield, ← hsubjects, herror, Nat.zero_add]

/-- No triples map is lost because of a source. -/
theorem lossOf_eq_none (he : e.Repeatable) (policy : SubjectErrorPolicy)
    {entry : Nat × TriplesMap} (hm : entry.2 ∈ e.graph.triplesMaps) :
    e.lossOf policy entry = none := by
  cases hloss : e.lossOf policy entry with
  | none => rfl
  | some d =>
      obtain ⟨failure, hfailure, hsource, -⟩ := lossOf_eq_some_iff.mp hloss
      cases policy with
      | skipRecord =>
          rw [failure_mapYield_skipRecord h hm] at hfailure
          cases hfailure
      | abortTriplesMap =>
          rcases mapYield_abortTriplesMap_cases h he entry.1 hm with
            ⟨-, hsame⟩ | ⟨-, n, error, -, hfirst⟩
          · rw [hsame, failure_mapYield_skipRecord h hm] at hfailure
            cases hfailure
          · rw [hfirst, Option.some.injEq] at hfailure
            rw [← hfailure] at hsource
            cases hsource

/-- Every triples map leaves a part behind. -/
theorem partsOf_of_unfailing (he : e.Repeatable) (hvalid : e.graph.validate = .ok ())
    {selected : List (Nat × TriplesMap)}
    (hselected : ∀ entry ∈ selected, e.graph.triplesMaps[entry.1]? = some entry.2) (c : Config) :
    e.partsOf c selected = .ok (selected.map (e.keptOf c.subjectFunctionErrors)) := by
  refine mapM_eq_ok_iff.mpr ?_
  rw [List.forall₂_map_right_iff, List.forall₂_same]
  intro entry hentry
  have hget := hselected entry hentry
  exact part_eq_kept he hvalid hget (.inr (lossOf_eq_none h he _ (List.mem_of_getElem? hget)))

end Unfailing

/-! ### What triples maps leave behind -/

/-- What the triples map left behind has the quads and counts that it yields, and behind all other
diagnostics the one of its failure, if there is one. -/
structure Leaves (e : Engine) (c : Config) (entry : Nat × TriplesMap) (part : Contribution) :
    Prop where
  part_eq : (e.mapYield c.subjectFunctionErrors entry.1 entry.2).part c entry.2.iri
    = .ok part.part
  last : ∀ failure, (e.mapYield c.subjectFunctionErrors entry.1 entry.2).failure = some failure →
    part.diagnostics.getLast? = some ⟨entry.2.iri, failure.record, failure.error⟩

theorem leaves_contribution (he : e.Repeatable) {c : Config} {entry : Nat × TriplesMap}
    (hm : entry.2 ∈ e.graph.triplesMaps) (hknown : e.KnowsParents entry.2) {s s' : RunState}
    (hs : e.Sound s) {part : Contribution}
    (h : e.contribution c entry.1 entry.2 s = .ok part s') : e.Sound s' ∧ e.Leaves c entry part := by
  obtain ⟨s₁, full, hs₁, hstep, hview⟩ := shows_contribution he c entry.1 hm hknown s hs
  rw [h] at hstep
  cases full with
  | error failure => cases hstep
  | ok first =>
      cases hstep
      refine ⟨hs₁, hview.symm, fun failure hfailure => ?_⟩
      obtain ⟨s₂, -, -, hrun⟩ := yields_runTriplesMap he c.subjectFunctionErrors entry.1 hm hknown
        { s with progress := {} } ⟨hs.undisturbed, hs.indexes⟩
      rw [contribution_eq, hrun, Yield.outcome, hfailure] at h
      dsimp only [Step.result] at h
      split at h
      · cases h
        exact List.getLast?_concat
      · cases h

theorem leaves_contributions (he : e.Repeatable) {c : Config} {selected : List (Nat × TriplesMap)}
    (hselected : ∀ entry ∈ selected, entry.2 ∈ e.graph.triplesMaps ∧ e.KnowsParents entry.2)
    {s s' : RunState} (hs : e.Sound s) {parts : List Contribution}
    (h : e.contributions c selected s = .ok parts s') :
    List.Forall₂ (e.Leaves c) selected parts := by
  induction selected generalizing s parts with
  | nil => cases h; exact .nil
  | cons entry selected ih =>
      obtain ⟨hm, hknown⟩ := hselected entry (by simp)
      rw [contributions_cons_apply] at h
      cases hfirst : e.contribution c entry.1 entry.2 s with
      | error failure s₁ => rw [hfirst] at h; cases h
      | ok first s₁ =>
          rw [hfirst] at h
          dsimp only at h
          cases hrest : e.contributions c selected s₁ with
          | error failure s₂ => rw [hrest] at h; cases h
          | ok rest s₂ =>
              rw [hrest] at h
              cases h
              obtain ⟨hs₁, hleaves⟩ := leaves_contribution he hm hknown hs hfirst
              exact .cons hleaves (ih (fun other hother => hselected other (by simp [hother])) hs₁
                hrest)

/-! ### What is kept under the two policies -/

/-- Whether the triples map is given up if failing subjects do that. -/
def abortsAt (e : Engine) (entry : Nat × TriplesMap) : Bool :=
  (e.mapYield .abortTriplesMap entry.1 entry.2).failure.isSome

variable {entry : Nat × TriplesMap}

theorem keptOf_of_abortsAt (haborts : e.abortsAt entry = true) :
    (e.keptOf .abortTriplesMap entry).1 = [] ∧
      (e.keptOf .abortTriplesMap entry).2.status = .skipped := by
  obtain ⟨failure, hfailure⟩ := Option.isSome_iff_exists.mp haborts
  unfold keptOf
  dsimp only
  rw [hfailure]
  exact ⟨rfl, rfl⟩

theorem keptOf_of_not_abortsAt (h : e.provider.Unfailing e.graph) (he : e.Repeatable)
    (hm : entry.2 ∈ e.graph.triplesMaps) (haborts : e.abortsAt entry = false) :
    e.keptOf .abortTriplesMap entry = e.keptOf .skipRecord entry ∧
      (e.keptOf .abortTriplesMap entry).2.status = .completed := by
  have hnone : (e.mapYield .abortTriplesMap entry.1 entry.2).failure = none :=
    Option.not_isSome_iff_eq_none.mp (Bool.eq_false_iff.mp haborts)
  rcases mapYield_abortTriplesMap_cases h he entry.1 hm with ⟨-, hsame⟩ | ⟨-, n, error, -, hfirst⟩
  · refine ⟨by rw [keptOf, keptOf, hsame], ?_⟩
    unfold keptOf
    dsimp only
    rw [hnone]
    rfl
  · rw [hnone] at hfirst
    cases hfirst

end Engine

/-- The triples maps that a report has as given up are those that are given up. -/
theorem Report.skipped_eq {e : Engine} (h : e.provider.Unfailing e.graph) (he : e.Repeatable)
    {selected : List (Nat × TriplesMap)}
    (hselected : ∀ entry ∈ selected, entry.2 ∈ e.graph.triplesMaps) {r : Report}
    (hstats : r.triplesMaps = selected.map fun entry => (e.keptOf .abortTriplesMap entry).2) :
    r.skipped = (selected.filter e.abortsAt).map (·.2.iri) := by
  have hstatus : ∀ entry ∈ selected,
      ((e.keptOf .abortTriplesMap entry).2.status == .skipped) = e.abortsAt entry := by
    intro entry hentry
    cases haborts : e.abortsAt entry with
    | true =>
        rw [(Engine.keptOf_of_abortsAt haborts).2]
        rfl
    | false =>
        rw [(Engine.keptOf_of_not_abortsAt h he (hselected entry hentry) haborts).2]
        rfl
  rw [skipped, hstats, List.filter_map, List.map_map, ← List.filter_congr hstatus]
  simp only [Function.comp_def, Engine.keptOf_triplesMap]

/-- An empty stage adds nothing. -/
theorem Config.collect_stage_nil (c : Config) (store : Store) :
    c.collect store (c.collect .empty []).toList = store := by
  by_cases hremove : c.removeDuplicates = true
  · rw [collect, collect, if_pos hremove, if_pos hremove]
    rfl
  · rw [collect, collect, if_neg hremove, if_neg hremove]
    rfl

/-- Leaving out what has no quads changes nothing in the store. -/
theorem Config.assemble_filter (c : Config) {α : Type} {f g : α → List Quad} {p : α → Bool}
    {as : List α} (hnone : ∀ a ∈ as, p a = true → f a = [])
    (hsame : ∀ a ∈ as, p a = false → f a = g a) :
    c.assemble ((as.filter fun a => !p a).map g) = c.assemble (as.map f) := by
  have hfold : ∀ store,
      ((as.filter fun a => !p a).map fun a => (c.collect .empty (g a)).toList).foldl c.collect store
        = (as.map fun a => (c.collect .empty (f a)).toList).foldl c.collect store := by
    induction as with
    | nil => exact fun _ => rfl
    | cons a as ih =>
        intro store
        have hrest := ih (fun b hb => hnone b (by simp [hb])) fun b hb => hsame b (by simp [hb])
        cases hp : p a with
        | true =>
            rw [List.filter_cons_of_neg (by simp [hp]), hrest, List.map_cons, List.foldl_cons,
              hnone a (by simp) hp, c.collect_stage_nil]
        | false =>
            rw [List.filter_cons_of_pos (by simp [hp]), List.map_cons, List.map_cons,
              List.foldl_cons, List.foldl_cons, hrest, hsame a (by simp) hp]
  have hcombine : ∀ (bs : List α) (h : α → List Quad),
      c.combine ((bs.map h).map (c.collect .empty))
        = (bs.map fun a => (c.collect .empty (h a)).toList).foldl c.collect .empty := by
    intro bs h
    rw [c.combine_eq, List.map_map, List.map_map]
    rfl
  rw [assemble, assemble, hcombine, hcombine, hfold]

/-! ### Runs under the two policies -/

namespace Executor

variable {x : Executor} {graph : RuleGraph} {base : Option Iri} {filter : Option (List String)}
  {session : Session} {execution : Execution}

/-- What the triples maps of a run leave behind, in order. -/
def contributions (x : Executor) (graph : RuleGraph) (filter : Option (List String))
    (session : Session) : List Contribution :=
  match x.prepare graph filter with
  | .error _ => []
  | .ok (engine, selected) =>
    match engine.contributions x.config selected (.atStart session selected) with
    | .ok parts _ => parts
    | .error _ _ => []

/-- A run that succeeds is put together from what its triples maps leave behind. -/
theorem eq_ofContributions (h : (x.run graph filter session).result = .ok execution) :
    execution = .ofContributions x.config (x.contributions graph filter session) := by
  obtain ⟨engine, selected, parts, s, hprepare, hparts, rfl⟩ := exists_contributions_of_run h
  rw [contributions, hprepare]
  dsimp only
  rw [hparts]

theorem Ready.withSubjectErrors (h : x.Ready graph base) (policy : SubjectErrorPolicy) :
    (x.withSubjectErrors policy).Ready graph base :=
  ⟨h.based, h.valid, h.reopens, h.silent⟩

theorem Ready.leaves (h : x.Ready graph base)
    (hcalm : x.cancellable = true → session.cancelled = false)
    (hrun : (x.run graph filter session).result = .ok execution) :
    List.Forall₂ ((x.engine graph base).Leaves x.config) (graph.selected filter)
      (x.contributions graph filter session) := by
  obtain ⟨engine, selected, parts, s, hprepare, hparts, -⟩ := exists_contributions_of_run hrun
  obtain ⟨base', positions, hbase, -, -, hengine⟩ := prepare_eq_ok_iff.mp hprepare
  obtain ⟨rfl, rfl⟩ := Prod.mk.inj hengine
  obtain rfl : base' = base := by
    rw [h.based, Except.ok.injEq] at hbase
    exact hbase.symm
  rw [contributions, hprepare]
  dsimp only
  rw [hparts]
  have hselected : ∀ entry ∈ graph.selected filter,
      entry.2 ∈ (x.engine graph base').graph.triplesMaps ∧
        (x.engine graph base').KnowsParents entry.2 := by
    intro entry hentry
    have hm := RuleGraph.mem_of_mem_selected hentry
    exact ⟨hm, h.knowsParents hm⟩
  have hsound : (x.engine graph base').Sound (.atStart session (graph.selected filter)) :=
    Engine.sound_of_calm hcalm rfl
  exact Engine.leaves_contributions h.repeatable hselected hsound hparts

/-- A run whose sources can all be read succeeds with what its triples maps keep. -/
theorem Ready.exists_run (h : x.Ready graph base) (hsources : x.provider.Unfailing graph)
    {positions : List Nat} (hselect : graph.select filter = .ok positions)
    (hcalm : x.cancellable = true → session.cancelled = false) :
    ∃ execution, (x.run graph filter session).result = .ok execution ∧
      execution.store = x.config.assemble ((graph.selected filter).map fun entry =>
        ((x.engine graph base).keptOf x.config.subjectFunctionErrors entry).1) ∧
      execution.report.triplesMaps = (graph.selected filter).map fun entry =>
        ((x.engine graph base).keptOf x.config.subjectFunctionErrors entry).2 := by
  have hget : ∀ entry ∈ graph.selected filter,
      graph.triplesMaps[entry.1]? = some entry.2 := fun _ => RuleGraph.getElem?_of_mem_selected
  have hparts := Engine.partsOf_of_unfailing (e := x.engine graph base) hsources h.repeatable
    h.valid hget x.config
  have hrun := h.run_eq hselect hcalm
  rw [hparts] at hrun
  obtain ⟨execution, hexecution, -⟩ := map_eq_ok_iff.mp hrun
  obtain ⟨parts, hparts', hstore, hstats, -⟩ := h.exists_parts hcalm hexecution
  rw [hparts, Except.ok.injEq] at hparts'
  rw [← hparts', List.map_map] at hstore hstats
  exact ⟨execution, hexecution, hstore, hstats⟩

end Executor

namespace Engine

/-- What a triples map leaves behind if failing subjects give it up: it is given up exactly if it
comes upon one, and the last of its diagnostics is then about the first one. -/
structure AbortsWhole (e : Engine) (entry : Nat × TriplesMap) (part : Contribution) : Prop where
  triplesMap : part.stats.triplesMap = entry.2.iri
  skipped_iff : part.stats.status = .skipped ↔
    ∃ record, e.Reads entry.2 record ∧ ∃ error, e.subjectsOf entry.1 entry.2 record = .error error
  diagnostic : part.stats.status = .skipped →
    ∃ n error, e.FailsFirst entry.1 entry.2 n error ∧
      part.diagnostics.getLast? = some ⟨entry.2.iri, some n, .function error⟩

theorem Leaves.abortsWhole {e : Engine} (h : e.provider.Unfailing e.graph) (he : e.Repeatable)
    {c : Config} (hpolicy : c.subjectFunctionErrors = .abortTriplesMap)
    {entry : Nat × TriplesMap} (hm : entry.2 ∈ e.graph.triplesMaps) {part : Contribution}
    (hleaves : e.Leaves c entry part) : e.AbortsWhole entry part := by
  obtain ⟨hpart, hlast⟩ := hleaves
  rw [hpolicy] at hpart hlast
  rcases mapYield_abortTriplesMap_cases h he entry.1 hm with ⟨hall, hsame⟩ | ⟨hsome, n, error, hfirst,
    hfailure⟩
  · have hnone : (e.mapYield .abortTriplesMap entry.1 entry.2).failure = none := by
      rw [hsame, failure_mapYield_skipRecord h hm]
    rw [Yield.part, hnone] at hpart
    have hstats : part.stats = (e.mapYield .abortTriplesMap entry.1 entry.2).tally.stats
        entry.2.iri .completed := (congrArg Prod.snd (Except.ok.inj hpart)).symm
    have hcompleted : ¬ part.stats.status = .skipped := by
      rw [hstats]
      show ¬ Status.completed = .skipped
      decide
    refine ⟨by rw [hstats]; rfl, iff_of_false hcompleted ?_, fun hskipped => absurd hskipped
      hcompleted⟩
    rintro ⟨record, hreads, error, herror⟩
    obtain ⟨ts, hts⟩ := hall record hreads
    rw [herror] at hts
    cases hts
  · have hsurvives : c.survives (.function error) = true := by
      rw [Config.survives, hpolicy]
      rfl
    rw [Yield.part, hfailure] at hpart
    dsimp only at hpart
    rw [if_pos hsurvives] at hpart
    have hstats : part.stats = (e.mapYield .abortTriplesMap entry.1 entry.2).tally.stats
        entry.2.iri .skipped := (congrArg Prod.snd (Except.ok.inj hpart)).symm
    have hskipped : part.stats.status = .skipped := by
      rw [hstats]
      rfl
    exact ⟨by rw [hstats]; rfl, iff_of_true hskipped hsome,
      fun _ => ⟨n, error, hfirst, hlast _ hfailure⟩⟩

end Engine

namespace Executor

/--
**A failing subject that is not skipped costs its triples map and nothing else.**  If all sources
can be read, a run that gives up at failing subjects succeeds.  It gives up the triples maps that
come upon a failing subject, each with a diagnostic about the first one, and its store and the
counts of the other triples maps are those of a run that skips failing subjects but is spared
the triples maps that are given up.
-/
theorem aborts_cost_triplesMaps (x : Executor) (graph : RuleGraph) {base : Option Iri}
    (h : x.Ready graph base) (hsources : x.provider.Unfailing graph)
    (filter : Option (List String)) {positions : List Nat}
    (hselect : graph.select filter = .ok positions) (first second : Session)
    (hcalm : x.cancellable = true → first.cancelled = false ∧ second.cancelled = false) :
    ∃ aborting,
      ((x.withSubjectErrors .abortTriplesMap).run graph filter first).result = .ok aborting ∧
      aborting = .ofContributions x.config
        ((x.withSubjectErrors .abortTriplesMap).contributions graph filter first) ∧
      List.Forall₂ (x.engine graph base).AbortsWhole (graph.selected filter)
        ((x.withSubjectErrors .abortTriplesMap).contributions graph filter first) ∧
      ∃ skipping, ((x.withSubjectErrors .skipRecord).run graph
            (some (graph.without filter aborting.report.skipped)) second).result = .ok skipping ∧
        skipping.store = aborting.store ∧
        skipping.report.triplesMaps = aborting.report.triplesMaps.filter fun s =>
          !aborting.report.skipped.contains s.triplesMap := by
  have he : (x.engine graph base).Repeatable := h.repeatable
  have hselected : ∀ entry ∈ graph.selected filter, entry.2 ∈ graph.triplesMaps :=
    fun _ => RuleGraph.mem_of_mem_selected
  have habort := h.withSubjectErrors .abortTriplesMap
  obtain ⟨aborting, haborting, hstore, hstats⟩ :=
    habort.exists_run hsources hselect (fun hc => (hcalm hc).1)
  have hskipped := Report.skipped_eq (e := x.engine graph base) hsources he hselected hstats
  have hdistinct : ((graph.selected filter).map (·.2.iri)).Nodup := by
    rw [RuleGraph.map_iri_selected]
    exact (RuleGraph.nodup_iris h.valid).filter _
  have hspared : (graph.selected filter).filter
        (fun entry => !aborting.report.skipped.contains entry.2.iri)
      = (graph.selected filter).filter fun entry => !(x.engine graph base).abortsAt entry := by
    rw [hskipped]
    exact filter_not_named hdistinct _
  have hsame : ∀ entry ∈ graph.selected filter, (x.engine graph base).abortsAt entry = false →
      (x.engine graph base).keptOf .abortTriplesMap entry
        = (x.engine graph base).keptOf .skipRecord entry :=
    fun entry hentry haborts =>
      (Engine.keptOf_of_not_abortsAt hsources he (hselected entry hentry) haborts).1
  obtain ⟨positions', hselect'⟩ :=
    RuleGraph.exists_select_without hselect aborting.report.skipped
  obtain ⟨skipping, hskipping, hstore', hstats'⟩ :=
    (h.withSubjectErrors .skipRecord).exists_run hsources hselect' (fun hc => (hcalm hc).2)
  rw [RuleGraph.selected_without, hspared] at hstore' hstats'
  refine ⟨aborting, haborting, eq_ofContributions haborting, ?_, skipping, hskipping, ?_, ?_⟩
  · have hleaves := habort.leaves (fun hc => (hcalm hc).1) haborting
    refine ((List.forall₂_and_left _ _).mpr ⟨hselected, hleaves⟩).imp ?_
    rintro entry part ⟨hm, hpart⟩
    exact hpart.abortsWhole hsources he rfl hm
  · rw [hstore, hstore']
    exact x.config.assemble_filter (fun _ _ haborts => (Engine.keptOf_of_abortsAt haborts).1)
      fun entry hentry haborts => congrArg Prod.fst (hsame entry hentry haborts)
  · rw [hstats, hstats', List.filter_map]
    simp only [Function.comp_def, Engine.keptOf_triplesMap]
    rw [hspared]
    refine List.map_congr_left fun entry hentry => ?_
    obtain ⟨hentry, hnot⟩ := List.mem_filter.mp hentry
    exact congrArg Prod.snd (hsame entry hentry (by simpa using hnot)).symm

/-! ### A harbour -/

/-- A ship, and two berths of which the second one is not to be used. -/
def harbour : Executor where
  provider := MemorySources.provider
    ⟨[("ships", [.ofPairs [("name", "Aurora"), ("berth", "1")]]),
      ("berths", [.ofPairs [("no", "1")], .ofPairs [("no", "x")]])]⟩
  functions := Registry.insert {} "ex:usable" ((StandardFunction.failIf "x").register false)

/-- Ships lie at berths, and only usable berths have a name. -/
def harbourRules : RuleGraph := ⟨
  [{ iri := "ex:Ship", logicalSource := some ⟨"ships", .csv, none, none⟩
     subjectMap := some { termMap := (TermMap.reference "name").asBlankNode }
     predicateObjectMaps := [.constant "ex:at" (.parent (.single "ex:Berth" "berth" "no"))] },
   { iri := "ex:Berth", logicalSource := some ⟨"berths", .csv, none, none⟩
     subjectMap := some
       { termMap := (TermMap.function ((FunctionCall.ofFunction "ex:usable").withParameter "in"
           (TermMap.reference "no").asLiteral)).asBlankNode
         classes := ["ex:Place"] } }]⟩

theorem harbour_ready : harbour.Ready harbourRules none where
  based := rfl
  valid := by decide +kernel
  reopens := fun _ _ _ _ _ => rfl
  silent := fun _ _ => rfl

theorem harbour_unfailing : harbour.provider.Unfailing harbourRules := by
  intro m hm source hsource
  simp only [harbourRules, List.mem_cons, List.not_mem_nil, or_false] at hm
  rcases hm with rfl | rfl
  · cases hsource
    exact ⟨_, rfl⟩
  · cases hsource
    exact ⟨_, rfl⟩

/-- The ship lies at the first berth. -/
def moored : Quad := ⟨.blank "tm0-Aurora", .iri "ex:at", .blank "tm1-1", none⟩

/-- The berths are given up at the second one, and the ship lies at the first one all the same. -/
theorem harbour_parts :
    ((harbour.withSubjectErrors .abortTriplesMap).engine harbourRules none).partsOf
        (harbour.withSubjectErrors .abortTriplesMap).config (harbourRules.selected none)
      = .ok [([moored], ⟨"ex:Ship", 1, 0, 1, .completed⟩),
          ([], ⟨"ex:Berth", 2, 0, 1, .skipped⟩)] := by
  decide +kernel

theorem harbour_aborts_cost_triplesMaps :
    ∃ aborting skipping,
      ((harbour.withSubjectErrors .abortTriplesMap).run harbourRules none {}).result
        = .ok aborting ∧
      aborting.report.skipped = ["ex:Berth"] ∧
      ((harbour.withSubjectErrors .skipRecord).run harbourRules (some ["ex:Ship"]) {}).result
        = .ok skipping ∧
      skipping.store = aborting.store ∧ skipping.store.toList = [moored] ∧
      skipping.report.triplesMaps = [⟨"ex:Ship", 1, 0, 1, .completed⟩] := by
  have hselect : harbourRules.select none = .ok [0, 1] := rfl
  obtain ⟨aborting, haborting, -, -, skipping, hskipping, hstore, hstats⟩ :=
    aborts_cost_triplesMaps harbour harbourRules harbour_ready harbour_unfailing none hselect {} {}
      fun _ => ⟨rfl, rfl⟩
  have hcontent : ((harbour.withSubjectErrors .abortTriplesMap).run harbourRules none
      {}).result.map Execution.content = _ :=
    (harbour_ready.withSubjectErrors .abortTriplesMap).run_eq hselect fun _ => rfl
  rw [haborting, harbour_parts] at hcontent
  obtain ⟨hquads, hreport⟩ := Prod.mk.inj (Except.ok.inj hcontent)
  have hskipped : aborting.report.skipped = ["ex:Berth"] := by
    rw [Report.skipped, hreport]
    rfl
  rw [hskipped] at hskipping hstats
  refine ⟨aborting, skipping, haborting, hskipped, hskipping, hstore, ?_, ?_⟩
  · rw [hstore, hquads]
    rfl
  · rw [hstats, hreport]
    rfl

end Executor

end RdfMapping
