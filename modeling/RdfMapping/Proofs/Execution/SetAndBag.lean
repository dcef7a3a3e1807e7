/-
Runs that give a set and runs that give a bag.

Whether repetitions are removed is asked for by the configuration, and only the store can tell:
every triples map leaves the same behind in either case, so the two runs end in the same way and
have the same report.  What a bag holds is all quads in order, what a set holds is the first of
each text among them, and removing the repetitions of the bag makes the one of the other.
`set_and_bag_agree` is this for two runs that need not even start in the same session, as long
as the provider goes on alike from both.

The run that gives a set removes repetitions three times: where a triples map stages its quads,
when the stages are put together, and at the end.  `Config.toList_assemble` is what this comes to,
and the last pass finds nothing to do.
-/
import RdfMapping.Proofs.Execution.Identity
import RdfMapping.Proofs.Execution.Sharding
import RdfMapping.Proofs.Execution.Twins

namespace RdfMapping

/-! ### Stores without repetitions -/

namespace Store

/-- There is nothing to remove where everything is distinct. -/
theorem Faithful.removeDuplicates_eq_self {s : Store} (h : s.Faithful) {qs : List Quad}
    (hdistinct : s.toList = distinct qs) : s.removeDuplicates = s := by
  have hunmarked : ¬ s.hasDuplicates = true := by
    rw [h.marked, hdistinct, not_not]
    exact nodup_texts_distinct qs
  rw [Store.removeDuplicates, if_neg hunmarked]

/-- Removing duplicates once more changes nothing. -/
theorem removeDuplicates_removeDuplicates (s : Store) :
    s.removeDuplicates.removeDuplicates = s.removeDuplicates := by
  have hunmarked : ¬ s.removeDuplicates.hasDuplicates = true := by
    unfold removeDuplicates
    by_cases hmarked : s.hasDuplicates = true
    · rw [if_pos hmarked]
      simp
    · rw [if_neg hmarked]
      exact hmarked
  rw [removeDuplicates.eq_def s.removeDuplicates, if_neg hunmarked]

end Store

theorem Execution.toList_ofContributions (c : Config) (parts : List Contribution) :
    (Execution.ofContributions c parts).store.toList
      = if c.removeDuplicates then distinct (parts.flatMap (·.quads))
        else parts.flatMap (·.quads) := by
  rw [Execution.ofContributions, c.toList_assemble, List.flatMap_def]

theorem Execution.faithful_ofContributions (c : Config) (parts : List Contribution) :
    (Execution.ofContributions c parts).store.Faithful :=
  c.faithful_assemble _

/-! ### Sessions to go on from -/

namespace Executor

/-- The executor that removes repetitions or keeps them. -/
def withRemoveDuplicates (x : Executor) (remove : Bool) : Executor :=
  { x with config := { x.config with removeDuplicates := remove } }

/-- The provider goes on alike from two sessions: whatever else is opened, the sources of the
graph give the same, and a signal that is heeded goes up after as many items. -/
structure GoesOnAlike (x : Executor) (graph : RuleGraph) (t u : Session) : Prop where
  sources : ∀ m ∈ graph.triplesMaps, ∀ source, m.logicalSource = some source → ∀ more,
    x.provider.openAfter (t.opened ++ more) source = x.provider.openAfter (u.opened ++ more) source
  signal : x.cancellable = true → u.cancelled = t.cancelled ∧
    ∀ n, x.provider.cancelsAt (u.yielded + n) = x.provider.cancelsAt (t.yielded + n)

variable {x : Executor} {graph : RuleGraph} {t u : Session}

/-- Any provider goes on alike from one and the same session. -/
theorem GoesOnAlike.refl (x : Executor) (graph : RuleGraph) (t : Session) :
    x.GoesOnAlike graph t t :=
  ⟨fun _ _ _ _ _ => rfl, fun _ => ⟨rfl, fun _ => rfl⟩⟩

/-- A provider that gives the same whenever a source is opened goes on alike from all sessions
in which the signal is not up. -/
theorem Ready.goesOnAlike {base : Option Iri} (h : x.Ready graph base)
    (ht : x.cancellable = true → t.cancelled = false)
    (hu : x.cancellable = true → u.cancelled = false) : x.GoesOnAlike graph t u := by
  refine ⟨fun m hm source hsource more => ?_, fun hc => ⟨?_, fun n => ?_⟩⟩
  · rw [h.reopens m hm source hsource, h.reopens m hm source hsource (u.opened ++ more)]
  · rw [ht hc, hu hc]
  · rw [h.silent hc, h.silent hc]

/-- Engines of an executor are twins in sessions that it goes on alike from. -/
theorem twins_goesOnAlike (x : Executor) (graph : RuleGraph) (base : Option Iri) :
    Engine.Twins (x.engine graph base) (x.engine graph base) (x.GoesOnAlike graph) Eq where
  graph := rfl
  terms := by
    rintro m _ map _ r _ rfl scope
    rfl
  keys := by
    rintro m _ p _ r _ rfl
    exact ⟨rfl, rfl⟩
  opens := by
    intro m hm source hsource t u htu
    have hgiven := htu.sources m hm source hsource []
    rw [List.append_nil, List.append_nil] at hgiven
    refine ⟨?_, fun m' hm' source' hsource' more => ?_, htu.signal⟩
    · show ExceptAlike _ (x.provider.openAfter t.opened source)
        (x.provider.openAfter u.opened source)
      rw [hgiven]
      refine .refl (fun items => List.forall₂_same.mpr fun item _ => ?_) _
      exact .refl (fun _ => rfl) item
    · rw [List.append_assoc, List.append_assoc]
      exact htu.sources m' hm' source' hsource' ([source] ++ more)
  receives := by
    intro t u htu
    refine ⟨htu.sources, fun hc => ?_⟩
    obtain ⟨hcancelled, hcancels⟩ := htu.signal hc
    refine ⟨?_, fun n => ?_⟩
    · show (u.cancelled || x.provider.cancelsAt (u.yielded + 1))
        = (t.cancelled || x.provider.cancelsAt (t.yielded + 1))
      rw [hcancelled, hcancels]
    · show x.provider.cancelsAt (u.yielded + 1 + n) = x.provider.cancelsAt (t.yielded + 1 + n)
      rw [Nat.add_assoc, Nat.add_assoc, hcancels]
  signal := by
    intro t u htu
    show (x.cancellable && u.cancelled) = (x.cancellable && t.cancelled)
    by_cases hc : x.cancellable = true
    · rw [(htu.signal hc).1]
    · simp [hc]

/-! ### Runs -/

/-- What is asked for does not show before the quads are collected. -/
theorem prepare_withRemoveDuplicates (x : Executor) (remove : Bool) (graph : RuleGraph)
    (filter : Option (List String)) :
    (x.withRemoveDuplicates remove).prepare graph filter = x.prepare graph filter :=
  rfl

/--
**A run that removes repetitions and one that keeps them agree.**  Both fail, with the same
error, or both succeed with the same report; then the one's quads are those of the other without
every quad whose text occurred earlier, as removing duplicates from the other makes them, and
removing duplicates once more changes neither.
-/
theorem set_and_bag_agree (x : Executor) (graph : RuleGraph) (filter : Option (List String))
    (t u : Session) (h : x.GoesOnAlike graph t u) :
    (∃ error, ((x.withRemoveDuplicates true).run graph filter t).result = .error error ∧
        ((x.withRemoveDuplicates false).run graph filter u).result = .error error) ∨
      ∃ set bag, ((x.withRemoveDuplicates true).run graph filter t).result = .ok set ∧
        ((x.withRemoveDuplicates false).run graph filter u).result = .ok bag ∧
        set.report = bag.report ∧
        set.store.toList = distinct bag.store.toList ∧
        bag.store.removeDuplicates.toList = set.store.toList ∧
        set.store.removeDuplicates = set.store ∧
        bag.store.removeDuplicates.removeDuplicates = bag.store.removeDuplicates := by
  cases hprepare : x.prepare graph filter with
  | error error =>
      left
      refine ⟨error, ?_, ?_⟩
      · rw [run_eq_of_prepare_eq_error ((x.prepare_withRemoveDuplicates true _ _).trans hprepare)]
      · rw [run_eq_of_prepare_eq_error ((x.prepare_withRemoveDuplicates false _ _).trans hprepare)]
  | ok prepared =>
      obtain ⟨base, positions, -, -, -, rfl⟩ := prepare_eq_ok_iff.mp hprepare
      have hstart : (RunState.atStart t (graph.selected filter)).Alike (x.GoesOnAlike graph)
          (.atStart u (graph.selected filter)) := ⟨h, rfl⟩
      have hselected : ∀ entry ∈ graph.selected filter, entry.2 ∈ graph.triplesMaps :=
        fun _ hentry => RuleGraph.mem_of_mem_selected hentry
      have htogether : Step.Together (x.GoesOnAlike graph) Eq
          ((x.engine graph base).contributions (x.withRemoveDuplicates true).config
            (graph.selected filter))
          ((x.engine graph base).contributions (x.withRemoveDuplicates false).config
            (graph.selected filter)) := by
        apply (x.twins_goesOnAlike graph base).contributions
        · rfl
        · rfl
        · exact hselected
      have hmeets := htogether _ _ hstart
      rw [run_eq_of_prepare ((x.prepare_withRemoveDuplicates true _ _).trans hprepare),
        run_eq_of_prepare ((x.prepare_withRemoveDuplicates false _ _).trans hprepare)]
      revert hmeets
      generalize (x.engine graph base).contributions (x.withRemoveDuplicates true).config
        (graph.selected filter) (.atStart t (graph.selected filter)) = r
      generalize (x.engine graph base).contributions (x.withRemoveDuplicates false).config
        (graph.selected filter) (.atStart u (graph.selected filter)) = r'
      intro hmeets
      cases hmeets with
      | error failure _ => exact .inl ⟨failure.error, rfl, rfl⟩
      | @ok parts _ s s' hparts _ =>
          subst hparts
          right
          have hset : (Execution.ofContributions (x.withRemoveDuplicates true).config
              parts).store.toList = distinct (parts.flatMap (·.quads)) :=
            (Execution.toList_ofContributions _ parts).trans (if_pos rfl)
          have hbag : (Execution.ofContributions (x.withRemoveDuplicates false).config
              parts).store.toList = parts.flatMap (·.quads) :=
            (Execution.toList_ofContributions _ parts).trans (if_neg Bool.false_ne_true)
          have hremoved := (Execution.faithful_ofContributions
            (x.withRemoveDuplicates false).config parts).toList_removeDuplicates
          refine ⟨_, _, rfl, rfl, rfl, ?_, ?_, ?_, ?_⟩
          · rw [hset, hbag]
          · rw [hremoved, hset, hbag]
          · exact (Execution.faithful_ofContributions _ parts).removeDuplicates_eq_self hset
          · exact Store.removeDuplicates_removeDuplicates _

/-- The store of a run that keeps repetitions has all that was emitted. -/
theorem toList_eq_emitted {filter : Option (List String)} {execution : Execution}
    (h : (x.run graph filter t).result = .ok execution)
    (hkeep : x.config.removeDuplicates = false) :
    execution.store.toList = x.emitted graph filter t := by
  obtain ⟨engine, selected, parts, s, hprepare, hrun, rfl⟩ := exists_contributions_of_run h
  rw [Execution.toList_ofContributions, hkeep, if_neg Bool.false_ne_true, emitted, hprepare]
  dsimp only
  rw [hrun]

/-! ### A bakery -/

/-- Orders and wishes, and ovens that cannot be looked into. -/
def bakery : Executor where
  provider := FaultySources.provider
    { sources := ⟨[("orders", [.ofPairs [("what", "cake")], .ofPairs [("what", "cake")],
        .ofPairs [("what", "bread")]]), ("wishes", [.ofPairs [("what", "cake")]])]⟩
      faults := [⟨"ovens", .read "eof", none⟩] }
  config := { sourceErrors := .skipTriplesMap }

/-- What is ordered, what is in the ovens and what is wished for is sold. -/
def bakeryRules : RuleGraph := ⟨
  ["orders", "ovens", "wishes"].map fun source =>
    { iri := "ex:" ++ source, logicalSource := some ⟨source, .csv, none, none⟩
      subjectMap := some { termMap := .constant "ex:Bakery" }
      predicateObjectMaps := [.constant "ex:sells" (.reference "what")] }⟩

theorem bakery_ready : bakery.Ready bakeryRules none where
  based := rfl
  valid := by decide +kernel
  reopens := fun _ _ _ _ _ => rfl
  silent := fun _ _ => rfl

/-- That the bakery sells something. -/
def sells (what : String) : Quad := ⟨.iri "ex:Bakery", .iri "ex:sells", .string what, none⟩

/-- The set is asked for first, and the bag in the session that this leaves behind. -/
theorem bakery_set_and_bag :
    ∃ set bag, ((bakery.withRemoveDuplicates true).run bakeryRules none {}).result = .ok set ∧
      ((bakery.withRemoveDuplicates false).run bakeryRules none
        ((bakery.withRemoveDuplicates true).run bakeryRules none {}).session).result = .ok bag ∧
      set.report = bag.report ∧
      bag.store.toList = [sells "cake", sells "cake", sells "bread", sells "cake"] ∧
      set.store.toList = [sells "cake", sells "bread"] := by
  have hcalm : ((bakery.withRemoveDuplicates true).run bakeryRules none {}).session.cancelled
      = false := by decide +kernel
  have hok : ((bakery.withRemoveDuplicates true).run bakeryRules none {}).result.isOk = true := by
    decide +kernel
  have hemitted : (bakery.withRemoveDuplicates false).emitted bakeryRules none
      ((bakery.withRemoveDuplicates true).run bakeryRules none {}).session
        = [sells "cake", sells "cake", sells "bread", sells "cake"] := by decide +kernel
  have hdistinct : distinct [sells "cake", sells "cake", sells "bread", sells "cake"]
      = [sells "cake", sells "bread"] := by
    rw [distinct_eq_eraseDupsBy_render]
    decide +kernel
  rcases set_and_bag_agree bakery bakeryRules none {} _
    (bakery_ready.goesOnAlike (fun _ => rfl) fun _ => hcalm) with
    ⟨error, herror, -⟩ | ⟨set, bag, hset, hbag, hreport, hlist, -⟩
  · rw [herror] at hok
    cases hok
  · have hkept := toList_eq_emitted hbag rfl
    rw [hemitted] at hkept
    rw [hkept, hdistinct] at hlist
    exact ⟨set, bag, hset, hbag, hreport, hkept, hlist⟩

end Executor

end RdfMapping
