/-
Warnings and diagnostics.

Whatever fails in a run that succeeds was survived, and has been entered twice: as a warning of
the log and as a diagnostic of the report.  The failures of parents are collected apart from
those of the triples map that is executed, and there is a third place where a triples map is
given up, so it takes all turns of the run to see that the two agree.  `no_failure_lost` says so,
and it says what had to be entered: over the items that the sources gave, every term map that
failed, every subject of a parent that failed in a scan, also in one that came to nothing, and
every triples map that was given up.
-/
import RdfMapping.Proofs.Execution.Accounting

namespace RdfMapping

/-- What is said neither of the beginning of a log nor of its end is said of what is between. -/
theorem filterMap_between {α : Type} {f : TraceEntry → Option α} {first last : TraceEntry}
    (hfirst : f first = none) (hlast : f last = none) (l : Log) :
    (first :: l ++ [last]).filterMap f = l.filterMap f := by
  rw [List.filterMap_append, List.filterMap_cons_none hfirst, List.filterMap_cons_none hlast,
    List.filterMap_nil, List.append_nil]

/-- If each turn leaves behind what it warns of, all of them do. -/
theorem Log.perm_of_turns {turns : List (Contribution × Log)}
    (h : ∀ turn ∈ turns, turn.1.diagnostics
      = Log.failures turn.2 ++ Log.parentFailures turn.2 ++ Log.losses turn.2) :
    (Log.warnings (turns.flatMap (·.2))).Perm (turns.flatMap (·.1.diagnostics)) := by
  induction turns with
  | nil => exact .nil
  | cons turn turns ih =>
      rw [List.flatMap_cons, List.flatMap_cons, Log.warnings_append, h turn (by simp)]
      exact (Log.warnings_perm turn.2).append (ih fun turn' hturn' => h turn' (by simp [hturn']))

namespace Executor

/-- What a selected triples map enters in a run with these landmarks: its failures, and one more
if it was given up. -/
structure Fails (x : Executor) (graph : RuleGraph) (base : Option Iri) (session : Session)
    (ls : List Landmark) (entry : Nat × TriplesMap)
    (entered : List Diagnostic × Option Diagnostic) : Prop where
  failures : (x.engine graph base).TurnFailures x.config.subjectFunctionErrors
    (graph.openedBefore session ls entry.2.iri) entry.1 entry.2 (entered.2.map (·.error)) entered.1
  loss : ∀ d ∈ entered.2, d.triplesMap = entry.2.iri ∧ x.config.survives d.error = true

/-- A turn enters what had to be entered, and it is given up if it enters a loss. -/
theorem fails_of_turn {x : Executor} {graph : RuleGraph} {base : Option Iri} {session : Session}
    {ls : List Landmark} {entry : Nat × TriplesMap} {part : Contribution} {log : Log}
    (h : (x.engine graph base).Turn x.config (graph.openedBefore session ls entry.2.iri) entry part
      log) :
    x.Fails graph base session ls entry (log.failures, log.losses.head?) ∧
      log.losses.head?.toList = log.losses ∧
      ([part.stats].filter (·.status == .skipped)).map (·.triplesMap)
        = log.losses.map (·.triplesMap) := by
  cases h.ends with
  | completed hstatus hitems hrecords hquads hlosses hfailures =>
      rw [hlosses, List.filter_cons, hstatus]
      exact ⟨⟨hfailures, nofun⟩, rfl, rfl⟩
  | skipped hstatus hquads hlosses hsurvives hfailures =>
      rw [hlosses, List.filter_cons, hstatus]
      refine ⟨⟨hfailures, ?_⟩, rfl, congrArg (· :: []) h.triplesMap⟩
      intro d hd
      obtain rfl := Option.some.inj hd
      exact ⟨rfl, hsurvives⟩

/--
**No failure is lost between the log and the report.**  In a run that succeeds the warnings of the
log are the diagnostics of the report, each as often as the other, and each warning shows the
fields of its diagnostic.
-/
theorem no_failure_lost (x : Executor) (graph : RuleGraph) (filter : Option (List String))
    (session : Session) {execution : Execution}
    (h : (x.run graph filter session).result = .ok execution) :
    (((x.run graph filter session).trace.filter (·.isWarning)).map (·.warning?)).Perm
        (execution.report.diagnostics.map some) ∧
      (∀ event within, .logged event within ∈ (x.run graph filter session).trace →
        event.level = .warn → ∃ d ∈ execution.report.diagnostics, event.warning? = some d ∧
          ∃ key ∈ ["triples_map", "parent"], ∃ record,
            (record = Event.recordText d.record ∨ d.record.map toString = some record) ∧
            event.fields
              = [(key, d.triplesMap), ("record", record), ("error", d.error.message)]) ∧
      ∃ base entered, x.config.base = .ok base ∧
        List.Forall₂ (x.Fails graph base session (x.run graph filter session).landmarks)
          (graph.selected filter) entered ∧
        Log.failures (x.run graph filter session).trace = entered.flatMap (·.1) ∧
        Log.parentFailures (x.run graph filter session).trace
          = (x.engine graph base).scanFailures session.opened
              (x.run graph filter session).landmarks ∧
        Log.losses (x.run graph filter session).trace = entered.filterMap (·.2) ∧
        execution.report.skipped = (entered.filterMap (·.2)).map (·.triplesMap) ∧
        execution.report.diagnostics.Perm (entered.flatMap (·.1) ++
          (x.engine graph base).scanFailures session.opened
            (x.run graph filter session).landmarks ++ entered.filterMap (·.2)) := by
  obtain ⟨base, turns, span, hbase, hexecution, -, htrace, hturns⟩ := exists_turns h
  let entered := turns.map fun turn => (Log.failures turn.2, (Log.losses turn.2).head?)
  have hloss := hturns.forall_mem fun _ _ hturn => (fails_of_turn hturn).2
  -- Between setting out and coming to its end the run takes its turns.
  have hfailures : Log.failures (x.run graph filter session).trace = entered.flatMap (·.1) := by
    rw [htrace, List.flatMap_map]
    exact (filterMap_between rfl rfl _).trans List.filterMap_flatMap
  have hlosses : Log.losses (x.run graph filter session).trace
      = turns.flatMap fun turn => Log.losses turn.2 := by
    rw [htrace]
    exact (filterMap_between rfl rfl _).trans List.filterMap_flatMap
  have hentered : turns.flatMap (fun turn => Log.losses turn.2) = entered.filterMap (·.2) := by
    rw [List.filterMap_eq_flatMap_toList, List.flatMap_map]
    exact List.flatMap_congr fun turn hturn => (hloss turn hturn).1.symm
  have hlandmarks : (x.run graph filter session).landmarks
      = Log.landmarks (turns.flatMap (·.2)) := by
    rw [Outcome.landmarks, htrace]
    exact filterMap_between rfl rfl _
  have hparents : Log.parentFailures (x.run graph filter session).trace
      = (x.engine graph base).scanFailures session.opened
        (x.run graph filter session).landmarks := by
    rw [htrace, hlandmarks, ← hturns.parentFailures]
    exact filterMap_between rfl rfl _
  have hperm : (Log.warnings (x.run graph filter session).trace).Perm
      execution.report.diagnostics := by
    have hdiagnostics : execution.report.diagnostics = turns.flatMap (·.1.diagnostics) := by
      rw [hexecution]
      exact List.flatMap_map ..
    rw [hdiagnostics, htrace]
    refine (List.Perm.of_eq (filterMap_between rfl rfl _)).trans ?_
    exact Log.perm_of_turns (hturns.forall_mem fun _ _ hturn => hturn.diagnostics)
  refine ⟨?_, ?_, base, entered, hbase, ?_, hfailures, hparents, hlosses.trans hentered, ?_, ?_⟩
  · rw [Log.map_warning?_filter]
    exact hperm.map some
  · intro event within hlogged hlevel
    obtain ⟨d, hwarning⟩ := Option.isSome_iff_exists.mp (event.isSome_warning?_iff.mpr hlevel)
    have hwarned : d ∈ Log.warnings (x.run graph filter session).trace :=
      List.mem_filterMap.mpr ⟨_, hlogged, hwarning⟩
    exact ⟨d, hperm.mem_iff.mp hwarned, hwarning, Event.fields_eq_of_warning? hwarning⟩
  · rw [List.forall₂_map_right_iff]
    exact hturns.each.imp fun _ _ hturn => (fails_of_turn hturn).1
  · have hstats : execution.report.triplesMaps = turns.flatMap fun turn => [turn.1.stats] := by
      rw [hexecution, ← List.map_eq_flatMap]
      exact List.map_map ..
    rw [Report.skipped, hstats, List.filter_flatMap, List.map_flatMap, ← hentered,
      List.map_flatMap]
    exact List.flatMap_congr fun turn hturn => (hloss turn hturn).2
  · rw [← hfailures, ← hparents, ← hentered, ← hlosses]
    exact hperm.symm.trans (Log.warnings_perm _)

/-- A name that is not to be used and goods that break off. -/
def marketFailures : List Diagnostic :=
  [⟨"ex:Visitor", some 0, .function (.failed "ex:usable" "rejected x")⟩,
    ⟨"ex:Good", some 0, .function (.failed "ex:usable" "rejected x")⟩,
    ⟨"ex:Visitor", some 2, .source "ex:Good" (some 2) (.read "eof")⟩,
    ⟨"ex:Good", some 0, .function (.failed "ex:usable" "rejected x")⟩,
    ⟨"ex:Good", some 2, .source "ex:Good" (some 2) (.read "eof")⟩]

/-- The first of the goods fails twice, for the visitors who look for it and for itself, and so
does the end of the goods. -/
theorem market_no_failure_lost :
    ∃ execution, (market.run marketRules none {}).result = .ok execution ∧
      (marketFailures.map some).Perm (execution.report.diagnostics.map some) ∧
      execution.report.skipped = ["ex:Visitor", "ex:Good"] := by
  obtain ⟨execution, hrun, -⟩ := exists_market_run
  have hwarnings : ((market.run marketRules none {}).trace.filter (·.isWarning)).map (·.warning?)
      = marketFailures.map some := by decide +kernel
  have hlosses : (Log.losses (market.run marketRules none {}).trace).map (·.triplesMap)
      = ["ex:Visitor", "ex:Good"] := by decide +kernel
  obtain ⟨hperm, -, base, entered, -, -, -, -, hentered, hskipped, -⟩ :=
    no_failure_lost market marketRules none {} hrun
  refine ⟨execution, hrun, ?_, ?_⟩
  · rw [← hwarnings]
    exact hperm
  · rw [hskipped, ← hentered, hlosses]

end Executor

end RdfMapping
