/-
The turns of a run.

The triples maps that are selected take turns, and a run that succeeds divides into these turns:
so does its trace, and so does its report.  A turn enters a stretch of the log and leaves a
contribution behind, and `Engine.Turn` says how the two agree: the diagnostics are what the log
warns of, the counts are those of the items that the source gave, and what failed on the way is
what had to fail over these items.  A turn depends on the turns before it through the sources that
were opened, since a source may give something else the next time.

`turn_of_contribution` is the step and `Settled.turns` the run; `exists_turns` is what the theorems
about reports are read off.
-/
import RdfMapping.Proofs.Execution.Identity
import RdfMapping.Proofs.Execution.Openings
import RdfMapping.Proofs.Execution.OwnFailures

namespace RdfMapping

/-- The sources that were opened before the turn of a triples map, in a run with these landmarks. -/
def RuleGraph.openedBefore (g : RuleGraph) (start : Session) (ls : List Landmark) (iri : String) :
    List LogicalSource :=
  start.opened ++ g.openings (ls.takeWhile (· != .own iri))

namespace Engine

/-! ### What is said of a turn -/

section Statement

variable (e : Engine)

/-- What the source of a triples map gives when some sources have been opened before. -/
def supplied (opened : List LogicalSource) (m : TriplesMap) :
    Option (Except SourceError (List Item)) :=
  m.logicalSource.map (e.provider.openAfter opened)

/-- The failures of a triples map that are survived, and the error that it ends in, if it does.  A
source that cannot be opened ends it before anything else fails. -/
inductive TurnFailures (policy : SubjectErrorPolicy) (opened : List LogicalSource)
    (position : Nat) (m : TriplesMap) : Option Error → List Diagnostic → Prop
  | unopened {fault : SourceError} (h : e.supplied opened m = some (.error fault)) :
      TurnFailures policy opened position m (some (.source m.iri none fault)) []
  | opened {items : List Item} {ended : Option Error} {ds : List Diagnostic}
      (h : e.supplied opened m = some (.ok items))
      (hover : e.FailuresOver policy position m 0 items ended ds) :
      TurnFailures policy opened position m ended ds

/-- What a triples map enters into the books when some sources have been opened before. -/
structure Enters (policy : SubjectErrorPolicy) (opened : List LogicalSource) (position : Nat)
    (m : TriplesMap) (ended : Option Error) (a : Account) : Prop where
  openings : a.opened = e.graph.openings a.log.landmarks
  parentFailures : ended ≠ some .cancelled →
    a.log.parentFailures = e.scanFailures opened a.log.landmarks
  failures : e.TurnFailures policy opened position m ended a.log.failures
  records : ended = none → ∀ items, e.supplied opened m = some (.ok items) →
    a.records = items.length
  skippedRecords : a.skippedRecords ≤ a.records

/-- How the turn of a triples map ends: it is completed, with all its records counted and all its
quads kept, or it is given up because of an error, and the log says so. -/
inductive TurnEnds (c : Config) (opened : List LogicalSource) (position : Nat) (m : TriplesMap)
    (part : Contribution) (log : Log) : Prop
  | completed {items : List Item} (hstatus : part.stats.status = .completed)
      (hitems : e.supplied opened m = some (.ok items))
      (hrecords : part.stats.records = items.length)
      (hquads : part.stats.quads = part.quads.length) (hlosses : log.losses = [])
      (hfailures : e.TurnFailures c.subjectFunctionErrors opened position m none log.failures)
  | skipped {record : Option Nat} {error : Error} (hstatus : part.stats.status = .skipped)
      (hquads : part.quads = []) (hlosses : log.losses = [⟨m.iri, record, error⟩])
      (hsurvives : c.survives error = true)
      (hfailures : e.TurnFailures c.subjectFunctionErrors opened position m (some error)
        log.failures)

/-- What a triples map leaves behind and what it enters into the log, when some sources have been
opened before. -/
structure Turn (c : Config) (opened : List LogicalSource) (entry : Nat × TriplesMap)
    (part : Contribution) (log : Log) : Prop where
  triplesMap : part.stats.triplesMap = entry.2.iri
  skippedRecords : part.stats.skippedRecords ≤ part.stats.records
  diagnostics : part.diagnostics = log.failures ++ log.parentFailures ++ log.losses
  parentFailures : log.parentFailures = e.scanFailures opened log.landmarks
  ends : e.TurnEnds c opened entry.1 entry.2 part log

end Statement

/-! ### One turn -/

variable {e : Engine} {c : Config} {start : Session} {done : List String} {s s' : RunState}

open Step

/-- Landmarks and failures of a triples map begin with its own source. -/
theorem enters_opening {policy : SubjectErrorPolicy} {position : Nat} {m : TriplesMap}
    (hvalid : e.graph.validate = .ok ()) (hm : m ∈ e.graph.triplesMaps) {source : LogicalSource}
    (hsource : m.logicalSource = some source) {s₁ : RunState} {a : Account}
    {ended : Option Error}
    (htold : e.Told m.iri ((s.entering (.triplesMap m.iri)).opening source) s₁ a ended)
    (hfailures : e.TurnFailures policy s.session.opened position m ended a.log.failures)
    (hrecords : ended = none → ∀ items, e.supplied s.session.opened m = some (.ok items) →
      a.records = items.length)
    (hskipped : a.skippedRecords ≤ a.records) :
    s.Adds { s₁ with span := s.span } (.opening (.triplesMap m.iri) s.span source ++ a) ∧
      e.Enters policy s.session.opened position m ended
        (.opening (.triplesMap m.iri) s.span source ++ a) := by
  obtain ⟨hadds, htold⟩ := htold
  obtain ⟨hopened, hparents⟩ := htold rfl
  have hopens : e.graph.openings [.own m.iri] = [source] := by
    simp [RuleGraph.openings, Landmark.opened?, RuleGraph.sourceOf?,
      RuleGraph.get?_of_mem hvalid hm, hsource]
  have hlandmarks : (Account.opening (.triplesMap m.iri) s.span source ++ a).log.landmarks
      = [.own m.iri] ++ a.log.landmarks := by
    rw [Account.log_append, Log.landmarks_append]
    rfl
  refine ⟨hadds.inSpan, ?_, fun hended => ?_, hfailures, fun hended items hitems => ?_, ?_⟩
  · rw [hlandmarks, RuleGraph.openings_append, hopens, Account.opened_append, hopened]
    rfl
  · rw [hlandmarks, scanFailures_append, hopens, Account.log_append, Log.parentFailures_append,
      hparents hended]
    rfl
  · rw [Account.records_append, hrecords hended items hitems]
    exact Nat.zero_add _
  · rw [Account.records_append, Account.skippedRecords_append]
    exact Nat.add_le_add_left hskipped 0

/-- What a triples map enters, whether it gets through or not. -/
theorem runTriplesMap_enters (hvalid : e.graph.validate = .ok ()) (policy : SubjectErrorPolicy)
    (position : Nat) {m : TriplesMap} (hm : m ∈ e.graph.triplesMaps) (s : RunState) :
    match e.runTriplesMap policy position m s with
    | .ok _ s' => ∃ a, s.Adds s' a ∧ e.Enters policy s.session.opened position m none a
    | .error failure s' => ∃ a, s.Adds s' a ∧
      e.Enters policy s.session.opened position m (some failure.error) a := by
  obtain ⟨source, hsource⟩ := RuleGraph.exists_source_of_mem hvalid hm
  obtain ⟨subjectMap, hsubject⟩ := RuleGraph.exists_subjectMap_of_mem hvalid hm
  have hopened : (s.entering (.triplesMap m.iri)).session.opened = s.session.opened := rfl
  have hsupplied : e.supplied s.session.opened m
      = some (e.provider.openAfter s.session.opened source) := by
    rw [supplied, hsource, Option.map_some]
  rw [runTriplesMap_eq policy position hsource hsubject, Step.inSpan_apply, Step.bind_apply,
    Step.openSource_apply, hopened]
  cases hgiven : e.provider.openAfter s.session.opened source with
  | error fault =>
      rw [hgiven] at hsupplied
      have htold := (e.bookkeeping_told m.iri).refl ((s.entering (.triplesMap m.iri)).opening source)
        (some (.source m.iri none fault))
      exact ⟨_, enters_opening hvalid hm hsource htold (.unopened hsupplied) nofun (Nat.le_refl 0)⟩
  | ok items =>
      rw [hgiven] at hsupplied
      -- What was counted and listed over the items is what the triples map enters.
      have henters : ∀ {s₁ a ended},
          e.Told m.iri ((s.entering (.triplesMap m.iri)).opening source) s₁ a ended →
          e.Counted policy position m 0 items ended a → _ :=
        fun htold hcounted => enters_opening hvalid hm hsource htold
          (.opened hsupplied hcounted.failures) (fun hended items' hitems' => by
            obtain rfl : items = items' := by simpa [hsupplied] using hitems'
            exact hcounted.records hended) hcounted.skippedRecords
      have hitems := books_ownItems hvalid policy position hm hsubject items
        ((s.entering (.triplesMap m.iri)).opening source)
      dsimp only
      cases hrun : e.ownItems policy position m subjectMap items
          ((s.entering (.triplesMap m.iri)).opening source) with
      | ok _ s₁ =>
          rw [hrun] at hitems
          obtain ⟨a, htold, hcounted⟩ := hitems
          exact ⟨_, henters htold hcounted⟩
      | error failure s₁ =>
          rw [hrun] at hitems
          obtain ⟨a, htold, hcounted⟩ := hitems
          exact ⟨_, henters htold hcounted⟩

/-- Being given up is entered as a loss and nothing else. -/
theorem Enters.lost {policy : SubjectErrorPolicy} {opened : List LogicalSource} {position : Nat}
    {m : TriplesMap} {error : Error} {a : Account}
    (h : e.Enters policy opened position m (some error) a) (hlosses : a.log.losses = [])
    (hended : error ≠ .cancelled) (record : Option Nat) (span : Option Span) :
    let log : Log := a.log ++ [.logged (.givenUp m.iri record error) span]
    log.failures = a.log.failures ∧ log.parentFailures = a.log.parentFailures ∧
      log.losses = [⟨m.iri, record, error⟩] ∧
      log.parentFailures = e.scanFailures opened log.landmarks ∧
      a.opened = e.graph.openings log.landmarks := by
  intro log
  have hlandmarks : log.landmarks = a.log.landmarks ++ [.lost m.iri error] :=
    Log.landmarks_append ..
  have hparents : log.parentFailures = a.log.parentFailures :=
    (Log.parentFailures_append ..).trans (List.append_nil _)
  refine ⟨(Log.failures_append ..).trans (List.append_nil _), hparents, ?_, ?_, ?_⟩
  · exact (Log.losses_append ..).trans (congrArg (· ++ _) hlosses)
  · have hnone : ∀ opened, e.scanFailures opened [.lost m.iri error] = [] := fun _ => rfl
    rw [hparents, hlandmarks, scanFailures_append, hnone, List.append_nil]
    exact h.parentFailures (by simpa using hended)
  · rw [hlandmarks, RuleGraph.openings_append, h.openings]
    exact (List.append_nil _).symm

/-- A triples map that starts from a clean slate takes its turn, and leaves one behind. -/
theorem turn_of_contribution (hvalid : e.graph.validate = .ok ()) (position : Nat)
    {m : TriplesMap} (hm : m ∈ e.graph.triplesMaps) (hclean : s.parentDiagnostics = #[])
    {part : Contribution} (hrun : e.contribution c position m s = .ok part s') :
    ∃ log : Log, s'.trace.toList = s.trace.toList ++ log ∧
      s'.session.opened = s.session.opened ++ e.graph.openings log.landmarks ∧
      s'.parentDiagnostics = #[] ∧ e.Turn c s.session.opened (position, m) part log := by
  have henters := runTriplesMap_enters hvalid c.subjectFunctionErrors position hm
    { s with progress := {} }
  -- What was added to a clean slate is all there is.
  have hslate : ∀ {s₁ a}, ({ s with progress := {} } : RunState).Adds s₁ a →
      s₁.noted = a.log.failures ++ a.log.parentFailures ∧
        s₁.progress.records = a.records ∧ s₁.progress.skippedRecords = a.skippedRecords := by
    intro s₁ a hadds
    refine ⟨?_, hadds.records.trans (Nat.zero_add _), hadds.skippedRecords.trans (Nat.zero_add _)⟩
    rw [RunState.noted, hadds.diagnostics, hadds.parentDiagnostics, hclean]
    rfl
  rw [contribution_eq] at hrun
  cases hinner : e.runTriplesMap c.subjectFunctionErrors position m { s with progress := {} } with
  | ok _ s₁ =>
      rw [hinner] at henters hrun
      obtain ⟨a, hadds, henters⟩ := henters
      obtain ⟨hnoted, hrecords, hskipped⟩ := hslate hadds
      obtain ⟨rfl, rfl⟩ := EStateM.Result.ok.inj hrun
      refine ⟨a.log, hadds.trace, ?_, rfl, rfl, ?_, ?_, henters.parentFailures nofun, ?_⟩
      · rw [← henters.openings]
        exact hadds.opened
      · simpa [Progress.stats, hrecords, hskipped] using henters.skippedRecords
      · rw [hadds.losses, List.append_nil]
        exact hnoted
      · obtain ⟨items, hitems⟩ : ∃ items, e.supplied s.session.opened m = some (.ok items) := by
          cases henters.failures with
          | opened hitems _ => exact ⟨_, hitems⟩
        exact .completed rfl hitems (hrecords.trans (henters.records rfl items hitems))
          Array.length_toList.symm hadds.losses henters.failures
  | error failure s₁ =>
      rw [hinner] at henters hrun
      obtain ⟨a, hadds, henters⟩ := henters
      obtain ⟨hnoted, hrecords, hskipped⟩ := hslate hadds
      dsimp only at hrun
      by_cases hsurvives : c.survives failure.error = true
      · rw [if_pos hsurvives] at hrun
        obtain ⟨rfl, rfl⟩ := EStateM.Result.ok.inj hrun
        have hended : failure.error ≠ .cancelled := by
          intro heq
          rw [heq] at hsurvives
          cases hsurvives
        obtain ⟨hfailures, hparents, hlosses, hscans, hopened⟩ :=
          henters.lost hadds.losses hended failure.record s₁.span
        refine ⟨_, ?_, ?_, rfl, rfl, ?_, ?_, hscans, .skipped rfl rfl hlosses hsurvives ?_⟩
        · rw [Array.toList_push, hadds.trace, List.append_assoc]
        · rw [← hopened]
          exact hadds.opened
        · simpa [Progress.stats, hrecords, hskipped] using henters.skippedRecords
        · rw [hfailures, hparents, hlosses]
          exact congrArg (· ++ _) hnoted
        · rw [hfailures]
          exact henters.failures
      · rw [if_neg hsurvives] at hrun
        cases hrun

/-! ### All turns -/

/-- The turns of some triples maps, one after the other, each with what is left behind and what is
entered into the log. -/
structure Turns (e : Engine) (c : Config) (start : Session) (ls : List Landmark)
    (opened : List LogicalSource) (selected : List (Nat × TriplesMap))
    (turns : List (Contribution × Log)) : Prop where
  each : List.Forall₂ (fun entry turn =>
    e.Turn c (e.graph.openedBefore start ls entry.2.iri) entry turn.1 turn.2) selected turns
  parentFailures : Log.parentFailures (turns.flatMap (·.2))
    = e.scanFailures opened (Log.landmarks (turns.flatMap (·.2)))

variable {selected : List (Nat × TriplesMap)} {parts : List Contribution}

/-- What holds of a turn whenever it comes holds of all of them. -/
theorem Turns.forall_mem {ls : List Landmark} {opened : List LogicalSource}
    {turns : List (Contribution × Log)} (h : e.Turns c start ls opened selected turns)
    {p : Contribution × Log → Prop}
    (hp : ∀ entry turn, e.Turn c (e.graph.openedBefore start ls entry.2.iri) entry turn.1 turn.2 →
      p turn) : ∀ turn ∈ turns, p turn := by
  have hboth : List.Forall₂ (fun turn _ => p turn ∧ True) turns selected :=
    (h.each.imp fun entry turn hturn => ⟨hp entry turn hturn, trivial⟩).flip
  exact ((List.forall₂_and_left _ _).mp hboth).1

/-- A run that goes through triples maps is made of their turns. -/
theorem Settled.turns (h : e.Settled c start done s) (hvalid : e.graph.validate = .ok ())
    (hclean : s.parentDiagnostics = #[])
    (hselected : ∀ entry ∈ selected, entry.2 ∈ e.graph.triplesMaps)
    (hdistinct : (done ++ selected.map (·.2.iri)).Nodup)
    (hrun : e.contributions c selected s = .ok parts s') :
    ∃ turns : List (Contribution × Log), parts = turns.map (·.1) ∧
      s'.trace.toList = s.trace.toList ++ turns.flatMap (·.2) ∧
      e.Turns c start s'.landmarks s.session.opened selected turns := by
  induction selected generalizing s done parts with
  | nil =>
      obtain ⟨rfl, rfl⟩ := EStateM.Result.ok.inj hrun
      exact ⟨[], rfl, (List.append_nil _).symm, .nil, rfl⟩
  | cons entry selected ih =>
      obtain ⟨position, m⟩ := entry
      obtain ⟨-, hrest, hdisjoint⟩ := List.nodup_append.mp hdistinct
      have hnew : m.iri ∉ done := fun hdone => hdisjoint m.iri hdone m.iri (by simp) rfl
      have hm : m ∈ e.graph.triplesMaps := hselected (position, m) (by simp)
      have hfirst := h.contribution hvalid position hm hnew
      rw [contributions_cons_apply] at hrun
      cases hcontribution : e.contribution c position m s with
      | error failure s₁ =>
          rw [hcontribution] at hrun
          cases hrun
      | ok part s₁ =>
          rw [hcontribution] at hfirst hrun
          obtain ⟨hsettled, fresh, broken, lost, hpassed⟩ := hfirst
          obtain ⟨log, htrace, hopened, hclean₁, hturn⟩ :=
            turn_of_contribution hvalid position hm hclean hcontribution
          dsimp only at hrun
          cases hlater : e.contributions c selected s₁ with
          | error failure s₂ =>
              rw [hlater] at hrun
              cases hrun
          | ok parts s₂ =>
              rw [hlater] at hrun
              obtain ⟨rfl, rfl⟩ := EStateM.Result.ok.inj hrun
              rw [List.map_cons, List.append_cons] at hdistinct
              obtain ⟨turns, rfl, htrace', hturns⟩ := ih hsettled hclean₁
                (fun entry hentry => hselected entry (by simp [hentry])) hdistinct hlater
              -- The turn comes when the run has passed what it passed up to here.
              have hgrows : s₁.landmarks <+: s₂.landmarks := by
                unfold RunState.landmarks
                rw [htrace', List.filterMap_append]
                exact List.prefix_append _ _
              have hown : .own m.iri ∉ s.landmarks := by
                rw [← mem_owns, h.owns]
                exact hnew
              have hbefore : e.graph.openedBefore start s₂.landmarks m.iri = s.session.opened := by
                rw [RuleGraph.openedBefore, hpassed.takeWhile_landmarks hown hgrows, h.opened]
              refine ⟨(part, log) :: turns, rfl, ?_, .cons ?_ hturns.each, ?_⟩
              · rw [htrace', htrace, List.flatMap_cons, List.append_assoc]
              · rw [hbefore]
                exact hturn
              · rw [List.flatMap_cons, Log.parentFailures_append, Log.landmarks_append,
                  scanFailures_append, hturn.parentFailures, hturns.parentFailures, hopened]

end Engine

/-! ### Runs -/

namespace Executor

variable {x : Executor} {graph : RuleGraph} {filter : Option (List String)} {session : Session}

/-- A run that succeeds divides into the turns of the triples maps that are selected. -/
theorem exists_turns {execution : Execution}
    (h : (x.run graph filter session).result = .ok execution) :
    ∃ base turns span, x.config.base = .ok base ∧
      execution = Execution.ofContributions x.config (turns.map (·.1)) ∧
      x.emitted graph filter session = turns.flatMap (·.1.quads) ∧
      (x.run graph filter session).trace
        = .entered (.run (graph.selected filter).length) none :: turns.flatMap (·.2) ++
          [.logged (.finished execution.store.size execution.report.triplesMaps.length
            execution.report.diagnostics.length) span] ∧
      (x.engine graph base).Turns x.config session (x.run graph filter session).landmarks
        session.opened (graph.selected filter) turns := by
  obtain ⟨engine, selected, parts, s, hprepare, hrun, rfl⟩ := exists_contributions_of_run h
  obtain ⟨base, positions, hbase, hvalid, -, hprepared⟩ := prepare_eq_ok_iff.mp hprepare
  obtain ⟨rfl, rfl⟩ := Prod.mk.inj hprepared
  have hsettled := (x.engine graph base).settled_atStart x.config session (graph.selected filter)
  have hdistinct : (([] : List String) ++ (graph.selected filter).map (·.2.iri)).Nodup := by
    rw [List.nil_append, RuleGraph.map_iri_selected]
    exact (RuleGraph.nodup_iris hvalid).filter _
  obtain ⟨turns, rfl, htrace, hturns⟩ := hsettled.turns hvalid rfl
    (fun _ hentry => RuleGraph.mem_of_mem_selected hentry) hdistinct hrun
  have hlandmarks : (x.run graph filter session).landmarks = s.landmarks := by
    rw [run_eq_of_prepare hprepare, hrun]
    exact s.landmarks_finished _ _ _
  refine ⟨base, turns, s.span, hbase, rfl, ?_, ?_, ?_⟩
  · rw [emitted, hprepare]
    dsimp only
    rw [hrun]
    exact List.flatMap_map ..
  · rw [run_eq_of_prepare hprepare, hrun]
    dsimp only
    rw [Array.toList_push, htrace]
    rfl
  · rw [hlandmarks]
    exact hturns

end Executor

end RdfMapping
