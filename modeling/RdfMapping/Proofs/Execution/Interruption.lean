/-
A run that heeds the cancellation signal is a run that does not, up to the first item that is
handed out with the signal up.

Every step of the engine shadows the same step without signal, one lemma for each.  The
signal is looked at by `scan` alone; everything else is put together from steps that hand out
nothing and from scans.  `run_interrupted` says the same of runs.  No policy comes in, for a
cancellation is not survived under any.
-/
import RdfMapping.Proofs.Execution.Errors
import RdfMapping.Proofs.Execution.Signal

namespace RdfMapping

variable {α : Type} {p : Provider}

/-! ### Steps of the engine -/

namespace Engine

/-- The engine without signal. -/
def unheeding (e : Engine) : Engine := { e with cancellable := false }

variable {e : Engine}

theorem shadows_log (event : Event) : Shadows p (Step.log event) (Step.log event) :=
  shadows_modify fun _ => rfl

theorem shadows_absorb (iri : String) (n : Nat) (error : FunctionError) :
    Shadows p (Step.absorb iri n error) (Step.absorb iri n error) :=
  shadows_bind (shadows_log _) fun _ => shadows_modify fun _ => rfl

theorem shadows_openSource (provider : Provider) (iri : String) (source : LogicalSource) :
    Shadows p (Step.openSource provider iri source) (Step.openSource provider iri source) := by
  refine shadows_self fun s => ?_
  rw [Step.after, Step.openSource_apply]
  cases provider.openAfter s.session.opened source <;> exact ⟨rfl, rfl⟩

/-- An item is handed out, and the signal looked at. -/
theorem shadows_handOut (hheeds : e.cancellable = true) {step step' : Step α}
    (h : Shadows e.provider step step') :
    Shadows e.provider (do Step.receive e.provider; e.checkCancelled; step)
      (do Step.receive e.provider; e.unheeding.checkCancelled; step') := by
  have hfree : ∀ s : RunState,
      (do Step.receive e.provider; e.unheeding.checkCancelled; step' : Step α) s
        = step' (s.received e.provider) := fun _ => rfl
  have hafter : ∀ s : RunState,
      (do Step.receive e.provider; e.unheeding.checkCancelled; step' : Step α).after s
        = step'.after (s.received e.provider) := fun _ => rfl
  have hheeding : ∀ s : RunState,
      (do Step.receive e.provider; e.checkCancelled; step : Step α) s
        = if (s.received e.provider).session.cancelled = true then
            .error ⟨none, .cancelled⟩ (s.received e.provider)
          else step (s.received e.provider) := by
    intro s
    rw [Step.bind_apply, Step.receive_apply]
    dsimp only
    rw [Step.bind_apply, checkCancelled_apply, hheeds, Bool.true_and]
    by_cases hup : (s.received e.provider).session.cancelled = true
    · rw [if_pos hup, if_pos hup]
    · rw [if_neg hup, if_neg hup]
  refine ⟨fun s => ?_, fun s hquiet => ?_, fun s n hstops hn => ?_⟩
  · rw [hafter]
    exact (s.session.follows_received e.provider).trans (h.follows (s.received e.provider))
  · have hreceived := s.session.follows_received e.provider
    have hlater := (h.follows (s.received e.provider)).yielded
    rw [hafter] at hquiet
    have hdown : ¬ (s.received e.provider).session.cancelled = true := fun hup =>
      hquiet (s.session.yielded + 1) (Nat.lt_succ_self _) hlater (hreceived.cancelled.mp hup)
    rw [hheeding, if_neg hdown, hfree]
    refine h.same (s.received e.provider) fun n hlt hle hup => ?_
    exact hquiet n (Nat.lt_of_succ_lt hlt) hle
      ((hreceived.signalled_iff (Nat.le_of_lt hlt)).mp hup)
  · have hreceived := s.session.follows_received e.provider
    have hfresh := hstops.fresh
    rw [hafter] at hn
    rw [hheeding]
    by_cases hup : (s.received e.provider).session.cancelled = true
    · rw [if_pos hup]
      refine ⟨_, rfl, ?_⟩
      have hnow : s.session.Signalled e.provider (s.session.yielded + 1) :=
        hreceived.cancelled.mp hup
      show s.session.yielded + 1 = n
      -- No item before the one at hand had the signal up, so this is the first.
      by_contra hother
      exact hstops.first (s.session.yielded + 1) (Nat.lt_succ_self _) (by omega) hnow
    · rw [if_neg hup]
      have hnext : n ≠ s.session.yielded + 1 := by
        rintro rfl
        exact hup (hreceived.cancelled.mpr hstops.signalled)
      have hlt : (s.received e.provider).session.yielded < n := by
        show s.session.yielded + 1 < n
        omega
      exact h.stops (s.received e.provider) n (hstops.of_follows hreceived hlt) hn

theorem shadows_evaluate (map : TermMap) (record : Record) (scope : String) :
    Shadows p (e.evaluate map record scope) (e.unheeding.evaluate map record scope) :=
  shadows_bind (shadows_forM _ fun _ => shadows_log _) fun _ => shadows_pure _

/-- Going through the items of a source. -/
theorem shadows_scan (hheeds : e.cancellable = true) (iri : String)
    {visit visit' : α → Nat → Record → Step α}
    (hvisit : ∀ a n record, Shadows e.provider (visit a n record) (visit' a n record))
    (items : List Item) (n : Nat) (a : α) :
    Shadows e.provider (e.scan iri visit n a items) (e.unheeding.scan iri visit' n a items) := by
  induction items generalizing n a with
  | nil => exact shadows_pure a
  | cons item items ih =>
      refine shadows_handOut hheeds ?_
      cases item with
      | error fault => exact shadows_throw _
      | ok record => exact shadows_bind (hvisit a n record) fun b => ih (n + 1) b

/-! ### Term maps -/

theorem shadows_survive (site : Site) (result : Except FunctionError (List Term)) :
    Shadows p (survive site result) (survive site result) := by
  cases result with
  | ok terms => exact shadows_pure terms
  | error error => exact shadows_bind (shadows_absorb _ _ _) fun _ => shadows_pure _

theorem shadows_termsAt (site : Site) (map : TermMap) :
    Shadows p (e.termsAt site map) (e.unheeding.termsAt site map) :=
  shadows_bind (shadows_evaluate map site.record site.scope) fun result =>
    shadows_survive site result

theorem shadows_allTermsAt (site : Site) (maps : List TermMap) :
    Shadows p (e.allTermsAt site maps) (e.unheeding.allTermsAt site maps) := by
  induction maps with
  | nil => exact shadows_pure _
  | cons map maps ih =>
      refine shadows_bind (shadows_termsAt site map) fun _ => ?_
      exact shadows_bind ih fun _ => shadows_pure _

theorem shadows_addGraphsAt (site : Site) (graphs : List (Option Term)) (maps : List TermMap) :
    Shadows p (e.addGraphsAt site graphs maps) (e.unheeding.addGraphsAt site graphs maps) :=
  shadows_bind (shadows_allTermsAt site maps) fun _ => shadows_pure _

/-! ### Parents -/

theorem shadows_sourceOf (m : TriplesMap) : Shadows p (sourceOf m) (sourceOf m) := by
  unfold sourceOf
  cases m.logicalSource with
  | none => exact shadows_throw _
  | some source => exact shadows_pure source

theorem shadows_subjectMapOf (m : TriplesMap) : Shadows p (subjectMapOf m) (subjectMapOf m) := by
  unfold subjectMapOf
  cases m.subjectMap with
  | none => exact shadows_throw _
  | some subjectMap => exact shadows_pure subjectMap

theorem shadows_addRow (parent : TriplesMap) (subjectMap : SubjectMap) (scope : String)
    (found : ParentScan) (n : Nat) (record : Record) :
    Shadows p (e.addRow parent subjectMap scope found n record)
      (e.unheeding.addRow parent subjectMap scope found n record) := by
  refine shadows_bind (shadows_evaluate _ _ _) fun result => ?_
  cases result with
  | error error =>
      refine shadows_bind (shadows_log _) fun _ => ?_
      exact shadows_bind (shadows_modify fun _ => rfl) fun _ => shadows_pure _
  | ok terms => cases terms <;> exact shadows_pure _

theorem shadows_buildIndex (hheeds : e.cancellable = true) (position : Nat) (parent : TriplesMap)
    (asked : List String) :
    Shadows e.provider (e.buildIndex position parent asked)
      (e.unheeding.buildIndex position parent asked) := by
  refine shadows_inSpan _ ?_
  refine shadows_bind (shadows_sourceOf parent) fun source => ?_
  refine shadows_bind (shadows_subjectMapOf parent) fun subjectMap => ?_
  refine shadows_bind (shadows_openSource _ _ _) fun items => ?_
  refine shadows_bind (shadows_scan hheeds parent.iri (shadows_addRow parent subjectMap _)
    items 0 {}) fun found => ?_
  exact shadows_bind (shadows_log _) fun _ => shadows_pure _

theorem shadows_indexFor (hheeds : e.cancellable = true) (position : Nat) (parent : TriplesMap)
    (layout : List String) :
    Shadows e.provider (e.indexFor position parent layout)
      (e.unheeding.indexFor position parent layout) := by
  rw [indexFor_eq, indexFor_eq]
  refine shadows_get_bind fun s => ?_
  cases (s.indexes.lookup parent.iri).filter (·.covers layout) with
  | some index => exact shadows_pure index
  | none =>
      refine shadows_bind (shadows_buildIndex hheeds position parent layout) fun index => ?_
      exact shadows_bind (shadows_modify fun _ => rfl) fun _ => shadows_pure index

theorem shadows_parentOf (r : RefObjectMap) (child : TriplesMap) :
    Shadows p (e.parentOf r child) (e.unheeding.parentOf r child) := by
  refine shadows_self fun s => ?_
  unfold parentOf
  split <;> exact ⟨rfl, rfl⟩

theorem shadows_resolve (hheeds : e.cancellable = true) (r : RefObjectMap) (child : TriplesMap)
    (record : Record) :
    Shadows e.provider (e.resolve r child record) (e.unheeding.resolve r child record) := by
  refine shadows_bind (shadows_parentOf r child) fun found => ?_
  obtain ⟨position, parent⟩ := found
  dsimp only
  by_cases hsame : (!r.hasConditions && parent.logicalSource == child.logicalSource) = true
  · rw [if_pos hsame, if_pos hsame]
    exact shadows_bind (shadows_subjectMapOf parent) fun _ => shadows_evaluate _ _ _
  · rw [if_neg hsame, if_neg hsame]
    cases record.key? r.childReferences with
    | none => exact shadows_pure _
    | some key =>
        exact shadows_bind (shadows_indexFor hheeds _ _ _) fun _ => shadows_pure _

/-! ### Records and triples maps -/

theorem shadows_objectsAt (hheeds : e.cancellable = true) (site : Site) (map : ObjectMap) :
    Shadows e.provider (e.objectsAt site map) (e.unheeding.objectsAt site map) := by
  cases map with
  | term map => exact shadows_termsAt site map
  | parent r => exact shadows_bind (shadows_resolve hheeds r _ _) (shadows_survive site)

theorem shadows_allObjectsAt (hheeds : e.cancellable = true) (site : Site)
    (maps : List ObjectMap) :
    Shadows e.provider (e.allObjectsAt site maps) (e.unheeding.allObjectsAt site maps) := by
  induction maps with
  | nil => exact shadows_pure _
  | cons map maps ih =>
      refine shadows_bind (shadows_objectsAt hheeds site map) fun _ => ?_
      exact shadows_bind ih fun _ => shadows_pure _

theorem shadows_statementsAt (hheeds : e.cancellable = true) (site : Site)
    (subjectMap : SubjectMap) (subjects : List Term) (graphs : List (Option Term))
    (m : PredicateObjectMap) :
    Shadows e.provider (e.statementsAt site subjectMap subjects graphs m)
      (e.unheeding.statementsAt site subjectMap subjects graphs m) := by
  refine shadows_bind (shadows_allTermsAt site _) fun predicates => ?_
  by_cases hpredicates : predicates.isEmpty
  · rw [if_pos hpredicates, if_pos hpredicates]
    exact shadows_pure ()
  rw [if_neg hpredicates, if_neg hpredicates]
  refine shadows_bind (shadows_allObjectsAt hheeds site _) fun objects => ?_
  by_cases hobjects : objects.isEmpty
  · rw [if_pos hobjects, if_pos hobjects]
    exact shadows_pure ()
  rw [if_neg hobjects, if_neg hobjects]
  refine shadows_bind (shadows_addGraphsAt site _ _) fun all => ?_
  dsimp only
  split
  · exact shadows_pure ()
  · exact shadows_modify fun _ => rfl

theorem shadows_describe (hheeds : e.cancellable = true) (site : Site) (subjectMap : SubjectMap)
    (subjects : List Term) :
    Shadows e.provider (e.describe site subjectMap subjects)
      (e.unheeding.describe site subjectMap subjects) := by
  refine shadows_bind (shadows_addGraphsAt site _ _) fun graphs => ?_
  refine shadows_bind (shadows_modify fun _ => rfl) fun _ => ?_
  exact shadows_forM _ fun m => shadows_statementsAt hheeds site subjectMap subjects graphs m

theorem shadows_visitRecord (hheeds : e.cancellable = true) (policy : SubjectErrorPolicy)
    (m : TriplesMap) (scope : String) (subjectMap : SubjectMap) (n : Nat) (record : Record) :
    Shadows e.provider (e.visitRecord policy m scope subjectMap n record)
      (e.unheeding.visitRecord policy m scope subjectMap n record) := by
  refine shadows_bind (shadows_modify fun _ => rfl) fun _ => ?_
  refine shadows_bind (shadows_evaluate _ _ _) fun result => ?_
  cases result with
  | error error =>
      cases policy with
      | skipRecord => exact shadows_bind (shadows_absorb _ _ _) fun _ => shadows_modify fun _ => rfl
      | abortTriplesMap => exact shadows_throw _
  | ok subjects =>
      cases subjects with
      | nil => exact shadows_bind (shadows_log _) fun _ => shadows_modify fun _ => rfl
      | cons subject subjects => exact shadows_describe hheeds _ subjectMap _

theorem shadows_runTriplesMap (hheeds : e.cancellable = true) (policy : SubjectErrorPolicy)
    (position : Nat) (m : TriplesMap) :
    Shadows e.provider (e.runTriplesMap policy position m)
      (e.unheeding.runTriplesMap policy position m) := by
  refine shadows_inSpan _ ?_
  refine shadows_bind (shadows_sourceOf m) fun source => ?_
  refine shadows_bind (shadows_subjectMapOf m) fun subjectMap => ?_
  refine shadows_bind (shadows_openSource _ _ _) fun items => ?_
  refine shadows_bind (shadows_scan hheeds m.iri
    (fun _ => shadows_visitRecord hheeds policy m _ subjectMap) items 0 ()) fun _ => ?_
  exact shadows_get_bind fun s => shadows_log _

/-- A cancellation is not survived, whatever else is. -/
theorem shadows_contribution (hheeds : e.cancellable = true) (c : Config) (position : Nat)
    (m : TriplesMap) :
    Shadows e.provider (e.contribution c position m) (e.unheeding.contribution c position m) := by
  have hrun := shadows_runTriplesMap hheeds c.subjectFunctionErrors position m
  -- Neither the clean slate before nor the tidying up after the execution touches the session.
  have hafter : ∀ s : RunState, ((e.unheeding.contribution c position m).after s).session
      = ((e.unheeding.runTriplesMap c.subjectFunctionErrors position m).after
          { s with progress := {} }).session := by
    intro s
    rw [Step.after, Step.after, contribution_eq]
    cases e.unheeding.runTriplesMap c.subjectFunctionErrors position m { s with progress := {} } with
    | ok _ s₁ => rfl
    | error failure s₁ =>
        by_cases hsurvives : c.survives failure.error
        · simp only [if_pos hsurvives]
        · simp only [if_neg hsurvives]
  refine ⟨fun s => ?_, fun s hquiet => ?_, fun s n hstops hn => ?_⟩
  · rw [hafter]
    exact hrun.follows { s with progress := {} }
  · rw [hafter] at hquiet
    rw [contribution_eq, contribution_eq, hrun.same { s with progress := {} } hquiet]
  · rw [hafter] at hn
    obtain ⟨s', hend, hyielded⟩ := hrun.stops { s with progress := {} } n hstops hn
    rw [contribution_eq, hend]
    exact ⟨_, rfl, hyielded⟩

theorem shadows_contributions (hheeds : e.cancellable = true) (c : Config)
    (selected : List (Nat × TriplesMap)) :
    Shadows e.provider (e.contributions c selected) (e.unheeding.contributions c selected) := by
  induction selected with
  | nil => exact shadows_pure []
  | cons entry selected ih =>
      refine shadows_bind (shadows_contribution hheeds c entry.1 entry.2) fun first => ?_
      exact shadows_bind ih fun rest => shadows_pure _

end Engine

/-! ### Runs -/

namespace Executor

variable {x : Executor} {graph : RuleGraph} {filter : Option (List String)} {session : Session}

/-- The executor without signal. -/
def unheeding (x : Executor) : Executor := { x with cancellable := false }

theorem prepare_unheeding (x : Executor) (graph : RuleGraph) (filter : Option (List String)) :
    x.unheeding.prepare graph filter
      = (x.prepare graph filter).map fun prepared => (prepared.1.unheeding, prepared.2) := by
  unfold prepare unheeding
  cases x.config.base with
  | error cause => rfl
  | ok base =>
      cases graph.validate with
      | error fault => rfl
      | ok _ => cases graph.select filter <;> rfl

theorem session_run_of_prepare {engine : Engine} {selected : List (Nat × TriplesMap)}
    (h : x.prepare graph filter = .ok (engine, selected)) :
    (x.run graph filter session).session
      = ((engine.contributions x.config selected).after (.atStart session selected)).session := by
  rw [run_eq_of_prepare h, Step.after]
  cases engine.contributions x.config selected (.atStart session selected) <;> rfl

/-- Without items that are handed out with the signal up, the signal makes no difference; else
the run ends with the first of them. -/
theorem run_shadows (hheeds : x.cancellable = true) (graph : RuleGraph)
    (filter : Option (List String)) (session : Session) :
    ((∀ n, session.yielded < n → n ≤ (x.unheeding.run graph filter session).session.yielded →
        ¬ session.Signalled x.provider n) →
      x.run graph filter session = x.unheeding.run graph filter session) ∧
    ∀ n, session.Stops x.provider n →
      n ≤ (x.unheeding.run graph filter session).session.yielded →
      (x.run graph filter session).result = .error .cancelled ∧
        (x.run graph filter session).session.yielded = n := by
  have hprepare := x.prepare_unheeding graph filter
  cases hprepared : x.prepare graph filter with
  | error error =>
      rw [hprepared] at hprepare
      rw [run_eq_of_prepare_eq_error hprepared, run_eq_of_prepare_eq_error hprepare]
      refine ⟨fun _ => rfl, fun n hstops hn => ?_⟩
      exact absurd hstops.fresh (Nat.not_lt.mpr hn)
  | ok prepared =>
      obtain ⟨engine, selected⟩ := prepared
      obtain ⟨base, positions, -, -, -, hengine⟩ := prepare_eq_ok_iff.mp hprepared
      obtain ⟨rfl, rfl⟩ := Prod.mk.inj hengine
      rw [hprepared] at hprepare
      have hshadows := Engine.shadows_contributions (e := x.engine graph base) hheeds x.config
        (graph.selected filter)
      rw [session_run_of_prepare hprepare]
      refine ⟨fun hquiet => ?_, fun n hstops hn => ?_⟩
      · have hsame := hshadows.same (.atStart session (graph.selected filter)) hquiet
        rw [run_eq_of_prepare hprepared, run_eq_of_prepare hprepare, hsame]
        rfl
      · obtain ⟨s', hend, hyielded⟩ :=
          hshadows.stops (.atStart session (graph.selected filter)) n hstops hn
        rw [run_eq_of_prepare hprepared, hend]
        exact ⟨rfl, hyielded⟩

/-- Without signal no run is cancelled. -/
theorem run_unheeding_ne_cancelled :
    (x.unheeding.run graph filter session).result ≠ .error .cancelled := by
  intro h
  cases ends_of_run_eq_error h with
  | cancelled hheeded hraised => cases hheeded

/--
**A cancelled run ends with the first item after the signal.**  If an item is handed out with
the signal up then the run is cancelled and this was its last item, and if none is then the run
is the one without signal.  When the signal goes up with the `n`-th item, the run is cancelled
exactly if the one without signal has that many items, and then it has just these.
-/
theorem run_interrupted (x : Executor) (hheeds : x.cancellable = true) (graph : RuleGraph)
    (filter : Option (List String)) (session : Session) :
    (∀ n, session.yielded < n → n ≤ (x.run graph filter session).session.yielded →
        session.Signalled x.provider n →
        (x.run graph filter session).result = .error .cancelled ∧
          (x.run graph filter session).session.yielded = n) ∧
      ((∀ n, session.yielded < n → n ≤ (x.run graph filter session).session.yielded →
          ¬ session.Signalled x.provider n) →
        x.run graph filter session = x.unheeding.run graph filter session) ∧
      ∀ n, session.Stops x.provider n →
        ((x.run graph filter session).result = .error .cancelled ↔
            n ≤ (x.unheeding.run graph filter session).session.yielded) ∧
          (n ≤ (x.unheeding.run graph filter session).session.yielded →
            (x.run graph filter session).session.yielded = n) := by
  obtain ⟨hsame, hstop⟩ := run_shadows hheeds graph filter session
  -- All three parts depend on whether the run without signal gets to an item that would end it.
  by_cases hstops : ∃ n, session.Stops x.provider n ∧
      n ≤ (x.unheeding.run graph filter session).session.yielded
  · obtain ⟨n, hn, hle⟩ := hstops
    obtain ⟨hcancelled, hyielded⟩ := hstop n hn hle
    refine ⟨fun k hfresh hk hup => ⟨hcancelled, ?_⟩, fun hquiet => ?_, fun k hk => ?_⟩
    · by_contra hother
      exact hn.first k hfresh (by omega) hup
    · exact absurd hn.signalled (hquiet n hn.fresh (by omega))
    · obtain rfl : k = n := hk.unique hn
      exact ⟨iff_of_true hcancelled hle, fun _ => hyielded⟩
  · have hquiet : ∀ n, session.yielded < n →
        n ≤ (x.unheeding.run graph filter session).session.yielded →
          ¬ session.Signalled x.provider n := by
      intro n hfresh hn hup
      obtain ⟨k, hk, hfirst⟩ := Session.exists_stops hfresh hup
      exact hstops ⟨k, hfirst, Nat.le_trans hk hn⟩
    have hrun := hsame hquiet
    rw [hrun]
    refine ⟨fun n hfresh hn hup => absurd hup (hquiet n hfresh hn), fun _ => rfl, fun n hn => ?_⟩
    have hlate : ¬ n ≤ (x.unheeding.run graph filter session).session.yielded :=
      fun hle => hstops ⟨n, hn, hle⟩
    exact ⟨iff_of_false run_unheeding_ne_cancelled hlate, fun hle => absurd hle hlate⟩

/-! ### A hotel that closes -/

/-- The hotel with a signal that goes up with the fourth item: the end of the rooms, met while
their index is built for the guests. -/
def closingHotel : Executor :=
  { hotel with provider := { hotel.provider with cancelsAt := fun n => n == 4 } }

theorem closingHotel_stops : Session.Stops {} closingHotel.provider 4 where
  fresh := by decide
  signalled := .inr ⟨4, by decide, by decide, rfl⟩
  first := by
    rintro k - hk (hup | ⟨l, -, hl, hraised⟩)
    · cases hup
    · obtain rfl : l = 4 := by simpa [closingHotel] using hraised
      omega

/-- Although sources may be skipped, nothing is read after that. -/
theorem closingHotel_run_interrupted :
    (closingHotel.unheeding.run hotelRules none {}).session.yielded = 7 ∧
      (closingHotel.run hotelRules none {}).result = .error .cancelled ∧
      (closingHotel.run hotelRules none {}).session.yielded = 4 := by
  have hfree : (closingHotel.unheeding.run hotelRules none {}).session.yielded = 7 := by
    decide +kernel
  have hlast := (run_interrupted closingHotel rfl hotelRules none {}).2.2 4 closingHotel_stops
  rw [hfree] at hlast
  exact ⟨hfree, hlast.1.mpr (by decide), hlast.2 (by decide)⟩

end Executor

end RdfMapping
