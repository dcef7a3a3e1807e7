/-
What a source that cannot be read costs.

A triples map whose own source or whose parent's source cannot be read is a loss: `lossOf` is
the diagnostic that it has then, if the run goes on.  What it keeps in that case are its
counts, `keptOf`.  Both are said of the yield of the triples map, without a state, and the
parts of a run under the two policies for sources are put together from them.

A report has other diagnostics than losses, which do depend on the state: a parent's failures
are listed with the triples map that happened to need the parent first.  These are about
functions, though, so among the diagnostics about sources there are only losses, one for
each triples map that is lost.
-/
import RdfMapping.Proofs.Execution.Assembly
import RdfMapping.Proofs.Execution.Causes

namespace RdfMapping

/-- Whether the error is about a source. -/
def Error.isSource : Error → Bool
  | source .. => true
  | _ => false

theorem Config.survives_of_isSource (c : Config) {error : Error} (h : error.isSource = true) :
    c.survives error = (c.sourceErrors == .skipTriplesMap) := by
  cases error with
  | source iri record fault => rfl
  | _ => cases h

/-! ### What is lost and what is kept -/

namespace Engine

/-- The diagnostic of a triples map that fails because of a source. -/
def lossOf (e : Engine) (policy : SubjectErrorPolicy) (entry : Nat × TriplesMap) :
    Option Diagnostic :=
  match (e.mapYield policy entry.1 entry.2).failure with
  | none => none
  | some failure =>
    if failure.error.isSource then some ⟨entry.2.iri, failure.record, failure.error⟩ else none

/-- The quads and counts of a triples map whose failure, if there is one, is survived. -/
def keptOf (e : Engine) (policy : SubjectErrorPolicy) (entry : Nat × TriplesMap) :
    List Quad × Stats :=
  let y := e.mapYield policy entry.1 entry.2
  match y.failure with
  | none => (y.tally.quads, y.tally.stats entry.2.iri .completed)
  | some _ => ([], y.tally.stats entry.2.iri .skipped)

variable {e : Engine} {policy : SubjectErrorPolicy} {entry : Nat × TriplesMap}
  {selected : List (Nat × TriplesMap)} {d : Diagnostic}

@[simp] theorem keptOf_triplesMap : (e.keptOf policy entry).2.triplesMap = entry.2.iri := by
  unfold keptOf
  dsimp only
  split <;> rfl

theorem lossOf_eq_some_iff : e.lossOf policy entry = some d ↔
    ∃ failure, (e.mapYield policy entry.1 entry.2).failure = some failure ∧
      failure.error.isSource = true ∧ d = ⟨entry.2.iri, failure.record, failure.error⟩ := by
  unfold lossOf
  cases (e.mapYield policy entry.1 entry.2).failure with
  | none => simp
  | some failure =>
      simp only [Option.some.injEq, exists_eq_left', Option.ite_none_right_eq_some]
      exact and_congr_right fun _ => eq_comm

theorem triplesMap_of_lossOf (h : e.lossOf policy entry = some d) :
    d.triplesMap = entry.2.iri := by
  obtain ⟨failure, -, -, rfl⟩ := lossOf_eq_some_iff.mp h
  rfl

theorem keptOf_of_lossOf (h : e.lossOf policy entry = some d) :
    (e.keptOf policy entry).1 = [] ∧ (e.keptOf policy entry).2.status = .skipped := by
  obtain ⟨failure, hfailure, -, -⟩ := lossOf_eq_some_iff.mp h
  unfold keptOf
  dsimp only
  rw [hfailure]
  exact ⟨rfl, rfl⟩

/-- A triples map fails because of a source, or because of its subject if that gives it up. -/
theorem failure_mapYield (he : e.Repeatable) (hvalid : e.graph.validate = .ok ())
    (hget : e.graph.triplesMaps[entry.1]? = some entry.2) {failure : Failure}
    (h : (e.mapYield policy entry.1 entry.2).failure = some failure) :
    failure.error.isSource = true ∨
      policy = .abortTriplesMap ∧ ∃ error, failure.error = .function error := by
  have hm : entry.2 ∈ e.graph.triplesMaps := List.mem_of_getElem? hget
  -- What the triples map yields can be had from the initial state, where no signal is up.
  obtain ⟨s, hs, -, hrun⟩ := yields_runTriplesMap he policy entry.1 hm
    (knowsParents_of_validate hvalid hm) {} (sound_of_calm (fun _ => rfl) rfl)
  have hproceeds := proceeds_runTriplesMap policy hvalid hget {}
    (Session.Before.refl {}) (Session.Before.refl {})
  rw [hrun, Yield.outcome, h] at hproceeds
  cases hproceeds.2 with
  | cancelled hheeded hraised =>
      rw [hs.undisturbed hheeded] at hraised
      cases hraised
  | source hiri hnames => exact .inl rfl
  | subject hpolicy hnames => exact .inr ⟨hpolicy, _, rfl⟩

/-- Losses are about the triples maps that are lost. -/
theorem map_iri_filter_lossOf (e : Engine) (policy : SubjectErrorPolicy)
    (selected : List (Nat × TriplesMap)) :
    (selected.filter fun entry => (e.lossOf policy entry).isSome).map (·.2.iri)
      = (selected.filterMap (e.lossOf policy)).map (·.triplesMap) := by
  induction selected with
  | nil => rfl
  | cons entry selected ih =>
      rw [List.filter_cons, List.filterMap_cons]
      cases hloss : e.lossOf policy entry with
      | none => simpa using ih
      | some d => simp [ih, triplesMap_of_lossOf hloss]

/-- Leaving out what is lost loses no quads. -/
theorem flatten_keptOf_filter (e : Engine) (policy : SubjectErrorPolicy)
    (selected : List (Nat × TriplesMap)) :
    ((selected.filter fun entry => (e.lossOf policy entry).isNone).map
        fun entry => (e.keptOf policy entry).1).flatten
      = (selected.map fun entry => (e.keptOf policy entry).1).flatten := by
  induction selected with
  | nil => rfl
  | cons entry selected ih =>
      rw [List.filter_cons]
      cases hloss : e.lossOf policy entry with
      | none => simp [ih]
      | some d => simp [ih, (keptOf_of_lossOf hloss).1]

/-! ### Parts under the two policies -/

theorem part_eq_kept {c : Config} (he : e.Repeatable) (hvalid : e.graph.validate = .ok ())
    (hget : e.graph.triplesMaps[entry.1]? = some entry.2)
    (h : c.sourceErrors = .skipTriplesMap ∨ e.lossOf c.subjectFunctionErrors entry = none) :
    (e.mapYield c.subjectFunctionErrors entry.1 entry.2).part c entry.2.iri
      = .ok (e.keptOf c.subjectFunctionErrors entry) := by
  unfold Yield.part keptOf
  dsimp only
  cases hfailure : (e.mapYield c.subjectFunctionErrors entry.1 entry.2).failure with
  | none => rfl
  | some failure =>
      have hsurvives : c.survives failure.error = true := by
        rcases failure_mapYield he hvalid hget hfailure with hsource | ⟨habort, error, herror⟩
        · have hskip : c.sourceErrors = .skipTriplesMap := by
            refine h.resolve_right fun hnone => ?_
            have hloss := lossOf_eq_some_iff.mpr ⟨failure, hfailure, hsource, rfl⟩
            rw [hnone] at hloss
            cases hloss
          rw [c.survives_of_isSource hsource, hskip]
          rfl
        · rw [herror, Config.survives, habort]
          rfl
      dsimp only
      rw [if_pos hsurvives]

/-- If sources are skipped then every triples map leaves a part behind. -/
theorem partsOf_of_skip {c : Config} (he : e.Repeatable) (hvalid : e.graph.validate = .ok ())
    (hselected : ∀ entry ∈ selected, e.graph.triplesMaps[entry.1]? = some entry.2)
    (hskip : c.sourceErrors = .skipTriplesMap) :
    e.partsOf c selected = .ok (selected.map (e.keptOf c.subjectFunctionErrors)) := by
  refine mapM_eq_ok_iff.mpr ?_
  rw [List.forall₂_map_right_iff, List.forall₂_same]
  intro entry hentry
  exact part_eq_kept he hvalid (hselected entry hentry) (.inl hskip)

/-- If sources are not skipped then the first loss ends the run. -/
theorem partsOf_of_fail {c : Config} (he : e.Repeatable) (hvalid : e.graph.validate = .ok ())
    (hselected : ∀ entry ∈ selected, e.graph.triplesMaps[entry.1]? = some entry.2)
    (hfail : c.sourceErrors = .fail) :
    (e.partsOf c selected).mapError (·.error)
      = match selected.filterMap (e.lossOf c.subjectFunctionErrors) with
        | [] => .ok (selected.map (e.keptOf c.subjectFunctionErrors))
        | d :: _ => .error d.error := by
  induction selected with
  | nil => rfl
  | cons entry selected ih =>
      rw [partsOf, List.mapM_cons, List.filterMap_cons]
      cases hloss : e.lossOf c.subjectFunctionErrors entry with
      | some d =>
          obtain ⟨failure, hfailure, hsource, rfl⟩ := lossOf_eq_some_iff.mp hloss
          have hfatal : ¬ c.survives failure.error := by
            rw [c.survives_of_isSource hsource, hfail]
            decide
          rw [Yield.part, hfailure]
          dsimp only
          rw [if_neg hfatal]
          rfl
      | none =>
          have hfirst := part_eq_kept he hvalid (hselected entry (by simp)) (.inr hloss)
          have hrest := ih fun other hother => hselected other (by simp [hother])
          rw [hfirst]
          change ((e.partsOf c selected >>= fun parts => pure (_ :: parts))).mapError _ = _
          revert hrest
          dsimp only
          cases e.partsOf c selected <;>
            cases selected.filterMap (e.lossOf c.subjectFunctionErrors) <;>
            simp +contextual [Except.mapError, bind, Except.bind, pure, Except.pure]

/-! ### Which diagnostics are about sources -/

theorem Notes.isSource_eq_false {start t : Session} (h : e.Notes start t d) :
    d.error.isSource = false := by
  obtain ⟨n, error, -, herror, -⟩ := h
  rw [herror]
  rfl

/-- Among the diagnostics that a triples map leaves behind, only its loss is about a source. -/
theorem sourceFailures_contribution {c : Config} (he : e.Repeatable)
    (hvalid : e.graph.validate = .ok ()) (hget : e.graph.triplesMaps[entry.1]? = some entry.2)
    {s s' : RunState} {part : Contribution} (hs : e.Sound s) (hclear : s.parentDiagnostics = #[])
    (h : e.contribution c entry.1 entry.2 s = .ok part s') :
    s'.parentDiagnostics = #[] ∧ part.diagnostics.filter (·.error.isSource)
      = (e.lossOf c.subjectFunctionErrors entry).toList := by
  have hm : entry.2 ∈ e.graph.triplesMaps := List.mem_of_getElem? hget
  obtain ⟨s₁, -, -, hrun⟩ := yields_runTriplesMap he c.subjectFunctionErrors entry.1 hm
    (knowsParents_of_validate hvalid hm) { s with progress := {} } ⟨hs.undisturbed, hs.indexes⟩
  have hproceeds := proceeds_runTriplesMap c.subjectFunctionErrors hvalid hget
    { s with progress := {} } (Session.Before.refl s.session) (Session.Before.refl s.session)
  -- Everything but the failure that gave the triples map up is a note, and so about a function.
  have hnoted : e.Evolves s.session { s with progress := {} } s₁ →
      s₁.noted.filter (·.error.isSource) = [] := by
    intro hevolves
    refine List.filter_eq_nil_iff.mpr fun d hd => ?_
    rw [(hevolves.notes rfl hclear d hd).isSource_eq_false]
    exact Bool.false_ne_true
  rw [contribution_eq, hrun] at h
  rw [hrun] at hproceeds
  unfold Yield.outcome at h hproceeds
  unfold lossOf
  cases hfailure : (e.mapYield c.subjectFunctionErrors entry.1 entry.2).failure with
  | none =>
      rw [hfailure] at h hproceeds
      cases h
      exact ⟨rfl, hnoted hproceeds.1⟩
  | some failure =>
      rw [hfailure] at h hproceeds
      dsimp only [Step.result] at h
      by_cases hsurvives : c.survives failure.error
      · rw [if_pos hsurvives] at h
        cases h
        refine ⟨rfl, ?_⟩
        rw [List.filter_append, hnoted hproceeds.1, List.nil_append]
        by_cases hsource : failure.error.isSource <;> simp [hsource]
      · rw [if_neg hsurvives] at h
        cases h

theorem sourceFailures_contributions {c : Config} (he : e.Repeatable)
    (hvalid : e.graph.validate = .ok ())
    (hselected : ∀ entry ∈ selected, e.graph.triplesMaps[entry.1]? = some entry.2)
    {s s' : RunState} {parts : List Contribution} (hs : e.Sound s)
    (hclear : s.parentDiagnostics = #[]) (h : e.contributions c selected s = .ok parts s') :
    (parts.flatMap (·.diagnostics)).filter (·.error.isSource)
      = selected.filterMap (e.lossOf c.subjectFunctionErrors) := by
  induction selected generalizing s parts with
  | nil => cases h; rfl
  | cons entry selected ih =>
      have hget := hselected entry (by simp)
      have hm : entry.2 ∈ e.graph.triplesMaps := List.mem_of_getElem? hget
      obtain ⟨s₁, full, hs₁, hfirst, -⟩ := shows_contribution he c entry.1 hm
        (knowsParents_of_validate hvalid hm) s hs
      rw [contributions_cons_apply] at h
      cases full with
      | error failure => rw [hfirst] at h; cases h
      | ok first =>
          rw [hfirst] at h
          dsimp only [Step.result] at h
          cases hrest : e.contributions c selected s₁ with
          | error failure s₂ => rw [hrest] at h; cases h
          | ok rest s₂ =>
              rw [hrest] at h
              cases h
              obtain ⟨hclear₁, hloss⟩ := sourceFailures_contribution he hvalid hget hs hclear hfirst
              rw [List.flatMap_cons, List.filter_append, hloss,
                ih (fun other hother => hselected other (by simp [hother])) hs₁ hclear₁ hrest,
                List.filterMap_cons]
              cases e.lossOf c.subjectFunctionErrors entry <;> rfl

end Engine

end RdfMapping
