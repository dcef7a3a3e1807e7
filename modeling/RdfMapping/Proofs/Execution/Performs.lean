/-
Steps whose outcome does not depend on the state.

`e.Performs step t outcome` says what a step comes to from every sound state: it ends as
`outcome` tells, adds `t` to the counts of the current triples map, and leaves a sound
state behind, whether it failed or not.  A state is sound if the run was not cancelled
and every index in it is what scanning its parent gives.

The judgement speaks neither of the trace nor of what was opened nor of the indexes that
happen to exist.  That is the point: a step that performs something performs it no
matter which steps went before.  This file has the rules by which the judgement is put
together, `performs_bind` above all, and the judgements of the elementary steps.
-/
import RdfMapping.Proofs.Execution.Steps
import RdfMapping.Proofs.Execution.Yield

namespace RdfMapping

/-- The result of a step that ended in a state. -/
def Step.result {α : Type} (outcome : Except Failure α) (s : RunState) :
    EStateM.Result Failure RunState α :=
  match outcome with
  | .ok a => .ok a s
  | .error failure => .error failure s

namespace Engine

/-- A parent's record with its subjects, if it makes any. -/
def rowOf? (e : Engine) (position : Nat) (parent : TriplesMap) (record : Record) :
    Option ParentRow :=
  match e.subjectsOf position parent record with
  | .ok (t :: ts) => some ⟨record, t :: ts⟩
  | _ => none

/-- A parent's records that make subjects, with those subjects. -/
def rowsOf (e : Engine) (position : Nat) (parent : TriplesMap) (records : List Record) :
    List ParentRow := records.filterMap (e.rowOf? position parent)

/-- The index is one that scanning the first triples map of an identity gives. -/
def IndexOf (e : Engine) (iri : String) (index : ParentIndex) : Prop :=
  ∃ position parent records layouts,
    e.graph.position? iri = some position ∧ e.graph.get? iri = some parent ∧
      e.recordsOf parent = .ok records ∧
      index = ParentIndex.ofRows layouts (e.rowsOf position parent records)

/-- A state that a run may go on from. -/
structure Sound (e : Engine) (s : RunState) : Prop where
  /-- The signal is not raised, if it is heeded. -/
  undisturbed : e.cancellable = true → s.session.cancelled = false
  /-- Every index is that of its parent. -/
  indexes : ∀ iri index, s.indexes.lookup iri = some index → e.IndexOf iri index

theorem sound_of_calm {e : Engine} {s : RunState}
    (hcalm : e.cancellable = true → s.session.cancelled = false) (hindexes : s.indexes = []) :
    e.Sound s := by
  refine ⟨hcalm, ?_⟩
  intro iri index hlookup
  rw [hindexes] at hlookup
  cases hlookup

/-- The engine can do everything again with the same result: its triples maps have what they
need, the provider gives for their sources the same whenever they are opened, and it never
asks for a cancellation that is heeded. -/
structure Repeatable (e : Engine) : Prop where
  complete : ∀ m ∈ e.graph.triplesMaps, m.logicalSource.isSome ∧ m.subjectMap.isSome
  reopens : ∀ m ∈ e.graph.triplesMaps, ∀ source, m.logicalSource = some source →
    ∀ opened, e.provider.openAfter opened source = e.provider.openAfter [] source
  silent : e.cancellable = true → ∀ n, e.provider.cancelsAt n = false

/-- From every sound state the step ends in this way, adds this much and stays sound. -/
def Performs {α : Type} (e : Engine) (step : Step α) (t : Tally) (outcome : Except Failure α) :
    Prop :=
  ∀ s, e.Sound s → ∃ s', e.Sound s' ∧ s'.progress.tally = s.progress.tally ++ t ∧
    step s = Step.result outcome s'

variable {e : Engine} {α β : Type}

/-! ### Rules -/

theorem performs_pure (a : α) : e.Performs (pure a) {} (.ok a) := by
  intro s hs
  exact ⟨s, hs, by simp, rfl⟩

theorem performs_throw (failure : Failure) :
    e.Performs (throw failure : Step α) {} (.error failure) := by
  intro s hs
  exact ⟨s, hs, by simp, rfl⟩

theorem performs_bind {x : Step α} {f : α → Step β} {t u : Tally} {a : α}
    {outcome : Except Failure β} (hx : e.Performs x t (.ok a)) (hf : e.Performs (f a) u outcome) :
    e.Performs (x >>= f) (t ++ u) outcome := by
  intro s hs
  obtain ⟨s₁, hs₁, ht₁, hx₁⟩ := hx s hs
  obtain ⟨s₂, hs₂, ht₂, hf₂⟩ := hf s₁ hs₁
  refine ⟨s₂, hs₂, by rw [ht₂, ht₁, Tally.append_assoc], ?_⟩
  rw [Step.bind_apply, hx₁]
  exact hf₂

/-- A step that adds nothing may go first. -/
theorem performs_bind_of_silent {x : Step α} {f : α → Step β} {t : Tally} {a : α}
    {outcome : Except Failure β} (hx : e.Performs x {} (.ok a))
    (hf : e.Performs (f a) t outcome) : e.Performs (x >>= f) t outcome := by
  simpa using performs_bind hx hf

theorem performs_bind_error {x : Step α} (f : α → Step β) {t : Tally} {failure : Failure}
    (hx : e.Performs x t (.error failure)) : e.Performs (x >>= f) t (.error failure) := by
  intro s hs
  obtain ⟨s₁, hs₁, ht₁, hx₁⟩ := hx s hs
  refine ⟨s₁, hs₁, ht₁, ?_⟩
  rw [Step.bind_apply, hx₁]
  rfl

/-- What was read of the state may be taken to be sound, and need not matter otherwise. -/
theorem performs_get_bind {f : RunState → Step α} {t : Tally} {outcome : Except Failure α}
    (hf : ∀ s, e.Sound s → e.Performs (f s) t outcome) :
    e.Performs (get >>= f) t outcome := by
  intro s hs
  exact hf s hs s hs

/-- A change of the state that leaves signal and indexes alone. -/
theorem performs_modify {f : RunState → RunState} {t : Tally}
    (hsession : ∀ s, (f s).session = s.session) (hindexes : ∀ s, (f s).indexes = s.indexes)
    (htally : ∀ s, (f s).progress.tally = s.progress.tally ++ t) :
    e.Performs (modify f) t (.ok ()) := by
  intro s hs
  refine ⟨f s, ⟨?_, ?_⟩, htally s, rfl⟩
  · rw [hsession]
    exact hs.undisturbed
  · rw [hindexes]
    exact hs.indexes

theorem performs_inSpan {step : Step α} (span : Span) {t : Tally} {outcome : Except Failure α}
    (h : e.Performs step t outcome) : e.Performs (Step.inSpan span step) t outcome := by
  intro s hs
  obtain ⟨s', hs', ht, hstep⟩ := h
    { s with trace := s.trace.push (.entered span s.span), span := some span }
    ⟨hs.undisturbed, hs.indexes⟩
  refine ⟨{ s' with span := s.span }, ⟨hs'.undisturbed, hs'.indexes⟩, ht, ?_⟩
  unfold Step.inSpan
  simp only [hstep]
  cases outcome <;> rfl

/-- The failure of a step may be looked at as a value. -/
theorem performs_attempt {step : Step α} {t : Tally} {outcome : Except Failure α}
    (h : e.Performs step t outcome) : e.Performs (Step.attempt step) t (.ok outcome) := by
  intro s hs
  obtain ⟨s', hs', ht, hstep⟩ := h s hs
  refine ⟨s', hs', ht, ?_⟩
  rw [Step.attempt, hstep]
  cases outcome <;> rfl

/-! ### Elementary steps -/

theorem performs_failWith (error : Error) :
    e.Performs (Step.failWith error : Step α) {} (.error (.ofError error)) :=
  performs_throw _

theorem performs_log (event : Event) : e.Performs (Step.log event) {} (.ok ()) :=
  performs_modify (fun _ => rfl) (fun _ => rfl) (fun _ => (Tally.append_empty _).symm)

theorem performs_countRecord : e.Performs Step.countRecord { records := 1 } (.ok ()) :=
  performs_modify (fun _ => rfl) (fun _ => rfl)
    (fun s => by simp [Progress.tally, Tally.append_def])

theorem performs_countSkipped : e.Performs Step.countSkipped { skippedRecords := 1 } (.ok ()) :=
  performs_modify (fun _ => rfl) (fun _ => rfl)
    (fun s => by simp [Progress.tally, Tally.append_def])

theorem performs_emit (quads : List Quad) :
    e.Performs (Step.emit quads) { quads } (.ok ()) :=
  performs_modify (fun _ => rfl) (fun _ => rfl)
    (fun s => by simp [Progress.tally, Tally.append_def])

theorem performs_absorb (triplesMap : String) (record : Nat) (error : FunctionError) :
    e.Performs (Step.absorb triplesMap record error) {} (.ok ()) :=
  performs_bind_of_silent (performs_log _)
    (performs_modify (fun _ => rfl) (fun _ => rfl)
      (fun s => by simp [Progress.tally, Tally.append_def]))

theorem performs_logNotes (notes : List GenerationNote) :
    e.Performs (notes.forM fun note => Step.log (.generation note)) {} (.ok ⟨⟩) := by
  induction notes with
  | nil => exact performs_pure _
  | cons note notes ih => exact performs_bind_of_silent (performs_log _) ih

/-- Making terms performs what the generator gives. -/
theorem performs_evaluate (m : TermMap) (record : Record) (scope : String) :
    e.Performs (e.evaluate m record scope) {} (.ok (e.generator.terms m record scope)) :=
  performs_bind_of_silent (performs_logNotes _) (performs_pure _)

theorem performs_receive (he : e.Repeatable) :
    e.Performs (Step.receive e.provider) {} (.ok ()) := by
  intro s hs
  refine ⟨s.received e.provider, ⟨?_, hs.indexes⟩, (Tally.append_empty _).symm, rfl⟩
  intro hcancellable
  show (s.session.cancelled || e.provider.cancelsAt (s.session.yielded + 1)) = false
  rw [hs.undisturbed hcancellable, he.silent hcancellable]
  rfl

theorem performs_checkCancelled : e.Performs e.checkCancelled {} (.ok ()) := by
  refine performs_get_bind fun s hs => ?_
  have hcalm : (e.cancellable && s.session.cancelled) = false := by
    cases hc : e.cancellable with
    | false => rfl
    | true => simpa using hs.undisturbed hc
  rw [hcalm]
  exact performs_pure _

/-- Opening a source performs what opening it first would. -/
theorem performs_openSource (triplesMap : String) {source : LogicalSource}
    (hreopens : ∀ opened, e.provider.openAfter opened source = e.provider.openAfter [] source) :
    e.Performs (Step.openSource e.provider triplesMap source) {}
      (match e.provider.openAfter [] source with
        | .ok items => .ok items
        | .error fault => .error (.ofError (.source triplesMap none fault))) := by
  intro s hs
  refine ⟨s.opening source, ⟨hs.undisturbed, hs.indexes⟩, (Tally.append_empty _).symm, ?_⟩
  rw [Step.openSource_apply, hreopens]
  cases e.provider.openAfter [] source <;> rfl

theorem performs_sourceOf {m : TriplesMap} {source : LogicalSource}
    (h : m.logicalSource = some source) : e.Performs (sourceOf m) {} (.ok source) := by
  rw [sourceOf, h]
  exact performs_pure _

theorem performs_subjectMapOf {m : TriplesMap} {subjectMap : SubjectMap}
    (h : m.subjectMap = some subjectMap) : e.Performs (subjectMapOf m) {} (.ok subjectMap) := by
  rw [subjectMapOf, h]
  exact performs_pure _

end Engine

end RdfMapping
