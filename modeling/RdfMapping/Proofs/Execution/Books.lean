/-
The books of a run.

A failure that is survived is entered twice: the log has a warning, and the report has a
diagnostic.  Diagnostics are collected in two places, those of the triples map that is being
executed and those of parents that are scanned in the meantime, and only later put into the
report.  An `Account` is what a stretch of a run enters into the log, together with the records
it counts and the sources it opens, and `RunState.Adds` says that the diagnostics collected on
the way are those that the log warns of, no more and no less.

`Step.Books` is the judgement on steps that carries this through the engine.  It has a relation
of states as a parameter, which may say more than `Adds` as long as it is closed under what
`Bookkeeping` asks for.  `Step.Tells` is the judgement for the steps within a record, which do
not count anything.
-/
import RdfMapping.Proofs.Execution.Landmarks

namespace RdfMapping

/-! ### Warnings -/

/-- The failure that an event warns of. -/
def Event.warning? : Event → Option Diagnostic
  | functionFailed iri n error => some ⟨iri, some n, .function error⟩
  | parentFailed iri n error => some ⟨iri, some n, .function error⟩
  | givenUp iri record error => some ⟨iri, record, error⟩
  | _ => none

/-- The events of the level for warnings are those that warn of a failure. -/
theorem Event.isSome_warning?_iff (event : Event) :
    event.warning?.isSome = true ↔ event.level = .warn := by
  cases event with
  | generation note => cases note <;> simp [warning?, level]
  | _ => simp [warning?, level]

/-- A warning shows its failure: whose it is, at which record, and the wording of the error.  Only
a triples map that is given up may be at no record, and so it is shown in another way there. -/
theorem Event.fields_eq_of_warning? {event : Event} {d : Diagnostic}
    (h : event.warning? = some d) : ∃ key ∈ ["triples_map", "parent"], ∃ record,
      (record = Event.recordText d.record ∨ d.record.map toString = some record) ∧
      event.fields = [(key, d.triplesMap), ("record", record), ("error", d.error.message)] := by
  cases event with
  | functionFailed iri n error =>
      cases h
      exact ⟨"triples_map", by simp, toString n, .inr rfl, rfl⟩
  | parentFailed iri n error =>
      cases h
      exact ⟨"parent", by simp, toString n, .inr rfl, rfl⟩
  | givenUp iri record error =>
      cases h
      exact ⟨"triples_map", by simp, Event.recordText record, .inl rfl, rfl⟩
  | _ => cases h

namespace TraceEntry

/-- Whether an entry is an event of the level for warnings. -/
def isWarning : TraceEntry → Bool
  | .logged event _ => event.level == .warn
  | .entered .. => false

/-- The failure that an entry warns of. -/
def warning? : TraceEntry → Option Diagnostic
  | .logged event _ => event.warning?
  | .entered .. => none

/-- The failure of a triples map that an entry warns of. -/
def failure? : TraceEntry → Option Diagnostic
  | .logged (.functionFailed iri n error) _ => some ⟨iri, some n, .function error⟩
  | _ => none

/-- The failure of a parent's subject that an entry warns of. -/
def parentFailure? : TraceEntry → Option Diagnostic
  | .logged (.parentFailed iri n error) _ => some ⟨iri, some n, .function error⟩
  | _ => none

/-- The failure that gave a triples map up. -/
def loss? : TraceEntry → Option Diagnostic
  | .logged (.givenUp iri record error) _ => some ⟨iri, record, error⟩
  | _ => none

end TraceEntry

/-- A stretch of a trace. -/
abbrev Log := List TraceEntry

namespace Log

/-- The failures that a log warns of. -/
def warnings (l : Log) : List Diagnostic := l.filterMap (·.warning?)

/-- The failures of triples maps that a log warns of. -/
def failures (l : Log) : List Diagnostic := l.filterMap (·.failure?)

/-- The failures of parents' subjects that a log warns of. -/
def parentFailures (l : Log) : List Diagnostic := l.filterMap (·.parentFailure?)

/-- The failures that gave triples maps up. -/
def losses (l : Log) : List Diagnostic := l.filterMap (·.loss?)

/-- The landmarks of a log. -/
def landmarks (l : Log) : List Landmark := l.filterMap (·.landmark?)

/-- The warnings are all events of their level, and each of them warns of a failure. -/
theorem map_warning?_filter (l : Log) :
    (l.filter (·.isWarning)).map (·.warning?) = (warnings l).map some := by
  induction l with
  | nil => rfl
  | cons entry l ih =>
      unfold warnings at ih ⊢
      cases entry with
      | entered span within => simpa [TraceEntry.isWarning, TraceEntry.warning?] using ih
      | logged event within =>
          have hlevel := event.isSome_warning?_iff
          rw [List.filter_cons, List.filterMap_cons, TraceEntry.isWarning, TraceEntry.warning?]
          cases hwarning : event.warning? with
          | none =>
              have hother : (event.level == .warn) = false := by simpa [hwarning] using hlevel
              rw [hother, if_neg Bool.false_ne_true]
              exact ih
          | some d =>
              have hwarn : (event.level == .warn) = true := by simpa [hwarning] using hlevel
              rw [hwarn, if_pos rfl, List.map_cons, List.map_cons, ← ih, TraceEntry.warning?,
                hwarning]

variable (l l' : Log)

@[simp] theorem warnings_append : warnings (l ++ l') = warnings l ++ warnings l' :=
  List.filterMap_append

@[simp] theorem failures_nil : failures [] = [] := rfl

@[simp] theorem failures_append : failures (l ++ l') = failures l ++ failures l' :=
  List.filterMap_append

@[simp] theorem parentFailures_append :
    parentFailures (l ++ l') = parentFailures l ++ parentFailures l' :=
  List.filterMap_append

@[simp] theorem losses_append : losses (l ++ l') = losses l ++ losses l' :=
  List.filterMap_append

@[simp] theorem landmarks_append : landmarks (l ++ l') = landmarks l ++ landmarks l' :=
  List.filterMap_append

/-- A warning is about a triples map, a parent's subject or a loss. -/
theorem warnings_perm :
    (warnings l).Perm (failures l ++ parentFailures l ++ losses l) := by
  induction l with
  | nil => exact .nil
  | cons entry l ih =>
      have hfirst : warnings [entry]
          = failures [entry] ++ parentFailures [entry] ++ losses [entry] := by
        cases entry with
        | entered span within => rfl
        | logged event within => cases event <;> rfl
      rw [← List.singleton_append, warnings_append, failures_append, parentFailures_append,
        losses_append, hfirst]
      refine (ih.append_left _).trans (List.perm_iff_count.mpr fun d => ?_)
      simp only [List.count_append]
      omega

end Log

/-! ### Accounts -/

/-- What a stretch of a run enters into the log, counts and opens. -/
structure Account where
  log : Log := []
  records : Nat := 0
  skippedRecords : Nat := 0
  opened : List LogicalSource := []

namespace Account

/-- One stretch after the other. -/
instance : Append Account where
  append a b := ⟨a.log ++ b.log, a.records + b.records, a.skippedRecords + b.skippedRecords,
    a.opened ++ b.opened⟩

variable (a b : Account)

@[simp] theorem log_append : (a ++ b).log = a.log ++ b.log := rfl

@[simp] theorem records_append : (a ++ b).records = a.records + b.records := rfl

@[simp] theorem skippedRecords_append :
    (a ++ b).skippedRecords = a.skippedRecords + b.skippedRecords := rfl

@[simp] theorem opened_append : (a ++ b).opened = a.opened ++ b.opened := rfl

@[simp] theorem empty_append : ({} : Account) ++ a = a := by
  change (⟨[] ++ a.log, 0 + a.records, 0 + a.skippedRecords, [] ++ a.opened⟩ : Account) = a
  rw [Nat.zero_add, Nat.zero_add]
  rfl

/-- Nothing happened that concerns parents. -/
structure Quiet (a : Account) : Prop where
  parentFailures : a.log.parentFailures = []
  landmarks : a.log.landmarks = []
  opened : a.opened = []

/-- The failures of the triples map are these, and no record was counted. -/
structure Lists (a : Account) (ds : List Diagnostic) : Prop where
  failures : a.log.failures = ds
  records : a.records = 0
  skippedRecords : a.skippedRecords = 0

theorem Quiet.nil : ({} : Account).Quiet := ⟨rfl, rfl, rfl⟩

theorem Lists.nil : ({} : Account).Lists [] := ⟨rfl, rfl, rfl⟩

variable {a b} {ds ds' : List Diagnostic}

theorem Lists.append (h : a.Lists ds) (h' : b.Lists ds') : (a ++ b).Lists (ds ++ ds') where
  failures := by rw [log_append, Log.failures_append, h.failures, h'.failures]
  records := by rw [records_append, h.records, h'.records]
  skippedRecords := by rw [skippedRecords_append, h.skippedRecords, h'.skippedRecords]

end Account

/-- From one state to the other the account was added: what the log warns of is what was put
among the diagnostics. -/
structure RunState.Adds (s s' : RunState) (a : Account) : Prop where
  trace : s'.trace.toList = s.trace.toList ++ a.log
  span : s'.span = s.span
  diagnostics :
    s'.progress.diagnostics.toList = s.progress.diagnostics.toList ++ a.log.failures
  parentDiagnostics :
    s'.parentDiagnostics.toList = s.parentDiagnostics.toList ++ a.log.parentFailures
  losses : a.log.losses = []
  records : s'.progress.records = s.progress.records + a.records
  skippedRecords : s'.progress.skippedRecords = s.progress.skippedRecords + a.skippedRecords
  opened : s'.session.opened = s.session.opened ++ a.opened

theorem RunState.Adds.trans {s s₁ s₂ : RunState} {a b : Account} (h : s.Adds s₁ a)
    (h' : s₁.Adds s₂ b) : s.Adds s₂ (a ++ b) where
  trace := by simp [h'.trace, h.trace]
  span := h'.span.trans h.span
  diagnostics := by simp [h'.diagnostics, h.diagnostics]
  parentDiagnostics := by simp [h'.parentDiagnostics, h.parentDiagnostics]
  losses := by simp [h.losses, h'.losses]
  records := by simp [h'.records, h.records, Nat.add_assoc]
  skippedRecords := by simp [h'.skippedRecords, h.skippedRecords, Nat.add_assoc]
  opened := by simp [h'.opened, h.opened]

/-- Nothing to speak of happened. -/
theorem RunState.adds_of_same {s s' : RunState} (htrace : s'.trace = s.trace)
    (hspan : s'.span = s.span) (hdiagnostics : s'.progress.diagnostics = s.progress.diagnostics)
    (hparents : s'.parentDiagnostics = s.parentDiagnostics)
    (hrecords : s'.progress.records = s.progress.records)
    (hskipped : s'.progress.skippedRecords = s.progress.skippedRecords)
    (hopened : s'.session.opened = s.session.opened) : s.Adds s' {} := by
  constructor <;> simp [*, Log.failures, Log.parentFailures, Log.losses]

/-- What is entered when a span is entered and a source opened in it. -/
def Account.opening (span : Span) (outer : Option Span) (source : LogicalSource) : Account :=
  { log := [.entered span outer], opened := [source] }

/-- A span that is left again, with the opening of a source in it. -/
theorem RunState.Adds.inSpan {s s₁ : RunState} {span : Span} {source : LogicalSource} {a : Account}
    (h : ((s.entering span).opening source).Adds s₁ a) :
    s.Adds { s₁ with span := s.span } (Account.opening span s.span source ++ a) where
  trace := by simpa [RunState.entering, RunState.opening, Account.opening] using h.trace
  span := rfl
  diagnostics := h.diagnostics
  parentDiagnostics := h.parentDiagnostics
  losses := h.losses
  records := h.records.trans (congrArg _ (Nat.zero_add _).symm)
  skippedRecords := h.skippedRecords.trans (congrArg _ (Nat.zero_add _).symm)
  opened := by simpa [RunState.entering, RunState.opening, Account.opening] using h.opened

theorem RunState.Adds.refl (s : RunState) : s.Adds s {} :=
  RunState.adds_of_same rfl rfl rfl rfl rfl rfl rfl

/-! ### Steps that keep books -/

/-- A relation of states that says no more than can be put together from stretch to stretch.  The
last argument is the error that the second stretch ends in, if it does. -/
structure Bookkeeping (R : RunState → RunState → Account → Option Error → Prop) : Prop where
  quiet : ∀ {s s' : RunState} {a : Account}, s.Adds s' a → a.Quiet → ∀ ended, R s s' a ended
  trans : ∀ {s s₁ s₂ : RunState} {a b : Account} {ended : Option Error},
    R s s₁ a none → R s₁ s₂ b ended → R s s₂ (a ++ b) ended

/-- Nothing happened, whatever comes of it. -/
theorem Bookkeeping.refl {R : RunState → RunState → Account → Option Error → Prop}
    (hR : Bookkeeping R) (s : RunState) (ended : Option Error) : R s s {} ended :=
  hR.quiet (.refl s) .nil ended

namespace Step

/-- The step takes a state to another one in the relation, with an account that is as said of its
value or of the error it ends in. -/
def Books {α : Type} (R : RunState → RunState → Account → Option Error → Prop) (step : Step α)
    (post : α → Account → Prop) (fails : Error → Account → Prop) : Prop :=
  ∀ s, match step s with
    | .ok x s' => ∃ a, R s s' a none ∧ post x a
    | .error failure s' => ∃ a, R s s' a (some failure.error) ∧ fails failure.error a

/-- The step is one within a record, and what is said of its value or error is said with the
failures that are listed. -/
def Tells {α : Type} (R : RunState → RunState → Account → Option Error → Prop) (step : Step α)
    (post : α → List Diagnostic → Prop) (fails : Error → List Diagnostic → Prop) : Prop :=
  Books R step (fun x a => ∃ ds, a.Lists ds ∧ post x ds)
    fun error a => ∃ ds, a.Lists ds ∧ fails error ds

/-- The step is one within a record that cannot fail, with this value and these failures listed. -/
def Lists {α : Type} (R : RunState → RunState → Account → Option Error → Prop) (step : Step α)
    (x : α) (ds : List Diagnostic) : Prop :=
  Tells R step (fun y ds' => y = x ∧ ds' = ds) fun _ _ => False

variable {R : RunState → RunState → Account → Option Error → Prop} {α β : Type}
  {post : α → Account → Prop} {fails : Error → Account → Prop}

theorem Books.mono {step : Step α} (h : Books R step post fails) {post' : α → Account → Prop}
    {fails' : Error → Account → Prop} (hpost : ∀ x a, post x a → post' x a)
    (hfails : ∀ error a, fails error a → fails' error a) : Books R step post' fails' := by
  intro s
  have hstep := h s
  cases hrun : step s with
  | ok x s' =>
      rw [hrun] at hstep
      obtain ⟨a, ha, hx⟩ := hstep
      exact ⟨a, ha, hpost x a hx⟩
  | error failure s' =>
      rw [hrun] at hstep
      obtain ⟨a, ha, herror⟩ := hstep
      exact ⟨a, ha, hfails _ a herror⟩

theorem Tells.mono {step : Step α} {post post' : α → List Diagnostic → Prop}
    {fails fails' : Error → List Diagnostic → Prop} (h : Tells R step post fails)
    (hpost : ∀ x ds, post x ds → post' x ds)
    (hfails : ∀ error ds, fails error ds → fails' error ds) : Tells R step post' fails' :=
  Books.mono h (fun x _ ⟨ds, hds, hx⟩ => ⟨ds, hds, hpost x ds hx⟩)
    fun error _ ⟨ds, hds, herror⟩ => ⟨ds, hds, hfails error ds herror⟩

theorem Lists.tells {step : Step α} {x : α} {ds : List Diagnostic}
    {post : α → List Diagnostic → Prop} {fails : Error → List Diagnostic → Prop}
    (h : Lists R step x ds) (hpost : post x ds) : Tells R step post fails := by
  refine Tells.mono h ?_ fun _ _ => False.elim
  rintro _ _ ⟨rfl, rfl⟩
  exact hpost

section Rules

variable (hR : Bookkeeping R)

include hR

theorem books_pure {x : α} (h : post x {}) : Books R (pure x) post fails :=
  fun s => ⟨{}, hR.refl s none, h⟩

theorem books_throw {failure : Failure} (h : fails failure.error {}) :
    Books R (throw failure : Step α) post fails :=
  fun s => ⟨{}, hR.refl s _, h⟩

theorem books_bind {x : Step α} {f : α → Step β} {post' : β → Account → Prop}
    {first : Error → Account → Prop} (hx : Books R x post first)
    (hf : ∀ v a, post v a →
      Books R (f v) (fun w b => post' w (a ++ b)) fun error b => fails error (a ++ b))
    (hfirst : ∀ error a, first error a → fails error a) :
    Books R (x >>= f) post' fails := by
  intro s
  have hstep := hx s
  rw [bind_apply]
  cases hrun : x s with
  | error failure s₁ =>
      rw [hrun] at hstep
      obtain ⟨a, ha, herror⟩ := hstep
      exact ⟨a, ha, hfirst _ a herror⟩
  | ok v s₁ =>
      rw [hrun] at hstep
      obtain ⟨a, ha, hv⟩ := hstep
      have hnext := hf v a hv s₁
      dsimp only
      cases hrun' : f v s₁ with
      | error failure s₂ =>
          rw [hrun'] at hnext
          obtain ⟨b, hb, herror⟩ := hnext
          exact ⟨a ++ b, hR.trans ha hb, herror⟩
      | ok w s₂ =>
          rw [hrun'] at hnext
          obtain ⟨b, hb, hw⟩ := hnext
          exact ⟨a ++ b, hR.trans ha hb, hw⟩

/-! ### Steps within a record -/

theorem tells_pure {post : α → List Diagnostic → Prop} {fails : Error → List Diagnostic → Prop}
    {x : α} (h : post x []) : Tells R (pure x) post fails :=
  books_pure hR ⟨[], .nil, h⟩

theorem tells_bind {x : Step α} {f : α → Step β} {post : α → List Diagnostic → Prop}
    {post' : β → List Diagnostic → Prop} {first fails : Error → List Diagnostic → Prop}
    (hx : Tells R x post first)
    (hf : ∀ v ds, post v ds →
      Tells R (f v) (fun w ds' => post' w (ds ++ ds')) fun error ds' => fails error (ds ++ ds'))
    (hfirst : ∀ error ds, first error ds → fails error ds) :
    Tells R (x >>= f) post' fails := by
  refine books_bind hR hx ?_ fun error a herror => ?_
  · rintro v a ⟨ds, hds, hv⟩
    refine Books.mono (hf v ds hv) ?_ ?_
    · rintro w b ⟨ds', hds', hw⟩
      exact ⟨ds ++ ds', hds.append hds', hw⟩
    · rintro error b ⟨ds', hds', herror⟩
      exact ⟨ds ++ ds', hds.append hds', herror⟩
  · obtain ⟨ds, hds, herror⟩ := herror
    exact ⟨ds, hds, hfirst error ds herror⟩

theorem lists_pure (x : α) : Lists R (pure x) x [] :=
  tells_pure hR ⟨rfl, rfl⟩

/-- A step that cannot fail goes first. -/
theorem lists_bind_tells {x : Step α} {f : α → Step β} {v : α} {ds : List Diagnostic}
    {post : β → List Diagnostic → Prop} {fails : Error → List Diagnostic → Prop}
    (hx : Lists R x v ds)
    (hf : Tells R (f v) (fun w ds' => post w (ds ++ ds'))
      fun error ds' => fails error (ds ++ ds')) :
    Tells R (x >>= f) post fails := by
  refine tells_bind hR hx ?_ fun _ _ => False.elim
  rintro _ _ ⟨rfl, rfl⟩
  exact hf

theorem lists_bind_books {x : Step α} {f : α → Step β} {v : α} {ds : List Diagnostic}
    {post : β → Account → Prop} (hx : Lists R x v ds)
    (hf : ∀ a : Account, a.Lists ds →
      Books R (f v) (fun w b => post w (a ++ b)) fun error b => fails error (a ++ b)) :
    Books R (x >>= f) post fails := by
  have htells : Tells R x (fun y ds' => y = v ∧ ds' = ds) fun _ _ => False := hx
  refine books_bind hR htells ?_ ?_
  · rintro _ a ⟨_, hlists, rfl, rfl⟩
    exact hf a hlists
  · rintro error a ⟨ds, -, hfalse⟩
    exact hfalse.elim

theorem lists_bind {x : Step α} {f : α → Step β} {v : α} {w : β} {ds ds' : List Diagnostic}
    (hx : Lists R x v ds) (hf : Lists R (f v) w ds') : Lists R (x >>= f) w (ds ++ ds') :=
  lists_bind_tells hR hx (hf.tells ⟨rfl, rfl⟩)

theorem lists_bind_pure {x : Step α} {v : α} {ds : List Diagnostic} (hx : Lists R x v ds)
    (g : α → β) : Lists R (x >>= fun v => pure (g v)) (g v) ds :=
  lists_bind_tells hR hx (tells_pure hR ⟨rfl, List.append_nil ds⟩)

theorem lists_forM {f : α → Step Unit} (as : List α) (h : ∀ a ∈ as, Lists R (f a) () []) :
    Lists R (as.forM f) () [] := by
  induction as with
  | nil => exact lists_pure hR ()
  | cons a as ih =>
      rw [List.forM]
      exact lists_bind hR (h a (by simp)) (ih fun b hb => h b (by simp [hb]))

/-! ### Elementary steps -/

/-- A change of the state that has nothing to do with the books. -/
theorem lists_modify {f : RunState → RunState} (h : ∀ s : RunState, s.Adds (f s) {}) :
    Lists R (modify f) () [] :=
  fun s => ⟨{}, hR.quiet (h s) .nil none, [], .nil, rfl, rfl⟩

/-- An event that is neither a warning nor a landmark. -/
theorem lists_log {event : Event} (hwarning : event.warning? = none)
    (hlandmark : ∀ span, (TraceEntry.logged event span).landmark? = none) :
    Lists R (log event) () [] := by
  intro s
  have hfailure : (TraceEntry.logged event s.span).failure? = none := by
    cases event <;> simp_all [Event.warning?, TraceEntry.failure?]
  have hparent : (TraceEntry.logged event s.span).parentFailure? = none := by
    cases event <;> simp_all [Event.warning?, TraceEntry.parentFailure?]
  have hloss : (TraceEntry.logged event s.span).loss? = none := by
    cases event <;> simp_all [Event.warning?, TraceEntry.loss?]
  refine ⟨{ log := [.logged event s.span] }, hR.quiet ?_ ?_ none, [], ?_, rfl, rfl⟩
  · constructor <;> simp [Log.failures, Log.parentFailures, Log.losses, *]
  · constructor <;> simp [Log.parentFailures, Log.landmarks, *]
  · constructor <;> simp [Log.failures, *]

omit hR in
/-- What is done with the state as it is. -/
theorem lists_get {f : RunState → Step α} {x : α} {ds : List Diagnostic}
    (h : ∀ s, Lists R (f s) x ds) : Lists R (get >>= f) x ds :=
  fun s => h s s

theorem lists_absorb (iri : String) (n : Nat) (error : FunctionError) :
    Lists R (absorb iri n error) () [⟨iri, some n, .function error⟩] := by
  intro s
  refine ⟨{ log := [.logged (.functionFailed iri n error) s.span] }, hR.quiet ?_ ?_ none,
    [⟨iri, some n, .function error⟩], ?_, rfl, rfl⟩
  · constructor <;> simp [Log.failures, Log.parentFailures, Log.losses, TraceEntry.failure?,
      TraceEntry.parentFailure?, TraceEntry.loss?]
  · constructor <;> rfl
  · constructor <;> rfl

theorem lists_emit (quads : List Quad) : Lists R (emit quads) () [] :=
  lists_modify hR fun _ => RunState.adds_of_same rfl rfl rfl rfl rfl rfl rfl

theorem books_countRecord :
    Books R countRecord (fun _ a => a = { records := 1 }) fun _ _ => False := by
  intro s
  have hcounted : s.Adds
      { s with progress := { s.progress with records := s.progress.records + 1 } }
      { records := 1 } := by
    constructor <;> simp [Log.failures, Log.parentFailures, Log.losses]
  exact ⟨_, hR.quiet hcounted ⟨rfl, rfl, rfl⟩ none, rfl⟩

theorem books_countSkipped :
    Books R countSkipped (fun _ a => a = { skippedRecords := 1 }) fun _ _ => False := by
  intro s
  have hcounted : s.Adds
      { s with progress := { s.progress with skippedRecords := s.progress.skippedRecords + 1 } }
      { skippedRecords := 1 } := by
    constructor <;> simp [Log.failures, Log.parentFailures, Log.losses]
  exact ⟨_, hR.quiet hcounted ⟨rfl, rfl, rfl⟩ none, rfl⟩

theorem books_receive (p : Provider) :
    Books R (receive p) (fun _ a => a = {}) fun _ _ => False := by
  intro s
  have hnothing : s.Adds (s.received p) {} := RunState.adds_of_same rfl rfl rfl rfl rfl rfl rfl
  exact ⟨{}, hR.quiet hnothing .nil none, rfl⟩

end Rules

end Step

namespace Engine

open Step

variable {R : RunState → RunState → Account → Option Error → Prop} (hR : Bookkeeping R)
  (e : Engine) {α : Type}

/-- The failure of a result is listed for the record that it happened at. -/
def Site.noted (site : Site) : Except FunctionError (List Term) → List Diagnostic
  | .ok _ => []
  | .error error => [⟨site.triplesMap.iri, some site.position, .function error⟩]

/-- The failures of term maps at a record. -/
def failuresOf (site : Site) (ms : List TermMap) : List Diagnostic :=
  ms.flatMap fun m => site.noted (e.generator.terms m site.record site.scope)

include hR

theorem lists_evaluate (m : TermMap) (record : Record) (scope : String) :
    Lists R (e.evaluate m record scope) (e.generator.terms m record scope) [] :=
  lists_bind hR (lists_forM hR _ fun _ _ => lists_log hR rfl fun _ => rfl)
    (lists_pure hR _)

theorem lists_survive (site : Site) (result : Except FunctionError (List Term)) :
    Lists R (survive site result) (orNone result) (site.noted result) := by
  cases result with
  | ok terms => exact lists_pure hR terms
  | error error => exact lists_bind hR (lists_absorb hR _ _ error) (lists_pure hR [])

theorem lists_termsAt (site : Site) (m : TermMap) :
    Lists R (e.termsAt site m) (orNone (e.generator.terms m site.record site.scope))
      (site.noted (e.generator.terms m site.record site.scope)) :=
  lists_bind hR (e.lists_evaluate hR m site.record site.scope) (lists_survive hR site _)

theorem lists_allTermsAt (site : Site) (ms : List TermMap) :
    Lists R (e.allTermsAt site ms) (e.termsOf site ms) (e.failuresOf site ms) := by
  induction ms with
  | nil => exact lists_pure hR []
  | cons m ms ih =>
      exact lists_bind hR (e.lists_termsAt hR site m)
        (lists_bind_pure hR ih (orNone (e.generator.terms m site.record site.scope) ++ ·))

theorem lists_addGraphsAt (site : Site) (graphs : List (Option Term)) (ms : List TermMap) :
    Lists R (e.addGraphsAt site graphs ms) (addGraphs graphs (e.termsOf site ms))
      (e.failuresOf site ms) :=
  lists_bind_pure hR (e.lists_allTermsAt hR site ms) (addGraphs graphs)

theorem books_checkCancelled :
    Books R e.checkCancelled (fun _ a => a = {}) fun error a => error = .cancelled ∧ a = {} := by
  intro s
  rw [checkCancelled_apply]
  by_cases hup : (e.cancellable && s.session.cancelled) = true
  · rw [if_pos hup]
    exact ⟨{}, hR.refl s _, rfl, rfl⟩
  · rw [if_neg hup]
    exact ⟨{}, hR.refl s _, rfl⟩

/-- Going through items enters what the visits of the records enter, up to the item where it ends:
because of the signal, because the item cannot be read, or because the visit fails. -/
theorem books_scan (iri : String) {visit : α → Nat → Record → Step α}
    {visits : Nat → Record → Account → Prop} (post : Nat → List Item → Account → Prop)
    (fails : Nat → List Item → Error → Account → Prop)
    (hvisit : ∀ x n record items, Books R (visit x n record) (fun _ a => visits n record a)
      (fails n (.ok record :: items)))
    (hnil : ∀ n, post n [] {})
    (hcancelled : ∀ n item items, fails n (item :: items) .cancelled {})
    (hfault : ∀ n fault items, fails n (.error fault :: items) (.source iri (some n) fault) {})
    (hcons : ∀ n record items a b, visits n record a → post (n + 1) items b →
      post n (.ok record :: items) (a ++ b))
    (hlater : ∀ n record items error a b, visits n record a → fails (n + 1) items error b →
      fails n (.ok record :: items) error (a ++ b)) (items : List Item) :
    ∀ n x, Books R (e.scan iri visit n x items) (fun _ a => post n items a) (fails n items) := by
  induction items with
  | nil => intro n x; exact books_pure hR (hnil n)
  | cons item items ih =>
      intro n x
      refine books_bind hR (books_receive hR e.provider) ?_ fun _ _ => False.elim
      rintro _ _ rfl
      simp only [Account.empty_append]
      refine books_bind hR (e.books_checkCancelled hR) ?_ ?_
      · rintro _ _ rfl
        simp only [Account.empty_append]
        cases item with
        | error fault => exact books_throw hR (hfault n fault items)
        | ok record =>
            refine books_bind hR (hvisit x n record items) ?_ fun _ _ => id
            intro y a ha
            exact (ih (n + 1) y).mono (fun _ b => hcons n record items a b ha)
              fun error b => hlater n record items error a b ha
      · rintro _ _ ⟨rfl, rfl⟩
        exact hcancelled n item items

end Engine

end RdfMapping
