/-
Steps that heed the cancellation signal and steps that do not.

The signal may go up at any time; the engine looks at it whenever an item has been handed
out, to a triples map or to the scan of a parent, and at no other time.  So all that matters
about a time is which item is the first one after it.  `Session.Signalled` says whether the
signal is up when an item has been handed out.

`Shadows` relates a step to the same step without signal.  If no item is handed out with the
signal up, the two do the same; otherwise the one ends with the first such item, while the
other may go on.  The rules put this together along the structure of a step: the first such
item falls into one of two steps in a row.
-/
import Mathlib.Data.Nat.Find
import RdfMapping.Proofs.Execution.Steps

namespace RdfMapping

/-! ### The signal -/

namespace Session

variable {p : Provider} {t u v : Session}

/-- Whether the signal is up when the `n`-th item has been handed out, in what follows a session.
A time between two items at which the signal goes up counts as the time of the second one. -/
def Signalled (t : Session) (p : Provider) (n : Nat) : Prop :=
  t.cancelled = true ∨ ∃ k, t.yielded < k ∧ k ≤ n ∧ p.cancelsAt k = true

/-- The session may be followed by the other one, items being handed out in between. -/
structure Follows (t : Session) (p : Provider) (u : Session) : Prop where
  yielded : t.yielded ≤ u.yielded
  cancelled : u.cancelled = true ↔ t.Signalled p u.yielded

theorem Follows.of_eq (hyielded : u.yielded = t.yielded) (hcancelled : u.cancelled = t.cancelled) :
    t.Follows p u := by
  refine ⟨Nat.le_of_eq hyielded.symm, ?_⟩
  rw [hcancelled, hyielded]
  constructor
  · exact .inl
  · rintro (h | ⟨k, hlt, hle, -⟩)
    · exact h
    · omega

/-- What happened in between is in the later session. -/
theorem Follows.signalled_iff (h : t.Follows p u) {n : Nat} (hn : u.yielded ≤ n) :
    u.Signalled p n ↔ t.Signalled p n := by
  have hyielded := h.yielded
  constructor
  · rintro (hup | ⟨k, hlt, hle, hk⟩)
    · rcases h.cancelled.mp hup with hstart | ⟨k, hlt, hle, hk⟩
      · exact .inl hstart
      · exact .inr ⟨k, hlt, by omega, hk⟩
    · exact .inr ⟨k, by omega, hle, hk⟩
  · rintro (hstart | ⟨k, hlt, hle, hk⟩)
    · exact .inl (h.cancelled.mpr (.inl hstart))
    · by_cases hbefore : k ≤ u.yielded
      · exact .inl (h.cancelled.mpr (.inr ⟨k, hlt, hbefore, hk⟩))
      · exact .inr ⟨k, by omega, hle, hk⟩

theorem Follows.trans (htu : t.Follows p u) (huv : u.Follows p v) : t.Follows p v :=
  ⟨Nat.le_trans htu.yielded huv.yielded,
    huv.cancelled.trans (htu.signalled_iff huv.yielded)⟩

theorem follows_received (t : Session) (p : Provider) : t.Follows p (t.received p) := by
  refine ⟨Nat.le_succ _, ?_⟩
  rw [received, Bool.or_eq_true]
  constructor
  · rintro (hup | hraised)
    · exact .inl hup
    · exact .inr ⟨t.yielded + 1, Nat.lt_succ_self _, Nat.le_refl _, hraised⟩
  · rintro (hup | ⟨k, hlt, hle, hraised⟩)
    · exact .inl hup
    · obtain rfl : k = t.yielded + 1 := Nat.le_antisymm hle hlt
      exact .inr hraised

/-- The first item that is handed out with the signal up. -/
structure Stops (t : Session) (p : Provider) (n : Nat) : Prop where
  fresh : t.yielded < n
  signalled : t.Signalled p n
  first : ∀ k, t.yielded < k → k < n → ¬ t.Signalled p k

theorem Stops.of_follows {n : Nat} (h : t.Stops p n) (htu : t.Follows p u) (hn : u.yielded < n) :
    u.Stops p n where
  fresh := hn
  signalled := (htu.signalled_iff (Nat.le_of_lt hn)).mpr h.signalled
  first := by
    intro k hlt hk hup
    have hyielded := htu.yielded
    exact h.first k (by omega) hk ((htu.signalled_iff (Nat.le_of_lt hlt)).mp hup)

theorem Stops.unique {n k : Nat} (hn : t.Stops p n) (hk : t.Stops p k) : n = k := by
  rcases Nat.lt_trichotomy n k with hlt | heq | hlt
  · exact absurd hn.signalled (hk.first n hn.fresh hlt)
  · exact heq
  · exact absurd hk.signalled (hn.first k hk.fresh hlt)

/-- If an item is handed out with the signal up then there is a first one. -/
theorem exists_stops {n : Nat} (hlt : t.yielded < n) (hup : t.Signalled p n) :
    ∃ k, k ≤ n ∧ t.Stops p k := by
  classical
  have hexists : ∃ k, t.yielded < k ∧ t.Signalled p k := ⟨n, hlt, hup⟩
  obtain ⟨hfresh, hsignalled⟩ := Nat.find_spec hexists
  refine ⟨Nat.find hexists, Nat.find_min' hexists ⟨hlt, hup⟩, hfresh, hsignalled, ?_⟩
  intro k hk hbefore hupk
  exact Nat.find_min hexists hbefore ⟨hk, hupk⟩

end Session

/-! ### Steps with and without signal -/

variable {α β : Type} {p : Provider}

/-- The state that a step leaves behind. -/
def Step.after (step : Step α) (s : RunState) : RunState :=
  match step s with
  | .ok _ s' => s'
  | .error _ s' => s'

theorem Step.after_of_eq_ok {step : Step α} {s s' : RunState} {a : α} (h : step s = .ok a s') :
    step.after s = s' := by
  rw [after, h]

theorem Step.after_of_eq_error {step : Step α} {s s' : RunState} {failure : Failure}
    (h : step s = .error failure s') : step.after s = s' := by
  rw [after, h]

/-- The first step does what the second one does, but ends with the first item that is handed out
with the signal up. -/
structure Shadows (p : Provider) (heeding free : Step α) : Prop where
  follows : ∀ s : RunState, s.session.Follows p (free.after s).session
  same : ∀ s : RunState, (∀ n, s.session.yielded < n → n ≤ (free.after s).session.yielded →
    ¬ s.session.Signalled p n) → heeding s = free s
  stops : ∀ (s : RunState) n, s.session.Stops p n → n ≤ (free.after s).session.yielded →
    ∃ s', heeding s = .error ⟨none, .cancelled⟩ s' ∧ s'.session.yielded = n

/-- A step that succeeds although it heeds the signal does the same without. -/
theorem Shadows.eq_ok {heeding free : Step α} (h : Shadows p heeding free) {s s' : RunState}
    {a : α} (hok : heeding s = .ok a s') : free s = .ok a s' := by
  rw [← hok]
  refine (h.same s fun n hlt hle hup => ?_).symm
  obtain ⟨k, hk, hstops⟩ := Session.exists_stops hlt hup
  obtain ⟨s₁, hcancelled, -⟩ := h.stops s k hstops (Nat.le_trans hk hle)
  rw [hok] at hcancelled
  cases hcancelled

/-- A step that hands out nothing has nothing to heed. -/
theorem shadows_self {step : Step α}
    (h : ∀ s : RunState, (step.after s).session.yielded = s.session.yielded ∧
      (step.after s).session.cancelled = s.session.cancelled) : Shadows p step step where
  follows s := .of_eq (h s).1 (h s).2
  same _ _ := rfl
  stops s n hstops hn := by
    have hfresh := hstops.fresh
    rw [(h s).1] at hn
    omega

theorem shadows_pure (a : α) : Shadows p (pure a) (pure a) :=
  shadows_self fun _ => ⟨rfl, rfl⟩

theorem shadows_throw (failure : Failure) :
    Shadows p (throw failure : Step α) (throw failure) :=
  shadows_self fun _ => ⟨rfl, rfl⟩

theorem shadows_modify {f : RunState → RunState} (h : ∀ s, (f s).session = s.session) :
    Shadows p (modify f) (modify f) :=
  shadows_self fun s => ⟨congrArg Session.yielded (h s), congrArg Session.cancelled (h s)⟩

/-- The first item with the signal up falls into one of the two steps. -/
theorem shadows_bind {x x' : Step α} {f f' : α → Step β} (hx : Shadows p x x')
    (hf : ∀ a, Shadows p (f a) (f' a)) : Shadows p (x >>= f) (x' >>= f') := by
  have hafter : ∀ s, (x' >>= f' : Step β).after s = match x' s with
      | .ok a s₁ => (f' a).after s₁
      | .error _ s₁ => s₁ := by
    intro s
    rw [Step.after, Step.bind_apply]
    cases x' s <;> rfl
  refine ⟨fun s => ?_, fun s hquiet => ?_, fun s n hstops hn => ?_⟩
  · have hfirst := hx.follows s
    rw [hafter]
    cases hrun : x' s with
    | error failure s₁ => rwa [Step.after_of_eq_error hrun] at hfirst
    | ok a s₁ =>
        rw [Step.after_of_eq_ok hrun] at hfirst
        exact hfirst.trans ((hf a).follows s₁)
  · have hfirst := hx.follows s
    have hsame := hx.same s
    rw [hafter] at hquiet
    rw [Step.bind_apply, Step.bind_apply]
    cases hrun : x' s with
    | error failure s₁ =>
        rw [Step.after_of_eq_error hrun] at hsame
        rw [hrun] at hquiet
        rw [hsame hquiet, hrun]
    | ok a s₁ =>
        rw [Step.after_of_eq_ok hrun] at hfirst hsame
        rw [hrun] at hquiet
        have hyielded := hfirst.yielded
        have hyielded' := ((hf a).follows s₁).yielded
        rw [hsame fun n hlt hle => hquiet n hlt (by dsimp only; omega), hrun]
        refine (hf a).same s₁ fun n hlt hle hup => ?_
        exact hquiet n (by omega) hle ((hfirst.signalled_iff (Nat.le_of_lt hlt)).mp hup)
  · have hfirst := hx.follows s
    have hsame := hx.same s
    have hstop := hx.stops s n hstops
    rw [hafter] at hn
    rw [Step.bind_apply]
    cases hrun : x' s with
    | error failure s₁ =>
        rw [Step.after_of_eq_error hrun] at hstop
        rw [hrun] at hn
        obtain ⟨s₂, hend, hyielded⟩ := hstop hn
        exact ⟨s₂, by rw [hend], hyielded⟩
    | ok a s₁ =>
        rw [Step.after_of_eq_ok hrun] at hfirst hsame hstop
        rw [hrun] at hn
        -- The item falls into the first step; or that one is quiet, and the second one meets it.
        by_cases hearly : n ≤ s₁.session.yielded
        · obtain ⟨s₂, hend, hyielded⟩ := hstop hearly
          exact ⟨s₂, by rw [hend], hyielded⟩
        · have hlate : s₁.session.yielded < n := by omega
          rw [hsame fun k hlt hle => hstops.first k hlt (by omega), hrun]
          exact (hf a).stops s₁ n (hstops.of_follows hfirst hlate) hn

theorem shadows_get_bind {f f' : RunState → Step α} (h : ∀ s, Shadows p (f s) (f' s)) :
    Shadows p (get >>= f) (get >>= f') where
  follows s := (h s).follows s
  same s := (h s).same s
  stops s := (h s).stops s

theorem shadows_forM {f f' : α → Step Unit} (as : List α) (h : ∀ a, Shadows p (f a) (f' a)) :
    Shadows p (as.forM f) (as.forM f') := by
  induction as with
  | nil => exact shadows_pure ()
  | cons a as ih => exact shadows_bind (h a) fun _ => ih

theorem shadows_inSpan {step step' : Step α} (span : Span) (h : Shadows p step step') :
    Shadows p (Step.inSpan span step) (Step.inSpan span step') := by
  have hafter : ∀ s : RunState, ((Step.inSpan span step').after s).session
      = (step'.after (s.entering span)).session := by
    intro s
    rw [Step.after, Step.after, Step.inSpan_apply]
    cases step' (s.entering span) <;> rfl
  refine ⟨fun s => ?_, fun s hquiet => ?_, fun s n hstops hn => ?_⟩
  · rw [hafter]
    exact h.follows (s.entering span)
  · rw [hafter] at hquiet
    rw [Step.inSpan_apply, Step.inSpan_apply, h.same (s.entering span) hquiet]
  · rw [hafter] at hn
    obtain ⟨s', hend, hyielded⟩ := h.stops (s.entering span) n hstops hn
    rw [Step.inSpan_apply, hend]
    exact ⟨_, rfl, hyielded⟩

end RdfMapping
