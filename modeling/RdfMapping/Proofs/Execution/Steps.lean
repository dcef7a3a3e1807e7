/-
What steps make of a state.

A step is a function of the state of a run.  The equations here say what the elementary steps
and the ways to put steps together make of a state, so that a judgement about steps can be
proved without looking into them.
-/
import RdfMapping.Execution.Run

namespace RdfMapping

/-! ### States -/

/-- The session after another item has been handed out. -/
def Session.received (t : Session) (p : Provider) : Session :=
  { t with yielded := t.yielded + 1, cancelled := t.cancelled || p.cancelsAt (t.yielded + 1) }

/-- The state after another item has been handed out. -/
def RunState.received (s : RunState) (p : Provider) : RunState :=
  { s with session := s.session.received p }

/-- The state after a source was opened or failed to open. -/
def RunState.opening (s : RunState) (source : LogicalSource) : RunState :=
  { s with session := { s.session with opened := s.session.opened ++ [source] } }

/-- The state inside a span. -/
def RunState.entering (s : RunState) (span : Span) : RunState :=
  { s with trace := s.trace.push (.entered span s.span), span := some span }

/-! ### Elementary steps -/

namespace Step

variable {α β : Type}

theorem bind_apply (x : Step α) (f : α → Step β) (s : RunState) :
    (x >>= f) s = match x s with
      | .ok a s' => f a s'
      | .error failure s' => .error failure s' := by
  show EStateM.bind x f s = _
  rw [EStateM.bind]
  cases x s <;> rfl

theorem get_apply (s : RunState) : (get : Step RunState) s = .ok s s :=
  rfl

theorem set_apply (s s' : RunState) : (set s' : Step PUnit) s = .ok ⟨⟩ s' :=
  rfl

theorem modify_apply (f : RunState → RunState) (s : RunState) :
    (modify f : Step PUnit) s = .ok ⟨⟩ (f s) :=
  rfl

theorem inSpan_apply (span : Span) (step : Step α) (s : RunState) :
    inSpan span step s = match step (s.entering span) with
      | .ok a s' => .ok a { s' with span := s.span }
      | .error failure s' => .error failure { s' with span := s.span } :=
  rfl

theorem receive_apply (p : Provider) (s : RunState) : receive p s = .ok () (s.received p) :=
  rfl

theorem openSource_apply (p : Provider) (iri : String) (source : LogicalSource) (s : RunState) :
    openSource p iri source s = match p.openAfter s.session.opened source with
      | .ok items => .ok items (s.opening source)
      | .error fault => .error ⟨none, .source iri none fault⟩ (s.opening source) := by
  unfold openSource
  rw [bind_apply, get_apply]
  dsimp only
  rw [bind_apply, modify_apply]
  dsimp only
  cases p.openAfter s.session.opened source <;> rfl

end Step

/-! ### Steps of the engine -/

namespace Engine

theorem checkCancelled_apply (e : Engine) (s : RunState) :
    e.checkCancelled s
      = if (e.cancellable && s.session.cancelled) = true then .error ⟨none, .cancelled⟩ s
        else .ok () s := by
  unfold checkCancelled
  rw [Step.bind_apply, Step.get_apply]
  dsimp only
  by_cases hup : (e.cancellable && s.session.cancelled) = true
  · rw [if_pos hup, if_pos hup]
    rfl
  · rw [if_neg hup, if_neg hup]
    rfl

/-- Builds the index of a parent and keeps it. -/
def freshIndex (e : Engine) (position : Nat) (parent : TriplesMap) (layout : List String) :
    Step ParentIndex := do
  let index ← e.buildIndex position parent layout
  modify fun s =>
    { s with indexes := (parent.iri, index) :: s.indexes.filter fun i => i.1 != parent.iri }
  return index

/-- An index that covers what is asked for is used, and otherwise one is built. -/
theorem indexFor_eq (e : Engine) (position : Nat) (parent : TriplesMap) (layout : List String) :
    e.indexFor position parent layout = get >>= fun s : RunState =>
      match (s.indexes.lookup parent.iri).filter (·.covers layout) with
      | some index => pure index
      | none => e.freshIndex position parent layout := by
  funext s
  unfold indexFor
  rw [Step.bind_apply, Step.bind_apply, Step.get_apply]
  dsimp only
  cases s.indexes.lookup parent.iri with
  | none => rfl
  | some index =>
      by_cases hcovers : index.covers layout
      · rw [Option.filter_some, if_pos hcovers]
        dsimp only
        rw [if_pos hcovers]
      · rw [Option.filter_some, if_neg hcovers]
        dsimp only
        rw [if_neg hcovers]
        rfl

theorem contributions_cons_apply (e : Engine) (c : Config) (position : Nat) (m : TriplesMap)
    (selected : List (Nat × TriplesMap)) (s : RunState) :
    e.contributions c ((position, m) :: selected) s = match e.contribution c position m s with
      | .error failure s₁ => .error failure s₁
      | .ok first s₁ => match e.contributions c selected s₁ with
        | .error failure s₂ => .error failure s₂
        | .ok rest s₂ => .ok (first :: rest) s₂ := by
  rw [contributions, Step.bind_apply]
  cases e.contribution c position m s with
  | error failure s₁ => rfl
  | ok first s₁ =>
      dsimp only
      rw [Step.bind_apply]
      cases e.contributions c selected s₁ <;> rfl

end Engine

end RdfMapping
