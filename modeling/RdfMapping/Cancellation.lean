/-
Cancellation signals and the handles that share them.

Whoever starts a run keeps one handle and gives another to the run.  Handles made by
sharing share one signal; raising it through any of them is seen through all of them, and
it is never lowered again.
-/

namespace RdfMapping

/-- Handles with the signals behind them. -/
structure CancellationFlags where
  /-- For each handle the number of its signal. -/
  handles : List Nat
  /-- For each signal whether it is raised. -/
  signals : List Bool

namespace CancellationFlags

/-- A single handle on a signal that is not raised. -/
def initial : CancellationFlags := ⟨[0], [false]⟩

/-- One more handle, on a signal of its own. -/
def fresh (f : CancellationFlags) : CancellationFlags :=
  ⟨f.handles ++ [f.signals.length], f.signals ++ [false]⟩

/-- One more handle, on the signal of an existing one; nothing if there is no such handle. -/
def share (f : CancellationFlags) (handle : Nat) : CancellationFlags :=
  { f with handles := f.handles ++ (f.handles[handle]?).toList }

/-- Raises the signal of a handle. -/
def raise (f : CancellationFlags) (handle : Nat) : CancellationFlags :=
  match f.handles[handle]? with
  | some signal => { f with signals := f.signals.set signal true }
  | none => f

/-- Whether the signal of each handle is raised. -/
def raised (f : CancellationFlags) : List Bool :=
  f.handles.map fun signal => f.signals.getD signal false

end CancellationFlags

end RdfMapping
