/-
Registered functions.

The engine does not know any function itself.  A registry holds functions under
identifiers; a function takes named arguments and returns values or refuses them with a
reason.  A function also says what it makes of missing inputs, which decides whether it is
called at all when there are some.
-/
import RdfMapping.ValueMap

namespace RdfMapping

/-- Why a function returned no values at all. -/
inductive FunctionError where
  /-- No function is registered under the identifier. -/
  | unknown (function : String)
  /-- The function refused its arguments. -/
  | failed (function reason : String)
deriving DecidableEq

/-- The wording of the error. -/
def FunctionError.message : FunctionError → String
  | unknown function => "Unknown function: " ++ function
  | failed function reason => "Function " ++ function ++ " failed: " ++ reason

/-- A function with its attitude to missing inputs. -/
structure RegisteredFunction where
  /-- What the function does: return values, or refuse with a reason. -/
  run : Arguments → Except String (List String)
  /-- Whether the function is invoked even if a required parameter has no value. -/
  acceptsMissing : Bool := false

/-- Functions by identifier. -/
structure Registry where
  /-- The functions, each identifier once. -/
  entries : List (String × RegisteredFunction) := []

namespace Registry

/-- Registers a function, replacing any other under the same identifier. -/
def insert (r : Registry) (id : String) (f : RegisteredFunction) : Registry :=
  ⟨(id, f) :: r.entries.filter fun e => e.1 != id⟩

/-- The function registered under an identifier. -/
def find? (r : Registry) (id : String) : Option RegisteredFunction := r.entries.lookup id

/-- A registered function is found under its identifier, every other one as before. -/
theorem find?_insert (r : Registry) (id other : String) (f : RegisteredFunction) :
    (r.insert id f).find? other = if other = id then some f else r.find? other := by
  unfold insert find?
  rw [lookup_cons_eq_ite]
  by_cases h : other = id
  · rw [if_pos h, if_pos h]
  · rw [if_neg h, if_neg h]
    induction r.entries with
    | nil => rfl
    | cons e es ih =>
      obtain ⟨k, g⟩ := e
      by_cases hk : k = id
      · simp [hk, ih, lookup_cons_eq_ite, h]
      · simp [hk, lookup_cons_eq_ite, ih]

/-- Whether a function is registered under an identifier. -/
def contains (r : Registry) (id : String) : Bool := (r.find? id).isSome

/-- The number of registered functions. -/
def size (r : Registry) : Nat := r.entries.length

/-- Invokes a function with given arguments. -/
def invoke (r : Registry) (id : String) (arguments : Arguments) :
    Except FunctionError (List String) :=
  match r.find? id with
  | none => .error (.unknown id)
  | some f => (f.run arguments).mapError fun reason => .failed id reason

end Registry

end RdfMapping
