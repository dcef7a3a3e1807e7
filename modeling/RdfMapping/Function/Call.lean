/-
Calling a registered function.

A call binds its parameters in order before it invokes the function.  A required
parameter without a value withholds the call, and later parameters are then not even
evaluated, unless the function declares that it copes with missing inputs.  What
evaluating a parameter may do is left open here: it is any step of a state with any kind
of error, so a parameter may itself be a call.
-/
import RdfMapping.Function.Registry

namespace RdfMapping

/-- A parameter that can be evaluated in a state `σ`, failing with `ε`. -/
structure Input (ε σ : Type) where
  /-- The name its values are bound to. -/
  name : String
  /-- Whether the call is withheld when it has no value. -/
  required : Bool
  /-- Evaluates the parameter. -/
  values : EStateM ε σ (List String)

/-- How a call ended, if evaluating its parameters did not fail. -/
inductive CallOutcome where
  /-- No such function; no parameter was evaluated. -/
  | unknown
  /-- A required parameter had no value; the function was not invoked. -/
  | withheld (parameter : String)
  /-- The function was invoked. -/
  | returned (result : Except String (List String))

namespace CallOutcome

/-- The values of a call of the given function: none at all for a call that was withheld. -/
def values (function : String) : CallOutcome → Except FunctionError (List String)
  | unknown => .error (.unknown function)
  | withheld _ => .ok []
  | returned result => result.mapError fun reason => .failed function reason

end CallOutcome

/-- Evaluates parameters in order and adds their values to the arguments, up to the first required
one that has no value; the name of that one is the error. -/
def bindInputs {ε σ : Type} (acceptsMissing : Bool) (arguments : Arguments) :
    List (Input ε σ) → EStateM ε σ (Except String Arguments)
  | [] => pure (.ok arguments)
  | input :: inputs => do
    let values ← input.values
    if values.isEmpty && input.required && !acceptsMissing then
      return .error input.name
    bindInputs acceptsMissing (arguments.append input.name values) inputs

/-- Calls a function: looks it up, binds the parameters, invokes it once. -/
def Registry.call {ε σ : Type} (r : Registry) (id : String) (inputs : List (Input ε σ)) :
    EStateM ε σ CallOutcome :=
  match r.find? id with
  | none => pure .unknown
  | some f => do
    match ← bindInputs f.acceptsMissing .empty inputs with
    | .error parameter => return .withheld parameter
    | .ok arguments => return .returned (f.run arguments)

end RdfMapping
