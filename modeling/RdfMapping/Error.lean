/-
Everything that can go wrong, in one type.

Missing data is never an error: a reference without values, a template with an empty
place or a join without a match simply make no term.  What remains falls into seven
kinds, each with a cause of its own type where there is one.
-/
import RdfMapping.Rules.Graph
import RdfMapping.Source.Provider
import RdfMapping.Function.Registry
import RdfMapping.Config

namespace RdfMapping

/-- Why an operation of the library failed. -/
inductive Error where
  /-- The rule graph cannot be executed. -/
  | graph (error : GraphError)
  /-- A string is not a template. -/
  | template (error : TemplateError)
  /-- A source could not be opened, or not be read at a record. -/
  | source (triplesMap : String) (record : Option Nat) (error : SourceError)
  /-- A function is unknown or failed. -/
  | function (error : FunctionError)
  /-- The run was cancelled. -/
  | cancelled
  /-- The configuration cannot be used. -/
  | config (error : ConfigError)
deriving DecidableEq

namespace Error

/-- The wording of the error. -/
def message : Error → String
  | graph error => "Rule graph error in " ++ error.triplesMap ++ ": " ++ error.fault.message
  | template error => "Invalid template: " ++ error.message
  | source triplesMap record error =>
    "Source access error in " ++ triplesMap ++
      (record.elim "" fun n => " at record " ++ toString n) ++ ": " ++ error.message
  | function error => error.message
  | cancelled => "Execution cancelled"
  | config error => "Invalid configuration: " ++ error.message

/-- Whether the error concerns only the evaluation of a term map. -/
def isFunctionError : Error → Bool
  | function _ => true
  | _ => false

/-- The wording of the error's cause in the outside world: a source or a function. -/
def causeMessage? : Error → Option String
  | source _ _ error => some error.message
  | function (.failed _ reason) => some reason
  | _ => none

/-- The record that the error itself names. -/
def record? : Error → Option Nat
  | source _ record _ => record
  | _ => none

end Error

end RdfMapping
