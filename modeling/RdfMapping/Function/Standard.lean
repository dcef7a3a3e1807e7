/-
A small stock of functions for mappings.

They cover the ways in which a function can treat its arguments: values changed one by
one, values joined, counted and split, arguments shown, and calls refused always or on
some inputs.  The single input of a function is bound to `in`; the two parts of a
concatenation are `a` and `b`.
-/
import RdfMapping.Function.Registry

namespace RdfMapping

/-- A stock function. -/
inductive StandardFunction where
  /-- Every input value with its ASCII letters in upper case. -/
  | upper
  /-- The first value of `a` followed by the first of `b`. -/
  | concat
  /-- The number of input values. -/
  | count
  /-- Refuses whatever it is given. -/
  | fail (reason : String)
  /-- Refuses inputs that contain a value, passes others on. -/
  | failIf (value : String)
  /-- Refuses to be without input, passes input on. -/
  | failIfMissing
  /-- All arguments in one line. -/
  | dump
  /-- The pieces of every input value between commas. -/
  | split
  /-- Always the same values. -/
  | const (values : List String)

namespace StandardFunction

/-- All arguments in one line: the number of bound names, then each name with its values. -/
def dumpText (arguments : Arguments) : String :=
  toString arguments.size ++ ":" ++ ";".intercalate (arguments.entries.map fun (name, values) =>
    name ++ "=[" ++ "|".intercalate values ++ "]")

/-- What the function does. -/
def run (arguments : Arguments) : StandardFunction → Except String (List String)
  | upper => .ok ((arguments.get "in").map fun v => v.map Char.toUpper)
  | concat => .ok (match arguments.first? "a", arguments.first? "b" with
    | some a, some b => [a ++ b]
    | _, _ => [])
  | count => .ok [toString (arguments.get "in").length]
  | fail reason => .error reason
  | failIf value =>
    if (arguments.get "in").contains value then .error ("rejected " ++ value)
    else .ok (arguments.get "in")
  | failIfMissing =>
    if (arguments.get "in").isEmpty then .error "no input" else .ok (arguments.get "in")
  | dump => .ok [dumpText arguments]
  | split => .ok ((arguments.get "in").flatMap fun v => v.splitOn ",")
  | const values => .ok values

/-- The stock function as it is registered. -/
def register (f : StandardFunction) (acceptsMissing : Bool) : RegisteredFunction where
  run arguments := f.run arguments
  acceptsMissing := acceptsMissing

end StandardFunction

end RdfMapping
