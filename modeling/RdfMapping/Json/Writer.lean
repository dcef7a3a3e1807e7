/-
Writing JSON texts.

A value is written without white space.  In a string the quote, the backslash and the
control characters are escaped, those that have a short escape by it and the others by
their code point; every other character stands for itself.
-/
import RdfMapping.Json.Value

namespace RdfMapping.Json

/-! ### Strings -/

/-- The lower-case hexadecimal digit of a number below sixteen. -/
def lowerDigit (n : Nat) : Char :=
  if n < 10 then Char.ofNat (n + 48) else Char.ofNat (n + 87)

/-- What is written for a character of a string. -/
def escape : Char → List Char
  | '"' => ['\\', '"']
  | '\\' => ['\\', '\\']
  | '\x08' => ['\\', 'b']
  | '\x0c' => ['\\', 'f']
  | '\n' => ['\\', 'n']
  | '\r' => ['\\', 'r']
  | '\t' => ['\\', 't']
  | c =>
    if c.toNat < 32 then
      ['\\', 'u', '0', '0', lowerDigit (c.toNat / 16), lowerDigit (c.toNat % 16)]
    else [c]

/-- A string in quotes. -/
def quoted (s : String) : List Char := '"' :: (s.toList.flatMap escape ++ ['"'])

/-! ### Values -/

mutual

/-- The characters of a value.  An unreadable value has none: nothing that is written holds one. -/
def chars : Json → List Char
  | .null => ['n', 'u', 'l', 'l']
  | .bool true => ['t', 'r', 'u', 'e']
  | .bool false => ['f', 'a', 'l', 's', 'e']
  | .number text => text.toList
  | .string s => quoted s
  | .array [] => ['[', ']']
  | .array (v :: items) => '[' :: (v.chars ++ moreItems items)
  | .object [] => ['\x7b', '\x7d']
  | .object ((name, v) :: members) =>
    '\x7b' :: (quoted name ++ ':' :: (v.chars ++ moreMembers members))
  | .unreadable => []

/-- The items of an array behind its first one, and the closing bracket. -/
def moreItems : List Json → List Char
  | [] => [']']
  | v :: items => ',' :: (v.chars ++ moreItems items)

/-- The members of an object behind its first one, and the closing brace. -/
def moreMembers : List (String × Json) → List Char
  | [] => ['\x7d']
  | (name, v) :: members => ',' :: (quoted name ++ ':' :: (v.chars ++ moreMembers members))

end

/-- The text of a value. -/
def write (j : Json) : String := String.ofList j.chars

end RdfMapping.Json
