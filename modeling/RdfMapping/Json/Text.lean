/-
Reading JSON texts.

The grammar is the strict one: white space is space, tab, line feed and carriage return;
control characters do not stand in strings; numbers have no leading zeros and no bare
points; nothing follows the value.  Escapes for surrogates must come in pairs; a string
with an unpaired one has no value, see `Json.unreadable`.

Each reader takes the characters that are left and gives back those that remain.  The
readers of values call each other, and every round trip between them takes a character, so
a budget of calls that is computed from the length of the text never runs out.
-/
import RdfMapping.Json.Value
import RdfMapping.Text.Hex

namespace RdfMapping.Json

/-! ### Tokens -/

/-- The characters that may stand between tokens. -/
def isSpace (c : Char) : Bool := c == ' ' || c == '\t' || c == '\n' || c == '\r'

/-- Drops white space. -/
def skipSpace (cs : List Char) : List Char := cs.dropWhile isSpace

/-- The decimal digits. -/
def isDigit (c : Char) : Bool := '0' ≤ c && c ≤ '9'

/-- Takes at least one digit. -/
def takeDigits? (cs : List Char) : Option (List Char × List Char) :=
  let digits := cs.takeWhile isDigit
  if digits.isEmpty then none else some (digits, cs.dropWhile isDigit)

/-- Takes the whole part of a number, which is zero or does not start with zero. -/
def takeWhole? (cs : List Char) : Option (List Char × List Char) := do
  let (digits, rest) ← takeDigits? cs
  if digits.length > 1 && digits.head? == some '0' then none else some (digits, rest)

/-- Takes a point with the digits behind it, if there is a point. -/
def takeFraction? : List Char → Option (List Char × List Char)
  | '.' :: cs => do
    let (digits, rest) ← takeDigits? cs
    return ('.' :: digits, rest)
  | cs => some ([], cs)

/-- Takes an exponent, if there is one. -/
def takeExponent? : List Char → Option (List Char × List Char)
  | [] => some ([], [])
  | e :: cs =>
    if e == 'e' || e == 'E' then do
      let (sign, cs) := match cs with
        | '+' :: rest => (['+'], rest)
        | '-' :: rest => (['-'], rest)
        | _ => ([], cs)
      let (digits, rest) ← takeDigits? cs
      return (e :: sign ++ digits, rest)
    else some ([], e :: cs)

/-- Takes a number. -/
def takeNumber? (cs : List Char) : Option (String × List Char) := do
  let (sign, cs) := match cs with
    | '-' :: rest => (['-'], rest)
    | _ => ([], cs)
  let (whole, cs) ← takeWhole? cs
  let (fraction, cs) ← takeFraction? cs
  let (exponent, cs) ← takeExponent? cs
  return (String.ofList (sign ++ whole ++ fraction ++ exponent), cs)

/-! ### Strings -/

/-- A piece of a string: a character, or half a surrogate pair. -/
inductive Piece where
  /-- A character. -/
  | char (c : Char)
  /-- A leading surrogate. -/
  | leading (code : Nat)
  /-- A trailing surrogate. -/
  | trailing (code : Nat)

/-- The piece with a code. -/
def Piece.ofCode (code : Nat) : Piece :=
  if 0xD800 ≤ code && code ≤ 0xDBFF then .leading code
  else if 0xDC00 ≤ code && code ≤ 0xDFFF then .trailing code
  else .char (Char.ofNat code)

/-- The character that a one-letter escape stands for. -/
def shortEscape? : Char → Option Char
  | '"' => some '"'
  | '\\' => some '\\'
  | '/' => some '/'
  | 'b' => some '\x08'
  | 'f' => some '\x0c'
  | 'n' => some '\n'
  | 'r' => some '\r'
  | 't' => some '\t'
  | _ => none

/-- Takes the pieces of a string, given without its opening quote, up to and including the closing
one. -/
def takePieces? : List Char → Option (List Piece × List Char)
  | [] => none
  | '"' :: cs => some ([], cs)
  | '\\' :: 'u' :: a :: b :: c :: d :: cs => do
    let code ← Hex.read? [a, b, c, d]
    let (pieces, rest) ← takePieces? cs
    return (.ofCode code :: pieces, rest)
  | '\\' :: e :: cs => do
    let c ← shortEscape? e
    let (pieces, rest) ← takePieces? cs
    return (.char c :: pieces, rest)
  | c :: cs =>
    if c.toNat < 32 then none else do
      let (pieces, rest) ← takePieces? cs
      return (.char c :: pieces, rest)

/-- The characters of some pieces, if surrogates only come in pairs. -/
def joinPieces? : List Piece → Option (List Char)
  | [] => some []
  | .char c :: pieces => (joinPieces? pieces).map (c :: ·)
  | .leading high :: .trailing low :: pieces =>
    (joinPieces? pieces).map
      (Char.ofNat (0x10000 + (high - 0xD800) * 0x400 + (low - 0xDC00)) :: ·)
  | _ => none

/-- Takes a string, given without its opening quote.  The string is `none` if it has no value. -/
def takeString? (cs : List Char) : Option (Option String × List Char) := do
  let (pieces, rest) ← takePieces? cs
  return ((joinPieces? pieces).map String.ofList, rest)

/-! ### Values -/

/-- The object of members whose names may have no value. -/
def ofMembers (members : List (Option String × Json)) : Json :=
  match members.mapM fun (name?, v) => name?.map (·, v) with
  | some members => .object members
  | none => .unreadable

mutual

/-- Takes a value that may be preceded by white space. -/
def takeValue? : (budget : Nat) → List Char → Option (Json × List Char)
  | 0, _ => none
  | budget + 1, cs =>
    match skipSpace cs with
    | 'n' :: 'u' :: 'l' :: 'l' :: rest => some (.null, rest)
    | 't' :: 'r' :: 'u' :: 'e' :: rest => some (.bool true, rest)
    | 'f' :: 'a' :: 'l' :: 's' :: 'e' :: rest => some (.bool false, rest)
    | '"' :: rest => do
      let (value?, rest) ← takeString? rest
      return (value?.elim .unreadable .string, rest)
    | '[' :: rest =>
      match skipSpace rest with
      | ']' :: rest => some (.array [], rest)
      | _ => do
        let (items, rest) ← takeItems? budget rest
        return (.array items, rest)
    | '\x7b' :: rest =>
      match skipSpace rest with
      | '\x7d' :: rest => some (.object [], rest)
      | _ => do
        let (members, rest) ← takeMembers? budget rest
        return (ofMembers members, rest)
    | cs => do
      let (text, rest) ← takeNumber? cs
      return (.number text, rest)

/-- Takes the items of an array up to and including the closing bracket. -/
def takeItems? : (budget : Nat) → List Char → Option (List Json × List Char)
  | 0, _ => none
  | budget + 1, cs => do
    let (item, rest) ← takeValue? budget cs
    match skipSpace rest with
    | ',' :: rest => do
      let (items, rest) ← takeItems? budget rest
      return (item :: items, rest)
    | ']' :: rest => return ([item], rest)
    | _ => none

/-- Takes the members of an object up to and including the closing brace. -/
def takeMembers? : (budget : Nat) → List Char → Option (List (Option String × Json) × List Char)
  | 0, _ => none
  | budget + 1, cs =>
    match skipSpace cs with
    | '"' :: rest => do
      let (name?, rest) ← takeString? rest
      match skipSpace rest with
      | ':' :: rest =>
        let (value, rest) ← takeValue? budget rest
        match skipSpace rest with
        | ',' :: rest => do
          let (members, rest) ← takeMembers? budget rest
          return ((name?, value) :: members, rest)
        | '\x7d' :: rest => return ([(name?, value)], rest)
        | _ => none
      | _ => none
    | _ => none

end

/-- Reads a text that is one value with white space around it.  Each nested reader takes at least
one character, so twice the number of characters is budget enough. -/
def parse? (text : String) : Option Json := do
  let cs := text.toList
  let (value, rest) ← takeValue? (2 * cs.length + 1) cs
  if (skipSpace rest).isEmpty then some value else none

end RdfMapping.Json
