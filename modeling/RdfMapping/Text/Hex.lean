/-
Hexadecimal digits.

Three formats of the library write code points or bytes in upper-case hexadecimal:
percent-encoding, blank-node labels and the `\u` escapes of N-Quads.  IRIs and JSON
texts read hexadecimal digits of either case.
-/

namespace RdfMapping.Hex

/-- The upper-case digit of a number below sixteen. -/
def digit (n : Nat) : Char :=
  if n < 10 then Char.ofNat (n + 48) else Char.ofNat (n + 55)

/-- The two digits of a byte. -/
def ofByte (b : UInt8) : List Char := [digit (b.toNat / 16), digit (b.toNat % 16)]

/-- The last four digits of a number. -/
def four (n : Nat) : List Char :=
  [digit (n / 4096 % 16), digit (n / 256 % 16), digit (n / 16 % 16), digit (n % 16)]

/-- The value of a digit of either case. -/
def value? (c : Char) : Option Nat :=
  if '0' ≤ c ∧ c ≤ '9' then some (c.toNat - 48)
  else if 'A' ≤ c ∧ c ≤ 'F' then some (c.toNat - 55)
  else if 'a' ≤ c ∧ c ≤ 'f' then some (c.toNat - 87)
  else none

/-- Whether a character is a hexadecimal digit of either case. -/
def isDigit (c : Char) : Bool := (value? c).isSome

/-- The value of a digit sequence, most significant digit first; `none` if some character is
no digit. -/
def read? (digits : List Char) : Option Nat :=
  digits.foldl (fun n? c => do
    let n ← n?
    let d ← value? c
    return n * 16 + d) (some 0)

end RdfMapping.Hex
