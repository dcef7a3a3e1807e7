/-
Writing a text so that only a chosen set of bytes stands for itself.

A text is taken as its UTF-8 bytes.  A byte of the kept set is written as the ASCII
character it is, any other byte as a mark followed by two upper-case hexadecimal
digits.  As long as the mark itself is not kept, no two texts are written alike.

Percent-encoding is one such writing.  Blank-node labels, where a percent sign would
not be legal, are the other.
-/
import RdfMapping.Text.Hex

namespace RdfMapping.ByteEscape

/-- The UTF-8 bytes of a text. -/
def utf8 (s : String) : List UInt8 := s.toUTF8.data.toList

/-- One byte: itself if kept, else the mark and two digits. -/
def byte (keep : UInt8 → Bool) (mark : Char) (b : UInt8) : List Char :=
  if keep b then [Char.ofNat b.toNat] else mark :: Hex.ofByte b

/-- A whole text, byte by byte. -/
def encode (keep : UInt8 → Bool) (mark : Char) (s : String) : List Char :=
  (utf8 s).flatMap (byte keep mark)

/-- The bytes of the ASCII letters and digits. -/
def isAlphanumeric (b : UInt8) : Bool :=
  (48 ≤ b && b ≤ 57) || (65 ≤ b && b ≤ 90) || (97 ≤ b && b ≤ 122)

/-- The bytes that may stand for themselves anywhere in an IRI: letters, digits and the four
marks `-`, `.`, `_` and `~`. -/
def isUnreserved (b : UInt8) : Bool :=
  isAlphanumeric b || b == 45 || b == 46 || b == 95 || b == 126

end RdfMapping.ByteEscape

namespace RdfMapping

/-- Percent-encodes a value for substitution into an IRI: every byte that could act as a
delimiter is encoded, so that data never changes the shape of the IRI around it. -/
def iriSafe (s : String) : String :=
  String.ofList (ByteEscape.encode ByteEscape.isUnreserved '%' s)

end RdfMapping
