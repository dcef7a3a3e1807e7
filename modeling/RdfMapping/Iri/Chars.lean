/-
The characters of an IRI and how runs of them are read.

An IRI is read from left to right in runs: a run goes up to a delimiter, and each of its
characters is either allowed in that run or opens a percent-encoded byte.  `takeRun`
reads one run and leaves the delimiter in place, so the runs and delimiters of an IRI
always put the text together again.
-/
import RdfMapping.Text.Hex

namespace RdfMapping

/-- Why a text is not an IRI. -/
inductive IriError where
  /-- The text is relative, or its scheme is empty. -/
  | noScheme
  /-- A character is not allowed where it stands. -/
  | codePoint (c : Char)
  /-- A percent sign is not followed by two hexadecimal digits; what was read is given. -/
  | percentEncoding (text : List Char)
  /-- A character stands where only decimal digits may stand. -/
  | notDigit (c : Char)
  /-- An IP literal has a character that does not belong there. -/
  | hostCharacter (c : Char)
  /-- The text in brackets is not an IPv6 address. -/
  | hostAddress
  /-- Removing dot segments left a path that would be read as an authority. -/
  | pathStart
deriving DecidableEq

namespace IriError

/-- The wording of the error. -/
def message : IriError → String
  | noScheme => "No scheme found in an absolute IRI"
  | codePoint c => "Invalid IRI code point '" ++ c.toString ++ "'"
  | percentEncoding text => "Invalid IRI percent encoding '" ++ String.ofList text ++ "'"
  | notDigit c => "Invalid character '" ++ c.toString ++ "'"
  | hostCharacter c => "Invalid character '" ++ c.toString ++ "' in host"
  | hostAddress => "Invalid host IP (invalid IPv6 address syntax)"
  | pathStart => "An IRI path is not allowed to start with //"

end IriError

namespace IriChar

/-! ### Character classes -/

/-- The ASCII letters. -/
def isLetter (c : Char) : Bool := ('a' ≤ c && c ≤ 'z') || ('A' ≤ c && c ≤ 'Z')

/-- The ASCII digits. -/
def isDigit (c : Char) : Bool := '0' ≤ c && c ≤ '9'

/-- The characters of a scheme after its first letter. -/
def isScheme (c : Char) : Bool :=
  isLetter c || isDigit c || c == '+' || c == '-' || c == '.'

/-- The ASCII characters that may stand for themselves in every part of an IRI. -/
def isPlainAscii (c : Char) : Bool :=
  isLetter c || isDigit c || c == '!' || c == '$' || c == '&' || c == '\'' || c == '('
    || c == ')' || c == '*' || c == '+' || c == ',' || c == '-' || c == '.' || c == ';'
    || c == '=' || c == '_' || c == '~'

/-- The code points beyond ASCII that may stand for themselves: everything from the no-break
space on except surrogates, private use and the noncharacters that end each plane; of the
special-purpose plane only its upper part. -/
def isInternational (n : Nat) : Bool :=
  (0xA0 ≤ n && n ≤ 0xD7FF) || (0xF900 ≤ n && n ≤ 0xFDCF) || (0xFDF0 ≤ n && n ≤ 0xFFEF)
    || (0x10000 ≤ n && n ≤ 0xDFFFD && n % 0x10000 ≤ 0xFFFD)
    || (0xE1000 ≤ n && n ≤ 0xEFFFD)

/-- The characters that may stand for themselves in every part of an IRI. -/
def isPlain (c : Char) : Bool := isPlainAscii c || isInternational c.toNat

/-- The private-use code points, which only a query may contain. -/
def isPrivate (n : Nat) : Bool :=
  (0xE000 ≤ n && n ≤ 0xF8FF) || (0xF0000 ≤ n && n ≤ 0xFFFFD)
    || (0x100000 ≤ n && n ≤ 0x10FFFD)

/-- The characters of a user name with its password, before the sign that ends it. -/
def isUserInfo (c : Char) : Bool := isPlain c || c == ':'

/-- The characters of the first segment of a relative path, where a colon would look like the
end of a scheme. -/
def isFirstSegment (c : Char) : Bool := isPlain c || c == '@'

/-- The characters of a path segment. -/
def isSegment (c : Char) : Bool := isPlain c || c == ':' || c == '@'

/-- The characters of a path. -/
def isPath (c : Char) : Bool := isSegment c || c == '/'

/-- The characters of a query. -/
def isQuery (c : Char) : Bool := isPath c || c == '?' || isPrivate c.toNat

/-- The characters of a fragment. -/
def isFragment (c : Char) : Bool := isPath c || c == '?'

/-! ### Delimiters -/

/-- What ends a path. -/
def endsPath (c : Char) : Bool := c == '?' || c == '#'

/-- What ends an authority or a path segment. -/
def endsSegment (c : Char) : Bool := c == '/' || endsPath c

/-- What ends a host name. -/
def endsHost (c : Char) : Bool := c == ':' || endsSegment c

/-- What settles whether an authority starts with a user name: the sign that ends one, or a
character that cannot be part of one but may follow the authority's start. -/
def endsUserInfo (c : Char) : Bool := c == '@' || c == '[' || endsSegment c

end IriChar

/-! ### Runs -/

/-- Reads characters of `allowed` and percent-encoded bytes onto a run that is held backwards, up
to the first character of `stop` or the end, and gives the whole run with the rest. -/
@[specialize]
def readRun (allowed stop : Char → Bool) (run : List Char) :
    List Char → Except IriError (List Char × List Char)
  | [] => .ok (run.reverse, [])
  | c :: cs =>
    if stop c then .ok (run.reverse, c :: cs)
    else if c == '%' then
      match cs with
      | a :: b :: rest =>
        if Hex.isDigit a && Hex.isDigit b then readRun allowed stop (b :: a :: c :: run) rest
        else .error (.percentEncoding [c, a, b])
      | short => .error (.percentEncoding (c :: short))
    else if allowed c then readRun allowed stop (c :: run) cs
    else .error (.codePoint c)

/-- Reads characters of `allowed` and percent-encoded bytes up to the first character of `stop`
or the end, and gives them with the rest. -/
@[inline]
def takeRun (allowed stop : Char → Bool) (cs : List Char) :
    Except IriError (List Char × List Char) := readRun allowed stop [] cs

end RdfMapping
