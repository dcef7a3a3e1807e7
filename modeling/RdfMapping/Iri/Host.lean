/-
The authority of an IRI: user name, host and number.

A host may be preceded by a user name and an at sign, and followed by a colon and a
decimal number, which may be empty.

A host is a name or, in brackets, an IP address.  The bracketed text is an IPv6 address
or, if it starts with a `v`, an address of some later version: hexadecimal version
digits, a dot, and at least one further character.

An IPv6 address has eight groups of up to four hexadecimal digits.  One run of at least
one zero group may be left out and written as a double colon, and the last two groups may
be written as a dotted IPv4 address.
-/
import RdfMapping.Iri.Chars

namespace RdfMapping

namespace Ipv4

/-- Reads a decimal number below 256 without leading zeros. -/
def octet? (cs : List Char) : Option (List Char) :=
  let digits := cs.takeWhile IriChar.isDigit
  let value := digits.foldl (fun n c => n * 10 + (c.toNat - 48)) 0
  if digits.isEmpty || digits.length > 3 || value > 255 then none
  else if digits.length > 1 && digits.head? == some '0' then none
  else some (cs.drop digits.length)

/-- Reads a dotted address of the given number of octets and gives the rest. -/
def take? : Nat → List Char → Option (List Char)
  | 0, cs => some cs
  | 1, cs => octet? cs
  | n + 2, cs =>
    match octet? cs with
    | some ('.' :: rest) => take? (n + 1) rest
    | _ => none

end Ipv4

namespace Ipv6

/-- Reads one to four hexadecimal digits that no fifth one follows. -/
def group? (cs : List Char) : Option (List Char) :=
  let digits := cs.takeWhile Hex.isDigit
  if digits.isEmpty || digits.length > 4 then none else some (cs.drop digits.length)

/-- What a sequence of groups looked like. -/
structure Groups where
  /-- How many groups were read; a dotted address counts for two. -/
  count : Nat
  /-- Whether the sequence ended in a dotted address. -/
  dotted : Bool
  /-- The characters that follow. -/
  rest : List Char

/-- Skips the colon before every group but the first. -/
def separator? (first : Bool) (cs : List Char) : Option (List Char) :=
  if first then some cs
  else match cs with
    | ':' :: rest => some rest
    | _ => none

/-- Reads up to `room` groups separated by colons, as many as there are.  A dotted address ends
the sequence, and there must be room for the two groups it stands for. -/
def takeGroups (first : Bool) : Nat → List Char → Groups
  | 0, cs => ⟨0, false, cs⟩
  | room + 1, cs =>
    match separator? first cs with
    | none => ⟨0, false, cs⟩
    | some body =>
      match if 0 < room then Ipv4.take? 4 body else none with
      | some rest => ⟨2, true, rest⟩
      | none =>
        match group? body with
        | none => ⟨0, false, cs⟩
        | some rest =>
          let more := takeGroups false room rest
          { more with count := more.count + 1 }

/-- Whether a text is an IPv6 address.  Without a double colon there are eight groups; with one
there are at most seven, and a dotted address only comes last. -/
def isAddress (cs : List Char) : Bool :=
  let front := takeGroups true 8 cs
  if front.count == 8 then front.rest.isEmpty
  else if front.dotted then false
  else match front.rest with
    | ':' :: ':' :: rest => (takeGroups true (7 - front.count) rest).rest.isEmpty
    | _ => false

end Ipv6

namespace Authority

/-- Checks the text of an address of a later version, given without the leading letter. -/
def checkFuture (cs : List Char) : Except IriError Unit :=
  let version := cs.takeWhile (· != '.')
  let address := (cs.dropWhile (· != '.')).drop 1
  match version.find? fun c => !Hex.isDigit c with
  | some c => .error (.hostCharacter c)
  | none =>
    if version.isEmpty then .error (.hostCharacter (address.headD ']'))
    else if address.isEmpty then .error (.hostCharacter ']')
    else match address.find? fun c => !(IriChar.isPlainAscii c || c == ':') with
      | some c => .error (.hostCharacter c)
      | none => .ok ()

/-- Checks the text between the brackets of an IP literal. -/
def checkLiteral (cs : List Char) : Except IriError Unit :=
  match cs with
  | 'v' :: rest => checkFuture rest
  | 'V' :: rest => checkFuture rest
  | _ => if Ipv6.isAddress cs then .ok () else .error .hostAddress

/-- Reads an IP literal, given without its opening bracket, up to and including the closing one.
Only a colon or the end of the authority may follow. -/
def takeLiteral (cs : List Char) : Except IriError (List Char × List Char) := do
  let address := cs.takeWhile (· != ']')
  match cs.dropWhile (· != ']') with
  | [] => throw (.hostCharacter '[')
  | _ :: rest =>
    checkLiteral address
    match rest with
    | [] => return ('[' :: address ++ [']'], rest)
    | c :: _ =>
      if IriChar.endsHost c then return ('[' :: address ++ [']'], rest)
      else throw (.hostCharacter c)

/-- Reads a host: an IP literal or a name. -/
def takeHost (cs : List Char) : Except IriError (List Char × List Char) :=
  match cs with
  | '[' :: rest => takeLiteral rest
  | _ => takeRun IriChar.isPlain IriChar.endsHost cs

/-- Reads the digits of a number up to the end of the authority. -/
def takeNumber : List Char → Except IriError (List Char × List Char)
  | [] => .ok ([], [])
  | c :: cs =>
    if IriChar.endsSegment c then .ok ([], c :: cs)
    else if IriChar.isDigit c then do
      let (digits, rest) ← takeNumber cs
      return (c :: digits, rest)
    else .error (.notDigit c)

/-- Reads a host and, after a colon, a number. -/
def takeEndpoint (cs : List Char) : Except IriError (List Char × List Char) := do
  let (host, rest) ← takeHost cs
  match rest with
  | ':' :: rest =>
    let (digits, rest) ← takeNumber rest
    return (host ++ ':' :: digits, rest)
  | _ => return (host, rest)

/-- Reads an authority, given without the two slashes before it.  Whether it starts with a user
name is known only when the sign that ends one is found; otherwise the same characters are read
again as a host. -/
def take (cs : List Char) : Except IriError (List Char × List Char) := do
  let (user, rest) ← takeRun IriChar.isUserInfo IriChar.endsUserInfo cs
  match rest with
  | '@' :: rest =>
    let (host, rest) ← takeEndpoint rest
    return (user ++ '@' :: host, rest)
  | _ => takeEndpoint cs

end Authority

end RdfMapping
