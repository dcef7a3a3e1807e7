/-
Absolute IRIs and their parts.

Parsing splits a text into scheme, authority, path, query and fragment and checks every
character on the way.  Nothing is decoded or normalised: `Iri.text` puts the parts
together to exactly the text that was read.

A text without a scheme is still checked to its end before it is refused, so that the
first thing wrong with it is what gets reported.
-/
import RdfMapping.Iri.Host

namespace RdfMapping

/-- The parts of an absolute IRI, without the delimiters between them. -/
structure Iri where
  /-- What stands before the first colon. -/
  scheme : List Char
  /-- What follows the two slashes, if they are there. -/
  authority : Option (List Char)
  /-- The path, which may be empty. -/
  path : List Char
  /-- What follows the question mark, if there is one. -/
  query : Option (List Char)
  /-- What follows the number sign, if there is one. -/
  fragment : Option (List Char)
deriving DecidableEq

namespace Iri

/-- The characters of an IRI. -/
def render (i : Iri) : List Char :=
  i.scheme ++ ':' :: (i.authority.elim [] fun a => '/' :: '/' :: a) ++ i.path
    ++ (i.query.elim [] fun q => '?' :: q) ++ (i.fragment.elim [] fun f => '#' :: f)

/-- The text of an IRI. -/
def text (i : Iri) : String := String.ofList i.render

/-- What follows the path of an IRI. -/
structure Suffix where
  /-- What follows the question mark, if there is one. -/
  query : Option (List Char)
  /-- What follows the number sign, if there is one. -/
  fragment : Option (List Char)

/-- Reads a fragment that starts with its number sign, or nothing. -/
def parseFragment : List Char → Except IriError (Option (List Char))
  | '#' :: cs => do
    let (fragment, _) ← takeRun IriChar.isFragment (fun _ => false) cs
    return some fragment
  | _ => .ok none

/-- Reads what follows a path: a query that starts with its question mark, then a fragment. -/
def parseSuffix : List Char → Except IriError Suffix
  | '?' :: cs => do
    let (query, rest) ← takeRun IriChar.isQuery (· == '#') cs
    return ⟨some query, ← parseFragment rest⟩
  | cs => return ⟨none, ← parseFragment cs⟩

/-- Reads a path and what follows it. -/
def parsePath (cs : List Char) : Except IriError (List Char × Suffix) := do
  let (path, rest) ← takeRun IriChar.isPath IriChar.endsPath cs
  return (path, ← parseSuffix rest)

/-- Splits off a scheme and its colon. -/
def splitScheme? : List Char → Option (List Char × List Char)
  | [] => none
  | c :: cs =>
    if IriChar.isLetter c then
      match cs.dropWhile IriChar.isScheme with
      | ':' :: rest => some (c :: cs.takeWhile IriChar.isScheme, rest)
      | _ => none
    else none

/-- Reads what follows a scheme. -/
def parseHierarchy (scheme : List Char) : List Char → Except IriError Iri
  | '/' :: '/' :: cs => do
    let (authority, rest) ← Authority.take cs
    let (path, suffix) ← parsePath rest
    return ⟨scheme, some authority, path, suffix.query, suffix.fragment⟩
  | cs => do
    let (path, suffix) ← parsePath cs
    return ⟨scheme, none, path, suffix.query, suffix.fragment⟩

/-- Checks a text that has no scheme. -/
def checkRelative : List Char → Except IriError Unit
  | '/' :: '/' :: cs => do
    let (_, rest) ← Authority.take cs
    let _ ← parsePath rest
  | '/' :: cs => do
    let _ ← parsePath ('/' :: cs)
  | cs => do
    let (_, rest) ← takeRun IriChar.isFirstSegment IriChar.endsSegment cs
    let _ ← parsePath rest

/-- Parses an absolute IRI from its characters. -/
def parseChars (cs : List Char) : Except IriError Iri :=
  if cs.head? == some ':' then .error .noScheme
  else match splitScheme? cs with
    | some (scheme, rest) => parseHierarchy scheme rest
    | none => do
      checkRelative cs
      .error .noScheme

/-- Parses an absolute IRI. -/
def parse (s : String) : Except IriError Iri := parseChars s.toList

/-- Whether a text is an absolute IRI. -/
def isValid (s : String) : Bool := (parse s).isOk

end Iri

end RdfMapping
