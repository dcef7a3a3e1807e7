/-
Resolving a reference against a base IRI.

A reference that has a scheme stands on its own.  Any other one takes over as many
leading parts of the base as it leaves out itself.  A reference that starts a path of its
own or continues the base's path has its dot segments removed while the path is put
together; dot segments that the base already had, and those after a new authority, stay.

The path under construction, an `Iri.Trail`, is held backwards, last character first,
because dot segments are looked for at its end.  The one thing to know about its start is
whether it has two slashes there.  That is kept as the path grows and shrinks, so that
the work done on a reference is proportional to its length.
-/
import RdfMapping.Iri.Parse

namespace RdfMapping

namespace Iri

/-! ### Paths under construction -/

/-- Whether a path starts with two slashes. -/
def startsDoubled : List Char → Bool
  | '/' :: '/' :: _ => true
  | _ => false

/-- Whether there are at least two characters. -/
def hasTwo : List Char → Bool
  | _ :: _ :: _ => true
  | _ => false

/-- One more character makes a path start with two slashes if both are all there is then. -/
theorem startsDoubled_append (path : List Char) (c : Char) :
    startsDoubled (path ++ [c]) = (startsDoubled path || (path == ['/'] && c == '/')) := by
  match path with
  | [] => simp [startsDoubled]
  | [a] => by_cases ha : a = '/' <;> by_cases hc : c = '/' <;> simp [startsDoubled, ha, hc]
  | a :: b :: path =>
    by_cases ha : a = '/' <;> by_cases hb : b = '/' <;> simp [startsDoubled, ha, hb]

/-- What a path starts with is not changed by what follows, if there are two characters of it. -/
theorem startsDoubled_of_append (path rest : List Char) :
    startsDoubled path = (startsDoubled (path ++ rest) && hasTwo path) := by
  match path with
  | [] => simp [startsDoubled, hasTwo]
  | [a] => simp [startsDoubled, hasTwo]
  | a :: b :: path =>
    by_cases ha : a = '/' <;> by_cases hb : b = '/' <;> simp [startsDoubled, hasTwo, ha, hb]

/-- Reversing a path keeps the number of its characters. -/
theorem hasTwo_reverse (path : List Char) : hasTwo path.reverse = hasTwo path := by
  have two (path : List Char) : hasTwo path = decide (2 ≤ path.length) := by
    match path with
    | [] => rfl
    | [_] => rfl
    | _ :: _ :: path => simp [hasTwo]
  rw [two, two, List.length_reverse]

/-- A path under construction.  Whether it starts with two slashes is kept beside it, because its
start is far from its end, where all the work is done. -/
structure Trail where
  /-- The characters so far, last one first. -/
  chars : List Char
  /-- Whether the path starts with two slashes. -/
  doubled : Bool := startsDoubled chars.reverse
  /-- What is kept is right. -/
  doubled_eq : doubled = startsDoubled chars.reverse := by rfl

namespace Trail

/-- The path with one more character. -/
def push (t : Trail) (c : Char) : Trail where
  chars := c :: t.chars
  doubled := t.doubled || (t.chars == ['/'] && c == '/')
  doubled_eq := by
    have : (t.chars.reverse == ['/']) = (t.chars == ['/']) := by
      rw [Bool.eq_iff_iff, beq_iff_eq, beq_iff_eq, List.reverse_eq_iff]
      rfl
    rw [List.reverse_cons, startsDoubled_append, t.doubled_eq, this]

/-- The path cut back to an earlier end. -/
def cut (t : Trail) (chars : List Char) (h : chars <:+ t.chars) : Trail where
  chars := chars
  doubled := t.doubled && hasTwo chars
  doubled_eq := by
    obtain ⟨dropped, h⟩ := h
    rw [t.doubled_eq, ← h, ← hasTwo_reverse, List.reverse_append, ← startsDoubled_of_append]

/-! ### Dot segments -/

/-- Drops the last segment and keeps the slash before it.  If no slash is left, the path becomes
empty, or a single slash after an authority. -/
def dropSegment (hasAuthority : Bool) (t : Trail) : Trail :=
  let shorter := t.cut (t.chars.dropWhile (· != '/')) (List.dropWhile_suffix _)
  if shorter.chars.isEmpty && hasAuthority then ⟨['/'], false, rfl⟩ else shorter

/-- The path that remains if the last segment is a dot segment. -/
def dropDots? (hasAuthority : Bool) (t : Trail) : Option Trail :=
  match h : t.chars with
  | '.' :: '.' :: '/' :: chars =>
    some ((t.cut chars ⟨['.', '.', '/'], h.symm⟩).dropSegment hasAuthority)
  | '.' :: '/' :: chars => some (t.cut ('/' :: chars) ⟨['.'], h.symm⟩)
  | ['.'] => some ⟨[], false, rfl⟩
  | ['.', '.'] => some ⟨[], false, rfl⟩
  | _ => none

/-- Refuses a path that would be taken for an authority. -/
def checkStart (hasAuthority : Bool) (t : Trail) : Except IriError Trail :=
  if !hasAuthority && t.doubled then .error .pathStart else .ok t

/-- The finished path once its last segment is complete. -/
def finish (hasAuthority : Bool) (t : Trail) : Except IriError (List Char) := do
  let t ← ((t.dropDots? hasAuthority).getD t).checkStart hasAuthority
  return t.chars.reverse

/-- Reads the rest of a path onto a path, removing dot segments, and gives the finished path with
what follows it. -/
def extend (hasAuthority : Bool) (t : Trail) : List Char → Except IriError (List Char × List Char)
  | [] => do return (← t.finish hasAuthority, [])
  | c :: cs =>
    if IriChar.endsPath c then do return (← t.finish hasAuthority, c :: cs)
    else if c == '/' then
      match t.dropDots? hasAuthority with
      | some shorter => do
        (← shorter.checkStart hasAuthority).extend hasAuthority cs
      | none => (t.push '/').extend hasAuthority cs
    else if c == '%' then
      match cs with
      | a :: b :: rest =>
        if Hex.isDigit a && Hex.isDigit b then
          (((t.push c).push a).push b).extend hasAuthority rest
        else .error (.percentEncoding [c, a, b])
      | short => .error (.percentEncoding (c :: short))
    else if IriChar.isSegment c then (t.push c).extend hasAuthority cs
    else .error (.codePoint c)

end Trail

/-! ### Resolution -/

/-- The base's path up to and including its last slash. -/
def directory (base : Iri) : Trail :=
  Trail.dropSegment base.authority.isSome { chars := base.path.reverse }

/-- The base with its path replaced by one that is read onto `path`. -/
def withPath (base : Iri) (path : Trail) (cs : List Char) : Except IriError Iri := do
  let (path, rest) ← path.extend base.authority.isSome cs
  let suffix ← parseSuffix rest
  return { base with path := path, query := suffix.query, fragment := suffix.fragment }

/-- Resolves a reference that has no scheme. -/
def resolveRelative (base : Iri) : List Char → Except IriError Iri
  | [] => .ok { base with fragment := none }
  | '?' :: cs => do
    let suffix ← parseSuffix ('?' :: cs)
    return { base with query := suffix.query, fragment := suffix.fragment }
  | '#' :: cs => do return { base with fragment := ← parseFragment ('#' :: cs) }
  | '/' :: '/' :: cs => parseHierarchy base.scheme ('/' :: '/' :: cs)
  | '/' :: cs => base.withPath { chars := ['/'] } cs
  | cs => do
    let (first, rest) ← takeRun IriChar.isFirstSegment IriChar.endsSegment cs
    base.withPath (first.foldl Trail.push base.directory) rest

/-- Resolves a reference against a base. -/
def resolve (base : Iri) (reference : String) : Except IriError Iri :=
  let cs := reference.toList
  if cs.head? == some ':' then .error .noScheme
  else match splitScheme? cs with
    | some (scheme, rest) => parseHierarchy scheme rest
    | none => base.resolveRelative cs

end Iri

/-- The absolute IRI that a value stands for: the value itself if it is one, else what it resolves
to against the base, if there is a base and resolution succeeds. -/
def absoluteIri? (base : Option Iri) (value : String) : Option String :=
  if Iri.isValid value then some value
  else do
    let base ← base
    let iri ← (base.resolve value).toOption
    return iri.text

end RdfMapping
