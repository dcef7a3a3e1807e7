/-
Terms as N-Quads text.

The canonical text of a term is the key by which quads are compared and the form in
which they are written.  IRIs stand in angle brackets with everything escaped that could
end them early; literal values stand in quotes with the usual escapes; labels and
language tags are written as they are.

`Term.render` says what the text is, as a list of characters with one escape per
character, so that reading one back is a matter of taking the escapes off again.
`Term.write` puts the text behind another one without any list in between, and
`Term.toList_write` says that both are the same.
-/
import RdfMapping.Term.Basic
import RdfMapping.Text.Hex

namespace RdfMapping

/-! ### Escapes

Every character that is escaped at all has a code point below 256, so four hexadecimal
digits always hold it.
-/

/-- A character by its code point. -/
def codePointEscape (c : Char) : List Char := '\\' :: 'u' :: Hex.four c.toNat

/-- Whether a character may not appear in a written IRI: the space and all that sorts before it,
and the delimiters that IRIs never contain. -/
def breaksIri (c : Char) : Bool :=
  c ≤ ' ' || c == '<' || c == '>' || c == '"' || c == '\x7b' || c == '\x7d' || c == '|'
    || c == '^' || c == '\x60' || c == '\\'

/-- Whether a character is a control character: the code points below the space and from the
delete character up to the end of the second control block. -/
def isControl (c : Char) : Bool := c.toNat < 32 || (127 ≤ c.toNat && c.toNat < 160)

/-- Whether a character may not appear in a written literal value. -/
def breaksLiteral (c : Char) : Bool := c == '"' || c == '\\' || isControl c

/-- A character of a literal value that may not appear there: the usual ones have a short form. -/
def literalEscape (c : Char) : List Char :=
  if c == '"' then ['\\', '"']
  else if c == '\\' then ['\\', '\\']
  else if c == '\n' then ['\\', 'n']
  else if c == '\r' then ['\\', 'r']
  else if c == '\t' then ['\\', 't']
  else codePointEscape c

/-- One character, escaped if it may not appear as it is. -/
def escaped (breaks : Char → Bool) (escape : Char → List Char) (c : Char) : List Char :=
  if breaks c then escape c else [c]

/-! ### Terms -/

/-- An IRI in angle brackets. -/
def iriText (iri : String) : List Char :=
  '<' :: (iri.toList.flatMap (escaped breaksIri codePointEscape) ++ ['>'])

/-- What follows the closing quote of a literal: the language tag if there is one, else the
datatype if there is one. -/
def literalSuffix (datatype language : Option String) : List Char :=
  match language, datatype with
  | some tag, _ => '@' :: tag.toList
  | none, some dt => '^' :: '^' :: iriText dt
  | none, none => []

/-- The characters of the canonical text. -/
def Term.render : Term → List Char
  | .iri value => iriText value
  | .blank label => '_' :: ':' :: label.toList
  | .literal value datatype language =>
    '"' :: (value.toList.flatMap (escaped breaksLiteral literalEscape)
      ++ '"' :: literalSuffix datatype language)

/-! ### Writing -/

/-- Writes the characters of a string behind a text, escaping those that may not appear. -/
@[specialize]
def writeEscaped (breaks : Char → Bool) (escape : Char → List Char) (text s : String) : String :=
  s.foldl (fun text c => if breaks c then (escape c).foldl String.push text else text.push c) text

/-- Writes an IRI in angle brackets behind a text. -/
def writeIri (text iri : String) : String :=
  (writeEscaped breaksIri codePointEscape (text.push '<') iri).push '>'

/-- Writes what follows the closing quote of a literal behind a text. -/
def writeLiteralSuffix (text : String) (datatype language : Option String) : String :=
  match language, datatype with
  | some tag, _ => text.push '@' ++ tag
  | none, some dt => writeIri ((text.push '^').push '^') dt
  | none, none => text

/-- Writes a term behind a text. -/
def Term.write (text : String) : Term → String
  | .iri value => writeIri text value
  | .blank label => (text.push '_').push ':' ++ label
  | .literal value datatype language =>
    writeLiteralSuffix
      ((writeEscaped breaksLiteral literalEscape (text.push '"') value).push '"') datatype language

/-- The canonical text of a term. -/
def Term.canonical (t : Term) : String := t.write ""

theorem toList_foldl_push (text : String) (cs : List Char) :
    (cs.foldl String.push text).toList = text.toList ++ cs := by
  induction cs generalizing text with
  | nil => simp
  | cons c cs ih => simp [ih]

theorem toList_writeEscaped (breaks : Char → Bool) (escape : Char → List Char)
    (text s : String) :
    (writeEscaped breaks escape text s).toList =
      text.toList ++ s.toList.flatMap (escaped breaks escape) := by
  unfold writeEscaped
  rw [String.foldl_eq_foldl_toList]
  induction s.toList generalizing text with
  | nil => simp
  | cons c cs ih =>
    rw [List.foldl_cons, ih, List.flatMap_cons, ← List.append_assoc]
    congr 1
    unfold escaped
    split
    · exact toList_foldl_push text _
    · simp

theorem toList_writeIri (text iri : String) :
    (writeIri text iri).toList = text.toList ++ iriText iri := by
  simp [writeIri, iriText, toList_writeEscaped]

theorem toList_writeLiteralSuffix (text : String) (datatype language : Option String) :
    (writeLiteralSuffix text datatype language).toList =
      text.toList ++ literalSuffix datatype language := by
  unfold writeLiteralSuffix literalSuffix
  split <;> simp [toList_writeIri]

/-- What is written is what `render` says. -/
theorem Term.toList_write (text : String) (t : Term) :
    (t.write text).toList = text.toList ++ t.render := by
  cases t with
  | iri value => exact toList_writeIri text value
  | blank label => simp [write, render]
  | literal value datatype language =>
    simp [write, render, toList_writeLiteralSuffix, toList_writeEscaped]

theorem Term.canonical_eq (t : Term) : t.canonical = String.ofList t.render := by
  rw [← String.toList_inj, canonical, toList_write, String.toList_ofList]
  simp

end RdfMapping
