/-
String templates.

A template mixes literal text with references in braces.  A backslash takes the next
character out of this grammar, in text and in references alike, so any string can be
written as text and any non-empty string as a reference.

Reading a template gives its segments in order.  Text is collected up to the next
reference, so no segment is empty text and no two texts are neighbours.  A `Template`
carries the string it was read from together with the proof that reading it gives these
segments, and is thereby determined by that string.
-/

namespace RdfMapping

/-- A piece of a template. -/
inductive Segment where
  /-- Characters that stand for themselves. -/
  | text (chars : String)
  /-- A place where a value of the reference goes. -/
  | reference (name : String)
deriving DecidableEq

/-- What is wrong with the grammar of a template. -/
inductive TemplateFault where
  /-- The last character is a backslash that escapes nothing. -/
  | danglingEscape
  /-- A brace opens inside a reference. -/
  | nestedBrace
  /-- A reference has no characters. -/
  | emptyPlaceholder
  /-- A brace closes outside every reference. -/
  | unmatchedBrace
  /-- The template ends inside a reference. -/
  | unterminatedPlaceholder
deriving DecidableEq

/-- Why a string is not a template. -/
inductive TemplateError where
  /-- The string violates the grammar. -/
  | malformed (source : String) (fault : TemplateFault)
  /-- The string was refused by another check, in that check's words. -/
  | refused (reason : String)
deriving DecidableEq

/-- The wording of a grammar fault, which the quoted template follows. -/
def TemplateFault.message : TemplateFault → String
  | danglingEscape => "dangling escape"
  | nestedBrace => "nested '\x7b'"
  | emptyPlaceholder => "empty placeholder"
  | unmatchedBrace => "unmatched '\x7d'"
  | unterminatedPlaceholder => "unterminated placeholder"

/-- The wording of the error. -/
def TemplateError.message : TemplateError → String
  | malformed source fault => fault.message ++ " in '" ++ source ++ "'"
  | refused reason => reason

namespace Segment

/-! ### Reading -/

/-- The text segment of the characters collected backwards, none if there are none. -/
def flush (text : List Char) : List Segment :=
  if text.isEmpty then [] else [.text (String.ofList text.reverse)]

mutual

/-- Reads segments from inside a text whose characters so far are `text`, last one first. -/
def readText (text : List Char) : List Char → Except TemplateFault (List Segment)
  | [] => .ok (flush text)
  | '\\' :: c :: cs => readText (c :: text) cs
  | ['\\'] => .error .danglingEscape
  | '\x7b' :: cs => (flush text ++ ·) <$> readReference [] cs
  | '\x7d' :: _ => .error .unmatchedBrace
  | c :: cs => readText (c :: text) cs

/-- Reads segments from inside a reference whose characters so far are `name`, last one first. -/
def readReference (name : List Char) : List Char → Except TemplateFault (List Segment)
  | [] => .error .unterminatedPlaceholder
  | '\\' :: c :: cs => readReference (c :: name) cs
  | ['\\'] => .error .danglingEscape
  | '\x7b' :: _ => .error .nestedBrace
  | '\x7d' :: cs =>
    if name.isEmpty then .error .emptyPlaceholder
    else (.reference (String.ofList name.reverse) :: ·) <$> readText [] cs
  | c :: cs => readReference (c :: name) cs

end

/-- Reads the segments of a template. -/
def readAll (cs : List Char) : Except TemplateFault (List Segment) := readText [] cs

/-- The reference of a segment that is one. -/
def reference? : Segment → Option String
  | .reference name => some name
  | .text _ => none

end Segment

/-- A string in template grammar with its segments. -/
structure Template where
  /-- The string as it was written. -/
  source : String
  /-- Its segments. -/
  segments : List Segment
  /-- The segments are those of the string. -/
  reads : Segment.readAll source.toList = .ok segments

namespace Template

/-- Reads a template. -/
def parse (source : String) : Except TemplateError Template :=
  match h : Segment.readAll source.toList with
  | .ok segments => .ok ⟨source, segments, h⟩
  | .error fault => .error (.malformed source fault)

/-- The references of a template in order, repeated ones repeated. -/
def references (t : Template) : List String := t.segments.filterMap Segment.reference?

/-- A template is determined by the string it was read from. -/
theorem ext_source {t u : Template} (h : t.source = u.source) : t = u := by
  obtain ⟨s, xs, hx⟩ := t
  obtain ⟨s', ys, hy⟩ := u
  cases h
  cases hx.symm.trans hy
  rfl

/-- Reading the string of a template gives the template back. -/
theorem parse_source (t : Template) : parse t.source = .ok t := by
  unfold parse
  split
  · exact congrArg _ (ext_source rfl)
  · rename_i h
    exact nomatch t.reads.symm.trans h

end Template

end RdfMapping
