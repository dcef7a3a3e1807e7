/-
Filling in a template.

A template yields one string for every choice of one value per reference occurrence.
The choices are enumerated like numbers: the last occurrence varies fastest.  If some
occurrence has no value there is nothing to choose and so no string.  A reference that
occurs twice is chosen for twice.

The strings grow from the left, all of them together, so that a long common start is
built only once.  `expand_text` and `expand_reference` say what comes of it without
speaking of starts.
-/
import RdfMapping.Template.Basic
import RdfMapping.ValueMap
import RdfMapping.Text.ByteEscape

namespace RdfMapping

namespace Segment

/-- Every string so far continued in every way by some segments.  The first reference without a
value ends it all: what stands behind it is not even looked at. -/
def continueAll (values : String → List String) (starts : List String) :
    List Segment → List String
  | [] => starts
  | .text chars :: rest => continueAll values (starts.map (· ++ chars)) rest
  | .reference name :: rest =>
    let choices := values name
    if choices.isEmpty then []
    else continueAll values (starts.flatMap fun start => choices.map (start ++ ·)) rest

/-- All strings for a list of segments, given the values of each reference. -/
def expand (values : String → List String) (segments : List Segment) : List String :=
  continueAll values [""] segments

/-- Each start is continued by itself. -/
theorem continueAll_eq_flatMap (values : String → List String) (starts : List String)
    (segments : List Segment) :
    continueAll values starts segments =
      starts.flatMap fun start => (expand values segments).map (start ++ ·) := by
  unfold expand
  induction segments generalizing starts with
  | nil => simp [continueAll]
  | cons segment rest ih =>
    cases segment with
    | text chars =>
      unfold continueAll
      rw [ih, ih ([""].map (· ++ chars))]
      simp [List.flatMap_map, String.append_assoc, Function.comp_def]
    | reference name =>
      unfold continueAll
      dsimp only
      split
      · simp
      · rw [ih, ih (([""] : List String).flatMap _)]
        simp [List.flatMap_assoc, List.flatMap_map, List.map_flatMap, String.append_assoc,
          Function.comp_def]

@[simp] theorem expand_nil (values : String → List String) : expand values [] = [""] := rfl

/-- A text stands in front of every string of what follows. -/
theorem expand_text (values : String → List String) (chars : String) (rest : List Segment) :
    expand values (.text chars :: rest) = (expand values rest).map (chars ++ ·) := by
  rw [expand, continueAll, continueAll_eq_flatMap]
  simp

/-- Every value of a reference stands in front of every string of what follows. -/
theorem expand_reference (values : String → List String) (name : String) (rest : List Segment) :
    expand values (.reference name :: rest) =
      (values name).flatMap fun v => (expand values rest).map (v ++ ·) := by
  rw [expand, continueAll]
  cases values name with
  | nil => rfl
  | cons v vs => simp [continueAll_eq_flatMap]

end Segment

/-- All strings for a template and a record.  With `encoded` the values, but not the texts, are
percent-encoded. -/
def Template.expand (t : Template) (record : Record) (encoded : Bool) : List String :=
  Segment.expand
    (fun name => if encoded then (record.get name).map iriSafe else record.get name) t.segments

end RdfMapping
