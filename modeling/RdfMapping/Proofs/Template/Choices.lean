/-
The order in which a template is filled in.

A choice picks one value for every place that a template has for one, by its position among the
values there.  All choices are listed like the numbers of a counter whose places have bounds of
their own: `choices` lists them, `mem_choices` says that none is missing and none goes past a
bound, and `pairwise_choices` that each of them comes before all later ones in lexicographic
order.

Filling in follows this list, `Segment.expand_eq_map_choices`, although it never makes a choice: it
lets all strings grow at once.  A reference that occurs twice has two places and is chosen for
twice.
-/
import Mathlib.Algebra.BigOperators.Ring.List
import Mathlib.Algebra.GroupWithZero.Nat
import Mathlib.Data.List.GetD
import RdfMapping.Proofs.Template.Anchored

namespace RdfMapping

/-! ### Choices -/

/-- All choices of one position below each bound, the last position changing fastest. -/
def choices : List Nat → List (List Nat)
  | [] => [[]]
  | bound :: bounds => (List.range bound).flatMap fun i => (choices bounds).map (i :: ·)

/-- A choice has one position for each bound, and it is below it. -/
theorem mem_choices {choice bounds : List Nat} :
    choice ∈ choices bounds ↔ List.Forall₂ (· < ·) choice bounds := by
  induction bounds generalizing choice with
  | nil => simp [choices]
  | cons bound bounds ih =>
      rw [choices, List.mem_flatMap, List.forall₂_cons_right_iff]
      constructor
      · intro h
        obtain ⟨i, hi, hchoice⟩ := h
        obtain ⟨others, hothers, rfl⟩ := List.mem_map.mp hchoice
        exact ⟨i, others, List.mem_range.mp hi, ih.mp hothers, rfl⟩
      · intro h
        obtain ⟨i, others, hi, hothers, rfl⟩ := h
        exact ⟨i, List.mem_range.mpr hi, List.mem_map.mpr ⟨others, ih.mpr hothers, rfl⟩⟩

/-- Every choice comes before those that are listed after it. -/
theorem pairwise_choices (bounds : List Nat) : (choices bounds).Pairwise (· < ·) := by
  induction bounds with
  | nil => simp [choices]
  | cons bound bounds ih =>
      rw [choices, List.pairwise_flatMap]
      constructor
      · intro i _
        rw [List.pairwise_map]
        exact ih.imp fun hless => List.cons_lt_cons_iff.mpr (Or.inr ⟨rfl, hless⟩)
      · refine List.pairwise_lt_range.imp ?_
        intro i j hless choice hchoice choice' hchoice'
        obtain ⟨others, -, rfl⟩ := List.mem_map.mp hchoice
        obtain ⟨others', -, rfl⟩ := List.mem_map.mp hchoice'
        exact List.cons_lt_cons_iff.mpr (Or.inl hless)

namespace Segment

/-! ### Filling in by a choice -/

/-- The segments with the text of the chosen position in the place of each reference. -/
def fillAt (text : String → Nat → String) : List Segment → List Nat → String
  | .text chars :: rest, choice => chars ++ fillAt text rest choice
  | .reference name :: rest, i :: choice => text name i ++ fillAt text rest choice
  | _, _ => ""

variable {values : String → List String} {text : String → Nat → String}

/-- What is done for every value of a list is done for every position. -/
theorem flatMap_eq_flatMap_range {α : Type} {vs : List String} {read : Nat → String}
    (hread : ∀ i (h : i < vs.length), read i = vs[i]) (f : String → List α) :
    vs.flatMap f = (List.range vs.length).flatMap fun i => f (read i) := by
  have hvs : (List.range vs.length).map read = vs := by
    refine List.ext_getElem (by simp) ?_
    intro i _ hi
    rw [List.getElem_map, List.getElem_range, hread i hi]
  calc
    vs.flatMap f = ((List.range vs.length).map read).flatMap f := by rw [hvs]
    _ = (List.range vs.length).flatMap fun i => f (read i) := List.flatMap_map ..

/-- There is one string for each choice, in the order of the choices. -/
theorem expand_eq_map_choices
    (htext : ∀ name i (h : i < (values name).length), text name i = (values name)[i])
    (segments : List Segment) :
    expand values segments =
      (choices ((references segments).map fun name => (values name).length)).map
        (fillAt text segments) := by
  induction segments with
  | nil => rfl
  | cons segment rest ih =>
      cases segment with
      | text chars =>
          -- A text takes nothing from the choice.
          rw [expand_text, ih, references_text, List.map_map]
          rfl
      | reference name =>
          -- The positions for this place are the outer loop on both sides.
          rw [expand_reference, ih, flatMap_eq_flatMap_range (htext name), references_reference,
            List.map_cons, choices, List.map_flatMap]
          simp only [List.map_map]
          rfl

end Segment

/-! ### Records -/

/-- A value as it stands in a term of the type: in an IRI it is percent-encoded. -/
def TermType.spell (type : TermType) (value : String) : String :=
  if type = .iri then iriSafe value else value

/-- The numbers of values that a record has for the references of a template, in order. -/
def Template.counts (t : Template) (r : Record) : List Nat :=
  t.references.map fun name => (r.get name).length

theorem Template.expand_eq_spell (t : Template) (r : Record) (type : TermType) :
    t.expand r (type == .iri) =
      Segment.expand (fun name => (r.get name).map type.spell) t.segments := by
  have hspell : ∀ name, (if (type == .iri) = true then (r.get name).map iriSafe else r.get name) =
      (r.get name).map type.spell := by
    intro name
    by_cases htype : type = .iri
    · rw [if_pos (beq_iff_eq.mpr htype)]
      exact List.map_congr_left fun value _ => by rw [TermType.spell, if_pos htype]
    · rw [if_neg (mt beq_iff_eq.mp htype)]
      exact (List.map_id'' (fun value => by rw [TermType.spell, if_neg htype]) _).symm
  rw [expand]
  simp only [hspell]

/--
**A template is filled in by every choice, in lexicographic order.**  A choice has a position for
each occurrence of a reference among its values, and the string for it has these values in their
places, percent-encoded exactly for IRIs.  So there is no string exactly if some reference has no
value, and otherwise as many as the numbers of values make when multiplied.
-/
theorem Template.expand_in_order (t : Template) (r : Record) (type : TermType) :
    t.expand r (type == .iri) = (choices (t.counts r)).map
        (Segment.fillAt (fun name i => type.spell ((r.get name).getD i "")) t.segments) ∧
      (∀ choice, choice ∈ choices (t.counts r) ↔ List.Forall₂ (· < ·) choice (t.counts r)) ∧
      (choices (t.counts r)).Pairwise (· < ·) ∧
      (t.expand r (type == .iri) = [] ↔ ∃ name ∈ t.references, r.get name = []) ∧
      (t.expand r (type == .iri)).length = (t.counts r).prod := by
  have hlength : (t.expand r (type == .iri)).length = (t.counts r).prod := by
    rw [expand_eq_spell, Segment.length_expand]
    simp [counts, references, Segment.references]
  refine ⟨?_, fun _ => mem_choices, pairwise_choices _, ?_, hlength⟩
  · have htext : ∀ name i (h : i < ((r.get name).map type.spell).length),
        type.spell ((r.get name).getD i "") = ((r.get name).map type.spell)[i] := by
      intro name i h
      rw [List.getElem_map, List.getD_eq_getElem _ _ (by simpa using h)]
    rw [expand_eq_spell, Segment.expand_eq_map_choices htext]
    simp [counts, references, Segment.references]
  · rw [← List.length_eq_zero_iff, hlength, List.prod_eq_zero_iff, counts, List.mem_map]
    simp only [List.length_eq_zero_iff]

example : Segment.expand (fun _ => ["a", "b"]) [.reference "tag", .text "-", .reference "tag"] =
    ["a-a", "a-b", "b-a", "b-b"] := by decide

end RdfMapping
