/-
Writing segments as a template.

Any list of segments can be written down: characters that would not stand for themselves get a
backslash, and a reference gets braces.  What is written so is in the grammar, and its items are
those of the segments.  Reading it therefore gives segments with the same items, and if the
segments are compact there are no others.  So the writer is undone by the reader on exactly the
compact lists of segments, `Template.parse_writeAll`; those of a template are always compact.
-/
import RdfMapping.Proofs.Template.Grammar

namespace RdfMapping

open Template

/-! ### The writer -/

/-- A character of a text or of a reference, with a backslash before it unless it stands for
itself. -/
def Segment.writeChar (c : Char) : List Char := if IsPlain c then [c] else ['\\', c]

/-- A segment as it is written: a reference stands in braces. -/
def Segment.writeOne : Segment → List Char
  | text chars => chars.toList.flatMap writeChar
  | reference name => '\x7b' :: name.toList.flatMap writeChar ++ ['\x7d']

/-- Segments written one after the other. -/
def Segment.writeAll (segments : List Segment) : String :=
  String.ofList (segments.flatMap writeOne)

/-! ### What is written is in the grammar -/

/-- The sign that the writer makes of a character. -/
def Template.Sign.ofChar (c : Char) : Sign := if h : IsPlain c then .plain c h else .escaped c

namespace Template.Sign

@[simp] theorem char_ofChar (c : Char) : (ofChar c).char = c := by
  unfold ofChar
  split <;> rfl

theorem written_ofChar (c : Char) : (ofChar c).written = Segment.writeChar c := by
  unfold ofChar Segment.writeChar
  split <;> rfl

theorem flatMap_written_ofChar (cs : List Char) :
    (cs.map ofChar).flatMap written = cs.flatMap Segment.writeChar := by
  rw [List.flatMap_map, funext written_ofChar]

end Template.Sign

namespace Segment

/-- A segment is written as parts that stand for its items. -/
theorem exists_parts_of_segment (s : Segment) (h : ∀ name, s = reference name → name ≠ "") :
    ∃ parts : List Part, parts.flatMap Part.written = s.writeOne ∧
      parts.map Part.item = s.items := by
  cases s with
  | text chars =>
      refine ⟨(chars.toList.map Sign.ofChar).map .sign, ?_, ?_⟩
      · rw [List.flatMap_map]
        exact Sign.flatMap_written_ofChar chars.toList
      · simp [Part.item, items, Function.comp_def]
  | reference name =>
      have hname : name.toList.map Sign.ofChar ≠ [] := by simpa using h name rfl
      refine ⟨[.placeholder _ hname], ?_, ?_⟩
      · simp [Part.written, writeOne, Sign.flatMap_written_ofChar]
      · simp [Part.item, items, Function.comp_def]

/-- So are segments one after the other. -/
theorem exists_parts_of_segments {segments : List Segment}
    (h : ∀ name, reference name ∈ segments → name ≠ "") :
    ∃ parts : List Part, write parts = writeAll segments ∧
      parts.map Part.item = segments.flatMap items := by
  unfold write writeAll
  induction segments with
  | nil => exact ⟨[], rfl, rfl⟩
  | cons s rest ih =>
      obtain ⟨first, hfirst, hitems⟩ := exists_parts_of_segment s fun name hs =>
        h name (hs ▸ List.mem_cons_self)
      obtain ⟨parts, hparts, hmore⟩ := ih fun name hmem => h name (List.mem_cons_of_mem _ hmem)
      rw [String.ofList_inj] at hparts
      refine ⟨first ++ parts, ?_, ?_⟩
      · rw [List.flatMap_append, List.flatMap_cons, hfirst, hparts]
      · rw [List.map_append, List.flatMap_cons, hitems, hmore]

/-- Compact segments are read as they were written. -/
theorem Compact.exists_parse {segments : List Segment} (h : Compact segments) :
    ∃ t, parse (writeAll segments) = .ok t ∧ t.segments = segments := by
  obtain ⟨parts, hwrite, hitems⟩ := exists_parts_of_segments h.name_ne
  obtain ⟨t, hparse, hsays⟩ := exists_parse_write parts
  rw [hwrite] at hparse
  rw [hitems] at hsays
  exact ⟨t, hparse, hsays.unique ⟨h, rfl⟩⟩

end Segment

namespace Template

/-- The texts of a template are as long as they can be. -/
theorem compact (t : Template) : Segment.Compact t.segments := by
  obtain ⟨parts, hparts⟩ := t.exists_parts
  obtain ⟨u, hu, hsays⟩ := exists_parse_write parts
  rw [← hparts, parse_source] at hu
  cases hu
  exact hsays.compact

/--
**Reading undoes writing on the compact lists of segments and on no others, and the segments of a
template are among them.**
-/
theorem parse_writeAll :
    (∀ segments, (∃ t, parse (Segment.writeAll segments) = .ok t ∧ t.segments = segments)
      ↔ Segment.Compact segments) ∧
    ∀ t : Template, ∃ u, parse (Segment.writeAll t.segments) = .ok u ∧ u.segments = t.segments := by
  refine ⟨fun segments => ⟨?_, Segment.Compact.exists_parse⟩, fun t => t.compact.exists_parse⟩
  rintro ⟨t, -, rfl⟩
  exact t.compact

end Template

end RdfMapping
