/-
Reading terms off their text.

The text of a term determines the term, and where it ends, if a space follows: brackets
and quotes are escaped inside, and a label ends at the space.  There is one exception.
The language tag of a literal is written as it is, and a tag may contain spaces; what
follows such a literal may then as well belong to its tag.  `Term.render_cancel` states
exactly that.
-/
import RdfMapping.Proofs.Text.PrefixCode
import RdfMapping.Term.Canonical

namespace RdfMapping

/-! ### Escapes -/

theorem codePointEscape_cancel {c d : Char} {x y : List Char} (hc : c.toNat < 65536)
    (hd : d.toNat < 65536) (h : codePointEscape c ++ x = codePointEscape d ++ y) :
    c = d ∧ x = y := by
  simp only [codePointEscape, List.cons_append, List.cons.injEq, true_and] at h
  have hlength : (Hex.four c.toNat).length = (Hex.four d.toNat).length := rfl
  obtain ⟨hfour, hrest⟩ := List.append_inj h hlength
  exact ⟨Char.toNat_inj.mp (Hex.four_inj hc hd hfour), hrest⟩

/-- Escaping some characters behind a backslash is a prefix code if the backslash is among them
and the escapes themselves can be taken off. -/
theorem prefixCode_escaped {breaks : Char → Bool} {escape : Char → List Char}
    (hmark : breaks '\\' = true) (hescape : ∀ c, ∃ cs, escape c = '\\' :: cs)
    (hcancel : ∀ c d x y, breaks c = true → breaks d = true →
      escape c ++ x = escape d ++ y → c = d ∧ x = y) :
    PrefixCode (escaped breaks escape) := by
  intro c d x y h
  obtain ⟨cs, hcs⟩ := hescape c
  obtain ⟨ds, hds⟩ := hescape d
  unfold escaped at h
  by_cases hc : breaks c
  · by_cases hd : breaks d
    · rw [if_pos hc, if_pos hd] at h
      exact hcancel c d x y hc hd h
    · rw [if_pos hc, if_neg hd, hcs] at h
      obtain ⟨rfl, -⟩ := List.cons_eq_cons.mp h
      exact absurd hmark hd
  · by_cases hd : breaks d
    · rw [if_neg hc, if_pos hd, hds] at h
      obtain ⟨rfl, -⟩ := List.cons_eq_cons.mp h
      exact absurd hmark hc
    · rw [if_neg hc, if_neg hd] at h
      simpa using h

/-- A character that is escaped behind a backslash may serve as a stop sign. -/
theorem avoids_escaped {breaks : Char → Bool} {escape : Char → List Char} {stop : Char}
    (hbreaks : breaks stop = true) (hstop : stop ≠ '\\')
    (hescape : ∀ c, ∃ cs, escape c = '\\' :: cs) : Avoids (escaped breaks escape) stop := by
  intro c x y h
  obtain ⟨cs, hcs⟩ := hescape c
  unfold escaped at h
  by_cases hc : breaks c
  · rw [if_pos hc, hcs] at h
    exact hstop (List.cons_eq_cons.mp h).1.symm
  · rw [if_neg hc] at h
    obtain ⟨rfl, -⟩ := List.cons_eq_cons.mp h
    exact hc hbreaks

theorem toNat_lt_of_breaksIri {c : Char} (h : breaksIri c = true) : c.toNat < 65536 := by
  by_cases hspace : c ≤ ' '
  · have : c.toNat ≤ ' '.toNat := hspace
    have : ' '.toNat = 32 := rfl
    omega
  · simp only [breaksIri, hspace, decide_false, Bool.false_or, Bool.or_eq_true, beq_iff_eq] at h
    rcases h with (((((((rfl | rfl) | rfl) | rfl) | rfl) | rfl) | rfl) | rfl) | rfl <;> decide

theorem toNat_lt_of_breaksLiteral {c : Char} (h : breaksLiteral c = true) : c.toNat < 65536 := by
  simp only [breaksLiteral, isControl, Bool.or_eq_true, beq_iff_eq, Bool.and_eq_true,
    decide_eq_true_eq] at h
  rcases h with (rfl | rfl) | hcontrol
  · decide
  · decide
  · omega

/-- The characters of an IRI can be read off its text up to the closing bracket. -/
theorem prefixCode_iri : PrefixCode (escaped breaksIri codePointEscape) :=
  prefixCode_escaped (by decide) (fun c => ⟨_, rfl⟩) fun _ _ _ _ hc hd h =>
    codePointEscape_cancel (toNat_lt_of_breaksIri hc) (toNat_lt_of_breaksIri hd) h

/-- The characters that have a short escape, with the letter that stands for them. -/
def shortEscapes : List (Char × Char) :=
  [('"', '"'), ('\\', '\\'), ('\n', 'n'), ('\r', 'r'), ('\t', 't')]

/-- A character of a literal is escaped shortly or by its code point. -/
theorem literalEscape_cases (c : Char) :
    (∃ letter, (c, letter) ∈ shortEscapes ∧ literalEscape c = ['\\', letter])
      ∨ literalEscape c = codePointEscape c := by
  unfold literalEscape
  split
  · exact .inl ⟨'"', by simp_all [shortEscapes], rfl⟩
  split
  · exact .inl ⟨'\\', by simp_all [shortEscapes], rfl⟩
  split
  · exact .inl ⟨'n', by simp_all [shortEscapes], rfl⟩
  split
  · exact .inl ⟨'r', by simp_all [shortEscapes], rfl⟩
  split
  · exact .inl ⟨'t', by simp_all [shortEscapes], rfl⟩
  exact .inr rfl

theorem shortEscapes_inj :
    ∀ s ∈ shortEscapes, ∀ t ∈ shortEscapes, s.2 = t.2 → s.1 = t.1 := by decide

theorem shortEscapes_ne : ∀ s ∈ shortEscapes, s.2 ≠ 'u' := by decide

/-- The letter behind the backslash tells the short escapes apart, from each other and from code
points. -/
theorem literalEscape_cancel {c d : Char} {x y : List Char} (hc : c.toNat < 65536)
    (hd : d.toNat < 65536) (h : literalEscape c ++ x = literalEscape d ++ y) : c = d ∧ x = y := by
  rcases literalEscape_cases c with ⟨l, hl, hcl⟩ | hcl
  · rcases literalEscape_cases d with ⟨k, hk, hdk⟩ | hdk
    · rw [hcl, hdk] at h
      simp only [List.cons_append, List.nil_append, List.cons.injEq, true_and] at h
      exact ⟨shortEscapes_inj _ hl _ hk h.1, h.2⟩
    · rw [hcl, hdk] at h
      simp only [codePointEscape, List.cons_append, List.cons.injEq, true_and] at h
      exact absurd h.1 (shortEscapes_ne _ hl)
  · rcases literalEscape_cases d with ⟨k, hk, hdk⟩ | hdk
    · rw [hcl, hdk] at h
      simp only [codePointEscape, List.cons_append, List.cons.injEq, true_and] at h
      exact absurd h.1.symm (shortEscapes_ne _ hk)
    · rw [hcl, hdk] at h
      exact codePointEscape_cancel hc hd h

theorem exists_literalEscape_eq (c : Char) : ∃ cs, literalEscape c = '\\' :: cs := by
  rcases literalEscape_cases c with ⟨letter, -, h⟩ | h
  · exact ⟨_, h⟩
  · exact ⟨_, h⟩

/-- The characters of a literal's value can be read off its text up to the closing quote. -/
theorem prefixCode_literal : PrefixCode (escaped breaksLiteral literalEscape) :=
  prefixCode_escaped (by decide) exists_literalEscape_eq fun _ _ _ _ hc hd h =>
    literalEscape_cancel (toNat_lt_of_breaksLiteral hc) (toNat_lt_of_breaksLiteral hd) h

/-! ### IRIs and values -/

theorem iriText_cancel {iri other : String} {x y : List Char}
    (h : iriText iri ++ x = iriText other ++ y) : iri = other ∧ x = y := by
  unfold iriText at h
  simp only [List.cons_append, List.append_assoc, List.nil_append, List.cons.injEq, true_and] at h
  obtain ⟨hiri, hrest⟩ := prefixCode_iri.flatMap
    (avoids_escaped (by decide) (by decide) fun c => ⟨_, rfl⟩) _ _ _ _ h
  exact ⟨String.toList_inj.mp hiri, hrest⟩

/-- The value of a literal can be read off up to its closing quote. -/
theorem value_cancel {value other : String} {x y : List Char}
    (h : value.toList.flatMap (escaped breaksLiteral literalEscape) ++ '"' :: x
      = other.toList.flatMap (escaped breaksLiteral literalEscape) ++ '"' :: y) :
    value = other ∧ x = y := by
  obtain ⟨hvalue, hrest⟩ := prefixCode_literal.flatMap
    (avoids_escaped (by decide) (by decide) exists_literalEscape_eq) _ _ _ _ h
  exact ⟨String.toList_inj.mp hvalue, hrest⟩

/-- An IRI's text has no space in it. -/
theorem space_notMem_iriText (iri : String) : ' ' ∉ iriText iri := by
  have hdigit : ∀ n < 16, Hex.digit n ≠ ' ' := by decide
  have hfour : ∀ n, ' ' ∉ Hex.four n := by
    intro n hmem
    have hlt : ∀ k, k % 16 < 16 := fun k => Nat.mod_lt k (by decide)
    simp only [Hex.four, List.mem_cons, List.not_mem_nil, or_false] at hmem
    rcases hmem with h | h | h | h
    all_goals exact hdigit _ (hlt _) h.symm
  have hescaped : ∀ c, ' ' ∉ escaped breaksIri codePointEscape c := by
    intro c
    unfold escaped
    by_cases hc : breaksIri c
    · rw [if_pos hc]
      simp [codePointEscape, hfour]
    · rw [if_neg hc]
      simp only [List.mem_singleton]
      rintro rfl
      exact hc (by decide)
  simp [iriText, hescaped]

/-! ### Terms -/

namespace Term

/-- A literal has the form that `normalLiteral` gives it. -/
def Normal : Term → Prop
  | .literal value datatype language =>
    .literal value datatype language = normalLiteral value datatype language
  | _ => True

/-- A label has no space in it. -/
def Labelled : Term → Prop
  | .blank label => ' ' ∉ label.toList
  | _ => True

theorem normal_normalLiteral (value : String) (datatype language : Option String) :
    (normalLiteral value datatype language).Normal := by
  cases language with
  | none =>
      cases datatype with
      | none => rfl
      | some dt => by_cases h : Xsd.isString dt <;> simp [Normal, normalLiteral]
  | some tag => rfl

/-- A normal literal with a tag is a language string. -/
theorem eq_langString_of_normal {value tag : String} {datatype : Option String}
    (h : (literal value datatype (some tag)).Normal) :
    literal value datatype (some tag) = langString value tag := h

/-- What follows the closing quote tells literals of one value apart, unless both have a tag. -/
theorem literal_cancel {value : String} {datatype datatype' language language' : Option String}
    {x y : List Char} (ht : (literal value datatype language).Normal)
    (hu : (literal value datatype' language').Normal)
    (h : literalSuffix datatype language ++ ' ' :: x
      = literalSuffix datatype' language' ++ ' ' :: y) :
    (literal value datatype language = literal value datatype' language' ∧ x = y) ∨
      ∃ tag tag', literal value datatype language = langString value tag ∧
        literal value datatype' language' = langString value tag' ∧
        tag.toList ++ ' ' :: x = tag'.toList ++ ' ' :: y := by
  cases language with
  | some tag =>
      cases language' with
      | some tag' =>
          right
          refine ⟨tag, tag', eq_langString_of_normal ht, eq_langString_of_normal hu, ?_⟩
          simpa [literalSuffix] using h
      | none => cases datatype' <;> simp [literalSuffix] at h
  | none =>
      left
      cases language' with
      | some tag' => cases datatype <;> simp [literalSuffix] at h
      | none =>
          cases datatype with
          | none =>
              cases datatype' with
              | none => exact ⟨rfl, by simpa [literalSuffix] using h⟩
              | some dt' => simp [literalSuffix] at h
          | some dt =>
              cases datatype' with
              | none => simp [literalSuffix] at h
              | some dt' =>
                  simp only [literalSuffix, List.cons_append, List.cons.injEq, true_and] at h
                  obtain ⟨rfl, hrest⟩ := iriText_cancel h
                  exact ⟨rfl, by simpa using hrest⟩

/-- The text of a term up to a space determines the term and what follows, unless the term is a
literal with a language tag: then the tag and what follows are determined together. -/
theorem render_cancel {t u : Term} {x y : List Char} (ht : t.Normal) (hu : u.Normal)
    (hlt : t.Labelled) (hlu : u.Labelled) (h : t.render ++ ' ' :: x = u.render ++ ' ' :: y) :
    (t = u ∧ x = y) ∨ ∃ value tag tag', t = langString value tag ∧ u = langString value tag' ∧
      tag.toList ++ ' ' :: x = tag'.toList ++ ' ' :: y := by
  cases t with
  | iri value =>
      cases u with
      | iri other =>
          obtain ⟨rfl, hrest⟩ := iriText_cancel h
          exact .inl ⟨rfl, by simpa using hrest⟩
      | blank label => simp [render, iriText] at h
      | literal other datatype language => simp [render, iriText] at h
  | blank label =>
      cases u with
      | iri other => simp [render, iriText] at h
      | blank label' =>
          simp only [render, List.cons_append, List.cons.injEq, true_and] at h
          obtain ⟨hlabel, hrest⟩ := append_cons_cancel hlt hlu h
          exact .inl ⟨by rw [String.toList_inj.mp hlabel], hrest⟩
      | literal other datatype language => simp [render] at h
  | literal value datatype language =>
      cases u with
      | iri other => simp [render, iriText] at h
      | blank label => simp [render] at h
      | literal other datatype' language' =>
          simp only [render, List.cons_append, List.append_assoc, List.cons.injEq, true_and] at h
          obtain ⟨rfl, hrest⟩ := value_cancel h
          rcases literal_cancel ht hu hrest with hsame | ⟨tag, tag', htag, htag', htags⟩
          · exact .inl hsame
          · exact .inr ⟨value, tag, tag', htag, htag', htags⟩

/-- The text of a term that is no literal determines it. -/
theorem render_cancel_of_not_literal {t u : Term} {x y : List Char} (ht : t.isLiteral = false)
    (hu : u.isLiteral = false) (hlt : t.Labelled) (hlu : u.Labelled)
    (h : t.render ++ ' ' :: x = u.render ++ ' ' :: y) : t = u ∧ x = y := by
  have hnormal : ∀ v : Term, v.isLiteral = false → v.Normal := by
    intro v hv
    cases v with
    | literal value datatype language => cases hv
    | _ => trivial
  rcases render_cancel (hnormal t ht) (hnormal u hu) hlt hlu h with hsame | ⟨value, tag, tag', rfl, -⟩
  · exact hsame
  · cases ht

end Term

end RdfMapping
