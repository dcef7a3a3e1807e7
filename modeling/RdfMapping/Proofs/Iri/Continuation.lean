/-
IRIs that go on.

Once the authority of an IRI is over, everything that may stand in a path may follow, as long as
one likes: a run of path characters prolongs the last part that the IRI has and changes no other.
`Iri.parse_append` says so.  The scheme and the authority are out of reach by then.

Without an authority that is over this is false.  What is put behind `http://example` belongs to
the host, where a slash is a delimiter and a colon starts a number.
-/
import RdfMapping.Proofs.Iri.Runs

namespace RdfMapping

theorem IriChar.ne_of_isPath {c d : Char} (hc : isPath c = true) (hd : isPath d = false) :
    c ≠ d := by
  rintro rfl
  rw [hc] at hd
  cases hd

/-- What may stand in a path may stand in a query and in a fragment too. -/
theorem IriChar.of_isPath {c : Char} (h : isPath c = true) :
    (isQuery c = true ∧ (c == '#') = false) ∧ isFragment c = true := by
  have hmark : c ≠ '#' := ne_of_isPath h (by decide)
  simp [isQuery, isFragment, h, hmark]

namespace Iri

/-! ### Longer parts -/

/-- What may follow an authority. -/
abbrev Continues : List Char → Prop := Run IriChar.isPath IriChar.endsPath

/-- The path and what follows it with more characters at the end. -/
def prolongTail (more : List Char) : List Char × Suffix → List Char × Suffix
  | (path, ⟨query, some fragment⟩) => (path, ⟨query, some (fragment ++ more)⟩)
  | (path, ⟨some query, none⟩) => (path, ⟨some (query ++ more), none⟩)
  | (path, ⟨none, none⟩) => (path ++ more, ⟨none, none⟩)

/-- The IRI with more characters at its end. -/
def prolong (i : Iri) (more : List Char) : Iri :=
  let (path, suffix) := prolongTail more (i.path, ⟨i.query, i.fragment⟩)
  { i with path := path, query := suffix.query, fragment := suffix.fragment }

variable {cs more : List Char}

/-- A fragment goes to the end, so it is a run. -/
theorem parseFragment_mark {fragment : Option (List Char)} :
    parseFragment ('#' :: cs) = .ok fragment ↔
      fragment = some cs ∧ Run IriChar.isFragment (fun _ => false) cs := by
  constructor
  · intro h
    obtain ⟨⟨taken, rest⟩, htaken, h⟩ := bind_eq_ok_iff.mp h
    cases h
    obtain ⟨rfl, hrun, hrest⟩ := takeRun_eq_ok_iff.mp htaken
    obtain rfl : rest = [] := by
      cases rest with
      | nil => rfl
      | cons c rest => exact absurd (hrest c rfl) (by decide)
    rw [List.append_nil]
    exact ⟨rfl, hrun⟩
  · rintro ⟨rfl, hrun⟩
    exact bind_eq_ok_iff.mpr ⟨(cs, []), takeRun_eq_ok_iff.mpr ⟨by simp, hrun, nofun⟩, rfl⟩

theorem parseFragment_append {fragment : Option (List Char)} (hmore : Continues more)
    (h : parseFragment ('#' :: cs) = .ok fragment) :
    parseFragment ('#' :: cs ++ more) = .ok (some (cs ++ more)) ∧ fragment = some cs := by
  obtain ⟨rfl, hrun⟩ := parseFragment_mark.mp h
  have hmore' := hmore.mono (fun c hc => ⟨(IriChar.of_isPath hc).2, rfl⟩) rfl
  exact ⟨parseFragment_mark.mpr ⟨rfl, hrun.append hmore'⟩, rfl⟩

theorem parseSuffix_append {suffix : Suffix} {d : Char} (hmore : Continues more)
    (hd : IriChar.endsPath d = true) (h : parseSuffix (d :: cs) = .ok suffix) :
    ∃ longer, parseSuffix (d :: cs ++ more) = .ok longer ∧
      ∀ path, prolongTail more (path, suffix) = (path, longer) := by
  rw [IriChar.endsPath, Bool.or_eq_true, beq_iff_eq, beq_iff_eq] at hd
  rcases hd with rfl | rfl
  · obtain ⟨⟨query, rest⟩, hquery, h⟩ := bind_eq_ok_iff.mp h
    obtain ⟨fragment, hfragment, h⟩ := bind_eq_ok_iff.mp h
    cases h
    cases rest with
    | nil =>
        cases hfragment
        have hmore' := hmore.mono (fun c hc => (IriChar.of_isPath hc).1) rfl
        have hlonger := takeRun_append_run hquery hmore'
        exact ⟨⟨some (query ++ more), none⟩,
          bind_eq_ok_iff.mpr ⟨_, hlonger, bind_eq_ok_iff.mpr ⟨none, rfl, rfl⟩⟩, fun _ => rfl⟩
    | cons e rest =>
        obtain rfl : e = '#' := beq_iff_eq.mp (delimited_takeRun.stops hquery e rfl)
        obtain ⟨hlonger, rfl⟩ := parseFragment_append hmore hfragment
        exact ⟨⟨some query, some (rest ++ more)⟩,
          bind_eq_ok_iff.mpr ⟨_, delimited_takeRun.append hquery more,
            bind_eq_ok_iff.mpr ⟨_, hlonger, rfl⟩⟩, fun _ => rfl⟩
  · obtain ⟨fragment, hfragment, h⟩ := bind_eq_ok_iff.mp h
    cases h
    obtain ⟨hlonger, rfl⟩ := parseFragment_append hmore hfragment
    exact ⟨⟨none, some (cs ++ more)⟩, bind_eq_ok_iff.mpr ⟨_, hlonger, rfl⟩, fun _ => rfl⟩

theorem parsePath_append {tail : List Char × Suffix} (hmore : Continues more)
    (h : parsePath cs = .ok tail) : parsePath (cs ++ more) = .ok (prolongTail more tail) := by
  obtain ⟨⟨path, rest⟩, hpath, h⟩ := bind_eq_ok_iff.mp h
  obtain ⟨suffix, hsuffix, h⟩ := bind_eq_ok_iff.mp h
  cases h
  cases rest with
  | nil =>
      cases hsuffix
      exact bind_eq_ok_iff.mpr
        ⟨_, takeRun_append_run hpath hmore, bind_eq_ok_iff.mpr ⟨⟨none, none⟩, rfl, rfl⟩⟩
  | cons d rest =>
      obtain ⟨longer, hlonger, htail⟩ :=
        parseSuffix_append hmore (delimited_takeRun.stops hpath d rfl) hsuffix
      rw [htail]
      exact bind_eq_ok_iff.mpr
        ⟨_, delimited_takeRun.append hpath more, bind_eq_ok_iff.mpr ⟨_, hlonger, rfl⟩⟩

/-! ### Longer IRIs -/

/-- The IRI has an authority that something follows: a path, a query or a fragment. -/
structure PastAuthority (i : Iri) : Prop where
  authority : i.authority.isSome = true
  followed : i.path ≠ [] ∨ i.query.isSome = true ∨ i.fragment.isSome = true

theorem parseHierarchy_append {scheme : List Char} {i : Iri} (hmore : Continues more)
    (h : parseHierarchy scheme cs = .ok i) (hi : i.PastAuthority) :
    parseHierarchy scheme (cs ++ more) = .ok (i.prolong more) := by
  unfold parseHierarchy at h
  split at h
  · rename_i cs
    obtain ⟨⟨authority, rest⟩, hauthority, h⟩ := bind_eq_ok_iff.mp h
    obtain ⟨⟨path, suffix⟩, hpath, h⟩ := bind_eq_ok_iff.mp h
    cases h
    cases rest with
    | nil =>
        cases hpath
        exact absurd hi.followed (by simp)
    | cons d rest =>
        exact bind_eq_ok_iff.mpr ⟨_, Authority.delimited_take.append hauthority more,
          bind_eq_ok_iff.mpr ⟨_, parsePath_append hmore hpath, rfl⟩⟩
  · obtain ⟨⟨path, suffix⟩, -, h⟩ := bind_eq_ok_iff.mp h
    cases h
    exact absurd hi.authority (by simp)

/-- A scheme is a letter and what may follow it up to the colon. -/
theorem splitScheme?_eq_some_iff {scheme rest : List Char} :
    splitScheme? cs = some (scheme, rest) ↔
      ∃ c others, scheme = c :: others ∧ cs = c :: others ++ ':' :: rest ∧
        IriChar.isLetter c = true ∧ ∀ d ∈ others, IriChar.isScheme d = true := by
  have hcolon : IriChar.isScheme ':' = false := by decide
  constructor
  · intro h
    cases cs with
    | nil => cases h
    | cons c cs =>
        rw [splitScheme?] at h
        by_cases hletter : IriChar.isLetter c = true
        · rw [if_pos hletter] at h
          split at h
          · rename_i rest' hdrop
            cases h
            obtain ⟨hcs, hothers, -⟩ := cut_iff.mp ⟨rfl, hdrop⟩
            exact ⟨c, _, rfl, congrArg (c :: ·) hcs, hletter, hothers⟩
          · cases h
        · rw [if_neg hletter] at h
          cases h
  · rintro ⟨c, others, rfl, rfl, hletter, hothers⟩
    obtain ⟨htake, hdrop⟩ := cut_iff.mpr ⟨rfl, hothers, hcolon⟩
    rw [List.cons_append, splitScheme?, if_pos hletter, htake, hdrop]
    rfl

/-- An absolute IRI is a scheme with what follows its colon. -/
theorem parseChars_eq_ok_iff {i : Iri} :
    parseChars cs = .ok i ↔
      ∃ scheme rest, splitScheme? cs = some (scheme, rest) ∧
        parseHierarchy scheme rest = .ok i := by
  unfold parseChars
  constructor
  · intro h
    split at h
    · cases h
    · split at h
      · rename_i scheme rest hscheme
        exact ⟨scheme, rest, hscheme, h⟩
      · obtain ⟨_, -, h⟩ := bind_eq_ok_iff.mp h
        cases h
  · rintro ⟨scheme, rest, hscheme, h⟩
    obtain ⟨c, others, rfl, rfl, hletter, -⟩ := splitScheme?_eq_some_iff.mp hscheme
    rw [if_neg, hscheme]
    · exact h
    · rw [beq_iff_eq]
      rintro ⟨⟩
      exact absurd hletter (by decide)

/-- **What may stand in a path may follow an IRI whose authority is over.** -/
theorem parse_append {text : String} {i : Iri} (h : parse text = .ok i) (hi : i.PastAuthority)
    (hmore : Continues more) :
    parse (text ++ String.ofList more) = .ok (i.prolong more) := by
  obtain ⟨scheme, rest, hscheme, hrest⟩ := parseChars_eq_ok_iff.mp h
  obtain ⟨c, others, rfl, htext, hletter, hothers⟩ := splitScheme?_eq_some_iff.mp hscheme
  have hlonger : splitScheme? (text.toList ++ more) = some (c :: others, rest ++ more) :=
    splitScheme?_eq_some_iff.mpr ⟨c, others, rfl, by simp [htext], hletter, hothers⟩
  rw [parse, String.toList_append, String.toList_ofList]
  exact parseChars_eq_ok_iff.mpr ⟨_, _, hlonger, parseHierarchy_append hmore hrest hi⟩

end Iri

end RdfMapping
