/-
What the readers of an IRI take and where they stop.

A run is what `takeRun` takes: allowed characters and percent-encoded bytes, none of them the
start of a delimiter.  `takeRun_eq_ok_iff` says that it takes a run up to a delimiter or the end,
and nothing else.

The readers of an authority are made from runs, and all of them are `Delimited`.  They take off
the front of a text, stop only at a delimiter, and if they stop at one, then they do not look at
what is behind it.  Each reader has one such lemma, in the order in which they call each other.
-/
import RdfMapping.Iri.Parse
import RdfMapping.Proofs.Checked

namespace RdfMapping

/-! ### Runs -/

/-- Allowed characters and percent-encoded bytes, without a delimiter. -/
inductive Run (allowed stop : Char → Bool) : List Char → Prop
  | nil : Run allowed stop []
  | char {c : Char} {cs : List Char} (hallowed : allowed c = true) (hstop : stop c = false)
      (hmark : c ≠ '%') (rest : Run allowed stop cs) : Run allowed stop (c :: cs)
  | escape {a b : Char} {cs : List Char} (hstop : stop '%' = false) (ha : Hex.isDigit a = true)
      (hb : Hex.isDigit b = true) (rest : Run allowed stop cs) :
      Run allowed stop ('%' :: a :: b :: cs)

variable {allowed stop : Char → Bool}

theorem Run.append {cs ds : List Char} (h : Run allowed stop cs) (h' : Run allowed stop ds) :
    Run allowed stop (cs ++ ds) := by
  induction h with
  | nil => exact h'
  | char hallowed hstop hmark _ ih => exact .char hallowed hstop hmark ih
  | escape hstop ha hb _ ih => exact .escape hstop ha hb ih

/-- A run stays one where more is allowed and nothing allowed before is a delimiter. -/
theorem Run.mono {allowed' stop' : Char → Bool} {cs : List Char} (h : Run allowed stop cs)
    (hallowed : ∀ c, allowed c = true → allowed' c = true ∧ stop' c = false)
    (hmark : stop' '%' = false) : Run allowed' stop' cs := by
  induction h with
  | nil => exact .nil
  | char hc _ hne _ ih => exact .char (hallowed _ hc).1 (hallowed _ hc).2 hne ih
  | escape _ ha hb _ ih => exact .escape hmark ha hb ih

theorem Run.not_stop_or_digit {cs : List Char} (h : Run allowed stop cs) :
    ∀ c ∈ cs, stop c = false ∨ Hex.isDigit c = true := by
  induction h with
  | nil => exact nofun
  | char _ hstop _ _ ih =>
      intro d hd
      rcases List.mem_cons.mp hd with rfl | hd
      · exact .inl hstop
      · exact ih d hd
  | escape hstop ha hb _ ih =>
      intro d hd
      simp only [List.mem_cons] at hd
      rcases hd with rfl | rfl | rfl | hd
      · exact .inl hstop
      · exact .inr ha
      · exact .inr hb
      · exact ih d hd

/-- A run up to a delimiter or the end is taken. -/
theorem readRun_of_run {cs rest : List Char} (h : Run allowed stop cs)
    (hrest : ∀ c ∈ rest.head?, stop c = true) (run : List Char) :
    readRun allowed stop run (cs ++ rest) = .ok (run.reverse ++ cs, rest) := by
  induction h generalizing run with
  | nil =>
      rw [List.nil_append, List.append_nil, readRun.eq_def]
      cases rest with
      | nil => rfl
      | cons c rest => simp [hrest c rfl]
  | char hallowed hstop hmark _ ih =>
      rw [List.cons_append, readRun.eq_def]
      simp [hallowed, hstop, hmark, ih]
  | escape hstop ha hb _ ih =>
      rw [List.cons_append, List.cons_append, List.cons_append, readRun.eq_def]
      simp [hstop, ha, hb, ih]

/-- What is taken is a run up to a delimiter or the end. -/
theorem run_of_readRun {run cs taken rest : List Char}
    (h : readRun allowed stop run cs = .ok (taken, rest)) :
    ∃ more, taken = run.reverse ++ more ∧ cs = more ++ rest ∧ Run allowed stop more ∧
      ∀ c ∈ rest.head?, stop c = true := by
  fun_induction readRun allowed stop run cs with
  | case1 run =>
      cases h
      exact ⟨[], by simp, rfl, .nil, by simp⟩
  | case2 run c cs hstop =>
      cases h
      refine ⟨[], by simp, rfl, .nil, ?_⟩
      rintro d ⟨⟩
      exact hstop
  | case3 run c hstop hmark a b rest' hdigits ih =>
      obtain ⟨more, rfl, rfl, hrun, hrest⟩ := ih h
      rw [Bool.and_eq_true] at hdigits
      rw [beq_iff_eq] at hmark
      subst hmark
      exact ⟨_, by simp, rfl, .escape (by simpa using hstop) hdigits.1 hdigits.2 hrun, hrest⟩
  | case4 => cases h
  | case5 => cases h
  | case6 run c cs hstop hmark hallowed ih =>
      obtain ⟨more, rfl, rfl, hrun, hrest⟩ := ih h
      exact ⟨_, by simp, rfl,
        .char hallowed (by simpa using hstop) (by simpa using hmark) hrun, hrest⟩
  | case7 => cases h

/-- **What is taken off a text is the run up to the first delimiter.** -/
theorem takeRun_eq_ok_iff {cs taken rest : List Char} :
    takeRun allowed stop cs = .ok (taken, rest) ↔
      cs = taken ++ rest ∧ Run allowed stop taken ∧ ∀ c ∈ rest.head?, stop c = true := by
  constructor
  · intro h
    obtain ⟨more, rfl, hcs, hrun, hrest⟩ := run_of_readRun h
    exact ⟨hcs, hrun, hrest⟩
  · rintro ⟨rfl, hrun, hrest⟩
    exact readRun_of_run hrun hrest []

/-- A run that went to the end goes on. -/
theorem takeRun_append_run {cs taken more : List Char}
    (h : takeRun allowed stop cs = .ok (taken, [])) (hmore : Run allowed stop more) :
    takeRun allowed stop (cs ++ more) = .ok (taken ++ more, []) := by
  obtain ⟨rfl, hrun, -⟩ := takeRun_eq_ok_iff.mp h
  exact takeRun_eq_ok_iff.mpr ⟨by simp, hrun.append hmore, nofun⟩

/-! ### Readers -/

/-- The reader takes off the front of a text, stops at the end or at a delimiter, and does not
look behind the delimiter. -/
structure Delimited (read : List Char → Except IriError (List Char × List Char))
    (stop : Char → Bool) : Prop where
  eq_append : ∀ {cs taken rest}, read cs = .ok (taken, rest) → cs = taken ++ rest
  stops : ∀ {cs taken rest}, read cs = .ok (taken, rest) → ∀ c ∈ rest.head?, stop c = true
  append : ∀ {cs taken d rest}, read cs = .ok (taken, d :: rest) →
    ∀ more, read (cs ++ more) = .ok (taken, d :: rest ++ more)

theorem delimited_takeRun : Delimited (takeRun allowed stop) stop where
  eq_append h := (takeRun_eq_ok_iff.mp h).1
  stops h := (takeRun_eq_ok_iff.mp h).2.2
  append h more := by
    obtain ⟨rfl, hrun, hrest⟩ := takeRun_eq_ok_iff.mp h
    exact takeRun_eq_ok_iff.mpr ⟨by simp, hrun, hrest⟩

/-- The first character that is not in `p` cuts a text in two. -/
theorem cut_iff {p : Char → Bool} {cs front rest : List Char} {d : Char} :
    cs.takeWhile p = front ∧ cs.dropWhile p = d :: rest ↔
      cs = front ++ d :: rest ∧ (∀ c ∈ front, p c = true) ∧ p d = false := by
  constructor
  · rintro ⟨rfl, hdrop⟩
    have hd := List.head?_dropWhile_not p cs
    rw [hdrop] at hd
    refine ⟨?_, List.all_eq_true.mp List.all_takeWhile, hd⟩
    rw [← hdrop, List.takeWhile_append_dropWhile]
  · rintro ⟨rfl, hfront, hd⟩
    rw [List.takeWhile_append_of_pos hfront, List.dropWhile_append_of_pos hfront]
    simp [hd]

namespace Authority

theorem endsSegment_of_isDigit {c : Char} (h : IriChar.isDigit c = true) :
    ¬ IriChar.endsSegment c = true := by
  intro hends
  simp only [IriChar.endsSegment, IriChar.endsPath, Bool.or_eq_true, beq_iff_eq] at hends
  rcases hends with rfl | rfl | rfl <;> exact absurd h (by decide)

/-- A number is digits up to the end of the authority. -/
theorem takeNumber_eq_ok_iff {cs digits rest : List Char} :
    takeNumber cs = .ok (digits, rest) ↔
      cs = digits ++ rest ∧ (∀ c ∈ digits, IriChar.isDigit c = true) ∧
        ∀ c ∈ rest.head?, IriChar.endsSegment c = true := by
  constructor
  · intro h
    induction cs generalizing digits with
    | nil =>
        cases h
        exact ⟨rfl, by simp, by simp⟩
    | cons c cs ih =>
        rw [takeNumber] at h
        by_cases hends : IriChar.endsSegment c = true
        · rw [if_pos hends] at h
          cases h
          exact ⟨rfl, by simp, by simpa using hends⟩
        · rw [if_neg hends] at h
          by_cases hdigit : IriChar.isDigit c = true
          · rw [if_pos hdigit] at h
            obtain ⟨⟨digits, rest⟩, hmore, h⟩ := bind_eq_ok_iff.mp h
            cases h
            obtain ⟨rfl, hdigits, hrest⟩ := ih hmore
            exact ⟨rfl, by simpa [hdigit] using hdigits, hrest⟩
          · rw [if_neg hdigit] at h
            cases h
  · rintro ⟨rfl, hdigits, hrest⟩
    induction digits with
    | nil =>
        cases rest with
        | nil => rfl
        | cons c rest => rw [List.nil_append, takeNumber, if_pos (hrest c rfl)]
    | cons c digits ih =>
        have hdigit := hdigits c (by simp)
        rw [List.cons_append, takeNumber, if_neg (endsSegment_of_isDigit hdigit), if_pos hdigit,
          ih fun d hd => hdigits d (by simp [hd])]
        rfl

theorem delimited_takeNumber : Delimited takeNumber IriChar.endsSegment where
  eq_append h := (takeNumber_eq_ok_iff.mp h).1
  stops h := (takeNumber_eq_ok_iff.mp h).2.2
  append h more := by
    obtain ⟨rfl, hdigits, hrest⟩ := takeNumber_eq_ok_iff.mp h
    exact takeNumber_eq_ok_iff.mpr ⟨by simp, hdigits, hrest⟩

/-- An IP literal goes up to the first closing bracket. -/
theorem takeLiteral_eq_ok_iff {cs taken rest : List Char} :
    takeLiteral cs = .ok (taken, rest) ↔
      ∃ address, taken = '[' :: address ++ [']'] ∧ cs = address ++ ']' :: rest ∧
        (∀ c ∈ address, (c != ']') = true) ∧ checkLiteral address = .ok () ∧
        ∀ c ∈ rest.head?, IriChar.endsHost c = true := by
  have hbracket : ('\x5d' != '\x5d') = false := by decide
  constructor
  · intro h
    rw [takeLiteral] at h
    cases hdrop : cs.dropWhile (· != ']') with
    | nil =>
        rw [hdrop] at h
        cases h
    | cons d behind =>
        obtain ⟨hcs, haddress, hd⟩ := cut_iff.mp ⟨rfl, hdrop⟩
        obtain rfl : d = ']' := by simpa using hd
        rw [hdrop] at h
        obtain ⟨_, hcheck, h⟩ := bind_eq_ok_iff.mp h
        cases behind with
        | nil =>
            cases h
            exact ⟨_, rfl, hcs, haddress, hcheck, nofun⟩
        | cons c behind =>
            by_cases hends : IriChar.endsHost c = true
            · simp only [if_pos hends] at h
              cases h
              refine ⟨_, rfl, hcs, haddress, hcheck, ?_⟩
              rintro d ⟨⟩
              exact hends
            · simp only [if_neg hends] at h
              cases h
  · rintro ⟨address, rfl, rfl, haddress, hcheck, hrest⟩
    obtain ⟨htake, hdrop⟩ := cut_iff.mpr ⟨rfl, haddress, hbracket⟩
    rw [takeLiteral, htake, hdrop]
    refine bind_eq_ok_iff.mpr ⟨(), hcheck, ?_⟩
    cases rest with
    | nil => rfl
    | cons c rest => simp only [if_pos (hrest c rfl)]; rfl

theorem takeHost_of_head? {cs : List Char} (h : cs.head? ≠ some '[') :
    takeHost cs = takeRun IriChar.isPlain IriChar.endsHost cs := by
  unfold takeHost
  split
  · exact absurd rfl h
  · rfl

theorem delimited_takeHost : Delimited takeHost IriChar.endsHost where
  eq_append {cs taken rest} h := by
    unfold takeHost at h
    split at h
    · obtain ⟨address, rfl, rfl, -⟩ := takeLiteral_eq_ok_iff.mp h
      simp
    · exact delimited_takeRun.eq_append h
  stops {cs taken rest} h := by
    unfold takeHost at h
    split at h
    · obtain ⟨-, -, -, -, -, hrest⟩ := takeLiteral_eq_ok_iff.mp h
      exact hrest
    · exact delimited_takeRun.stops h
  append {cs taken d rest} h more := by
    by_cases hhead : cs.head? = some '['
    · obtain ⟨cs, rfl⟩ := List.head?_eq_some_iff.mp hhead
      obtain ⟨address, rfl, rfl, haddress, hcheck, hrest⟩ := takeLiteral_eq_ok_iff.mp h
      exact takeLiteral_eq_ok_iff.mpr
        ⟨address, rfl, by simp, haddress, hcheck, by simpa using hrest⟩
    · rw [takeHost_of_head? hhead] at h
      have hmore : (cs ++ more).head? ≠ some '[' := by
        cases cs with
        | nil => cases h
        | cons c cs => exact hhead
      rw [takeHost_of_head? hmore]
      exact delimited_takeRun.append h more

/-- A host is followed by a colon and a number, or stands alone. -/
theorem takeEndpoint_eq_ok_iff {cs taken rest : List Char} :
    takeEndpoint cs = .ok (taken, rest) ↔
      (∃ host behind digits, takeHost cs = .ok (host, ':' :: behind) ∧
        takeNumber behind = .ok (digits, rest) ∧ taken = host ++ ':' :: digits) ∨
      (takeHost cs = .ok (taken, rest) ∧ rest.head? ≠ some ':') := by
  constructor
  · intro h
    obtain ⟨⟨host, behind⟩, hhost, h⟩ := bind_eq_ok_iff.mp h
    simp only at h
    split at h
    · obtain ⟨⟨digits, rest'⟩, hdigits, h⟩ := bind_eq_ok_iff.mp h
      cases h
      exact .inl ⟨_, _, _, hhost, hdigits, rfl⟩
    · rename_i hcolon
      cases h
      refine .inr ⟨hhost, fun hhead => ?_⟩
      obtain ⟨behind, rfl⟩ := List.head?_eq_some_iff.mp hhead
      exact hcolon behind rfl
  · rintro (⟨host, behind, digits, hhost, hdigits, rfl⟩ | ⟨hhost, hcolon⟩)
    · exact bind_eq_ok_iff.mpr ⟨_, hhost, bind_eq_ok_iff.mpr ⟨_, hdigits, rfl⟩⟩
    · refine bind_eq_ok_iff.mpr ⟨_, hhost, ?_⟩
      simp only
      split
      · exact absurd rfl hcolon
      · rfl

theorem delimited_takeEndpoint : Delimited takeEndpoint IriChar.endsSegment where
  eq_append {cs taken rest} h := by
    rcases takeEndpoint_eq_ok_iff.mp h with ⟨host, behind, digits, hhost, hdigits, rfl⟩ | ⟨hhost, -⟩
    · obtain rfl := delimited_takeHost.eq_append hhost
      obtain rfl := delimited_takeNumber.eq_append hdigits
      simp
    · exact delimited_takeHost.eq_append hhost
  stops {cs taken rest} h := by
    rcases takeEndpoint_eq_ok_iff.mp h with ⟨host, behind, digits, -, hdigits, -⟩ | ⟨hhost, hcolon⟩
    · exact delimited_takeNumber.stops hdigits
    · intro c hc
      have hends := delimited_takeHost.stops hhost c hc
      rw [IriChar.endsHost, Bool.or_eq_true, beq_iff_eq] at hends
      exact hends.resolve_left fun heq => hcolon (heq ▸ hc)
  append {cs taken d rest} h more := by
    rcases takeEndpoint_eq_ok_iff.mp h with ⟨host, behind, digits, hhost, hdigits, rfl⟩ |
      ⟨hhost, hcolon⟩
    · exact takeEndpoint_eq_ok_iff.mpr (.inl ⟨_, _, _, delimited_takeHost.append hhost more,
        delimited_takeNumber.append hdigits more, rfl⟩)
    · exact takeEndpoint_eq_ok_iff.mpr (.inr ⟨delimited_takeHost.append hhost more, hcolon⟩)

/-- A user name and an at sign come before the host, or the host is all there is. -/
theorem take_eq_ok_iff {cs taken rest : List Char} :
    take cs = .ok (taken, rest) ↔
      (∃ user behind host,
        takeRun IriChar.isUserInfo IriChar.endsUserInfo cs = .ok (user, '@' :: behind) ∧
        takeEndpoint behind = .ok (host, rest) ∧ taken = user ++ '@' :: host) ∨
      (∃ user behind, takeRun IriChar.isUserInfo IriChar.endsUserInfo cs = .ok (user, behind) ∧
        behind.head? ≠ some '@' ∧ takeEndpoint cs = .ok (taken, rest)) := by
  constructor
  · intro h
    obtain ⟨⟨user, behind⟩, huser, h⟩ := bind_eq_ok_iff.mp h
    simp only at h
    split at h
    · obtain ⟨⟨host, rest'⟩, hhost, h⟩ := bind_eq_ok_iff.mp h
      cases h
      exact .inl ⟨_, _, _, huser, hhost, rfl⟩
    · rename_i hat
      refine .inr ⟨_, _, huser, fun hhead => ?_, h⟩
      obtain ⟨behind, rfl⟩ := List.head?_eq_some_iff.mp hhead
      exact hat behind rfl
  · rintro (⟨user, behind, host, huser, hhost, rfl⟩ | ⟨user, behind, huser, hat, hhost⟩)
    · exact bind_eq_ok_iff.mpr ⟨_, huser, bind_eq_ok_iff.mpr ⟨_, hhost, rfl⟩⟩
    · refine bind_eq_ok_iff.mpr ⟨_, huser, ?_⟩
      simp only
      split
      · exact absurd rfl hat
      · exact hhost

theorem endsUserInfo_of_endsSegment {c : Char} (h : IriChar.endsSegment c = true) :
    IriChar.endsUserInfo c = true ∧ Hex.isDigit c = false := by
  simp only [IriChar.endsSegment, IriChar.endsPath, Bool.or_eq_true, beq_iff_eq] at h
  rcases h with rfl | rfl | rfl <;> decide

theorem delimited_take : Delimited take IriChar.endsSegment where
  eq_append {cs taken rest} h := by
    rcases take_eq_ok_iff.mp h with ⟨user, behind, host, huser, hhost, rfl⟩ | ⟨-, -, -, -, hhost⟩
    · obtain rfl := delimited_takeRun.eq_append huser
      obtain rfl := delimited_takeEndpoint.eq_append hhost
      simp
    · exact delimited_takeEndpoint.eq_append hhost
  stops {cs taken rest} h := by
    rcases take_eq_ok_iff.mp h with ⟨user, behind, host, -, hhost, -⟩ | ⟨-, -, -, -, hhost⟩
    · exact delimited_takeEndpoint.stops hhost
    · exact delimited_takeEndpoint.stops hhost
  append {cs taken d rest} h more := by
    rcases take_eq_ok_iff.mp h with ⟨user, behind, host, huser, hhost, rfl⟩ |
      ⟨user, behind, huser, hat, hhost⟩
    · exact take_eq_ok_iff.mpr (.inl ⟨_, _, _, delimited_takeRun.append huser more,
        delimited_takeEndpoint.append hhost more, rfl⟩)
    · cases behind with
      | nil =>
          -- The delimiter behind the host would have ended the look-out for a user name.
          obtain ⟨heq, hrun, -⟩ := takeRun_eq_ok_iff.mp huser
          rw [List.append_nil] at heq
          subst heq
          obtain rfl := delimited_takeEndpoint.eq_append hhost
          obtain ⟨hends, hdigit⟩ :=
            endsUserInfo_of_endsSegment (delimited_takeEndpoint.stops hhost d rfl)
          rcases hrun.not_stop_or_digit d (by simp) with hd | hd
          · rw [hends] at hd
            cases hd
          · rw [hdigit] at hd
            cases hd
      | cons c behind =>
          exact take_eq_ok_iff.mpr (.inr ⟨_, _, delimited_takeRun.append huser more, hat,
            delimited_takeEndpoint.append hhost more⟩)

end Authority

end RdfMapping
