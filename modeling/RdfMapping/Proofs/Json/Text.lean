/-
Reading what was written.

The text of a value is read as that value, whatever follows it.  This goes from the inside out:
the characters of a string are read off one by one, what a value starts with tells it from the
end of an array, and the values are read by recursion on them, with the lists inside read item by
item.

The readers of values have a budget of calls.  Every call that goes on to another one takes a
character, and each of them is charged at most twice, once for the value and once for the list
it is in; so a budget of twice the characters written is enough.
-/
import RdfMapping.Json.Text
import RdfMapping.Json.Writer

namespace RdfMapping.Json

/-! ### Strings -/

/-- The control characters are read back from their code points. -/
theorem read?_codePoint : ∀ n < 32,
    Hex.read? ['0', '0', lowerDigit (n / 16), lowerDigit (n % 16)] = some n := by
  decide

theorem Piece.ofCode_toNat_of_lt {c : Char} (h : c.toNat < 32) : ofCode c.toNat = .char c := by
  have hleading : ¬ (0xD800 ≤ c.toNat ∧ c.toNat ≤ 0xDBFF) := by omega
  have htrailing : ¬ (0xDC00 ≤ c.toNat ∧ c.toNat ≤ 0xDFFF) := by omega
  simp only [ofCode, Bool.and_eq_true, decide_eq_true_eq, if_neg hleading, if_neg htrailing,
    Char.ofNat_toNat]

/-- A character that was written is read as that character, whatever follows it. -/
theorem takePieces?_escape (c : Char) (rest : List Char) :
    takePieces? (escape c ++ rest) = (takePieces? rest).map (Prod.map (.char c :: ·) id) := by
  unfold escape
  split
  case h_8 hquote hbackslash _ _ _ _ _ =>
    split
    case isTrue hcontrol =>
      simp only [List.cons_append, List.nil_append, takePieces?, read?_codePoint _ hcontrol,
        Piece.ofCode_toNat_of_lt hcontrol, Option.bind_eq_bind, Option.bind_some]
      cases takePieces? rest <;> rfl
    case isFalse hcontrol =>
      rw [List.singleton_append, takePieces?.eq_5 c rest hquote
        (fun _ _ _ _ _ h => absurd h hbackslash) (fun _ _ h => absurd h hbackslash),
        if_neg hcontrol]
      cases takePieces? rest <;> rfl
  -- The other characters are those with a short escape.
  all_goals
    simp only [List.cons_append, List.nil_append]
    rw [takePieces?.eq_4 _ _ (by simp)]
    simp only [shortEscape?, Option.bind_eq_bind, Option.bind_some]
    cases takePieces? rest <;> rfl

/-- The characters of a string are read up to its closing quote. -/
theorem takePieces?_flatMap_escape (cs rest : List Char) :
    takePieces? (cs.flatMap escape ++ '"' :: rest) = some (cs.map .char, rest) := by
  induction cs with
  | nil => rfl
  | cons c cs ih =>
      rw [List.flatMap_cons, List.append_assoc, takePieces?_escape, ih]
      rfl

theorem joinPieces?_map_char (cs : List Char) : joinPieces? (cs.map .char) = some cs := by
  induction cs with
  | nil => rfl
  | cons c cs ih =>
      rw [List.map_cons, joinPieces?, ih]
      rfl

/-- A string is read as it was written. -/
theorem takeString?_flatMap_escape (s : String) (rest : List Char) :
    takeString? (s.toList.flatMap escape ++ '"' :: rest) = some (some s, rest) := by
  simp only [takeString?, takePieces?_flatMap_escape, joinPieces?_map_char, Option.bind_eq_bind,
    Option.bind_some, Option.map_some, String.ofList_toList]
  rfl

theorem quoted_append (s : String) (rest : List Char) :
    quoted s ++ rest = '"' :: (s.toList.flatMap escape ++ '"' :: rest) := by
  simp [quoted]

/-! ### Values

A value can be written if there is no number and nothing unreadable in it.
-/

mutual

/-- Whether a value consists of strings, truth values and null. -/
def Writable : Json → Prop
  | .number _ => False
  | .unreadable => False
  | .array items => WritableItems items
  | .object members => WritableMembers members
  | _ => True

/-- Whether the items of an array can be written. -/
def WritableItems : List Json → Prop
  | [] => True
  | v :: items => v.Writable ∧ WritableItems items

/-- Whether the members of an object can be written. -/
def WritableMembers : List (String × Json) → Prop
  | [] => True
  | (_, v) :: members => v.Writable ∧ WritableMembers members

end

theorem skipSpace_cons {c : Char} (h : isSpace c = false) (cs : List Char) :
    skipSpace (c :: cs) = c :: cs := by
  rw [skipSpace, List.dropWhile_cons_of_neg (by simp [h])]

/-- What a value starts with is neither white space nor the end of an array. -/
theorem Writable.exists_head {j : Json} (h : j.Writable) :
    ∃ c cs, j.chars = c :: cs ∧ isSpace c = false ∧ c ≠ ']' := by
  match j, h with
  | .null, _ => exact ⟨_, _, rfl, by decide, by decide⟩
  | .bool true, _ => exact ⟨_, _, rfl, by decide, by decide⟩
  | .bool false, _ => exact ⟨_, _, rfl, by decide, by decide⟩
  | .string s, _ => exact ⟨_, _, rfl, by decide, by decide⟩
  | .array [], _ => exact ⟨_, _, rfl, by decide, by decide⟩
  | .array (v :: items), _ => exact ⟨'[', _, by rw [chars], by decide, by decide⟩
  | .object [], _ => exact ⟨_, _, rfl, by decide, by decide⟩
  | .object ((name, v) :: members), _ => exact ⟨'\x7b', _, by rw [chars], by decide, by decide⟩

theorem takeValue?_string (budget : Nat) (s : String) (rest : List Char) :
    takeValue? (budget + 1) (quoted s ++ rest) = some (.string s, rest) := by
  rw [quoted_append, takeValue?, skipSpace_cons (by decide)]
  simp [takeString?_flatMap_escape]

theorem takeValue?_array (budget : Nat) {c : Char} (hspace : isSpace c = false) (hend : c ≠ ']')
    (cs : List Char) : takeValue? (budget + 1) ('[' :: c :: cs) =
      (takeItems? budget (c :: cs)).map (Prod.map .array id) := by
  rw [takeValue?, skipSpace_cons (by decide)]
  simp only [skipSpace_cons hspace]
  split
  case h_1 h => exact absurd (List.cons_eq_cons.mp h).1 hend
  case h_2 => cases takeItems? budget (c :: cs) <;> rfl

theorem takeValue?_object (budget : Nat) (name : String) (rest : List Char) :
    takeValue? (budget + 1) ('\x7b' :: (quoted name ++ rest)) =
      (takeMembers? budget (quoted name ++ rest)).map (Prod.map ofMembers id) := by
  rw [quoted_append, takeValue?, skipSpace_cons (by decide)]
  cases h : takeMembers? budget ('"' :: (name.toList.flatMap escape ++ '"' :: rest)) with
  | none => simp [skipSpace_cons, isSpace, h]
  | some members => simp [skipSpace_cons, isSpace, h, Prod.map]

/-- The item that was read is followed by another one or by the end of the array. -/
theorem takeItems?_cons {budget : Nat} {cs : List Char} {v : Json} {rest : List Char}
    (h : takeValue? budget cs = some (v, ',' :: rest)) :
    takeItems? (budget + 1) cs = (takeItems? budget rest).map (Prod.map (v :: ·) id) := by
  rw [takeItems?, h]
  simp only [Option.bind_eq_bind, Option.bind_some, skipSpace_cons (c := ',') rfl]
  cases takeItems? budget rest <;> rfl

theorem takeItems?_singleton {budget : Nat} {cs : List Char} {v : Json} {rest : List Char}
    (h : takeValue? budget cs = some (v, ']' :: rest)) :
    takeItems? (budget + 1) cs = some ([v], rest) := by
  rw [takeItems?, h]
  simp only [Option.bind_eq_bind, Option.bind_some, skipSpace_cons (c := ']') rfl]
  rfl

/-- So is a member, which consists of a name and a value. -/
theorem takeMembers?_cons {budget : Nat} {name : String} {cs : List Char} {v : Json}
    {rest : List Char} (h : takeValue? budget cs = some (v, ',' :: rest)) :
    takeMembers? (budget + 1) (quoted name ++ ':' :: cs) =
      (takeMembers? budget rest).map (Prod.map ((some name, v) :: ·) id) := by
  rw [quoted_append, takeMembers?, skipSpace_cons (by decide)]
  simp only [takeString?_flatMap_escape, Option.bind_eq_bind, Option.bind_some,
    skipSpace_cons (c := ':') rfl, h,
    skipSpace_cons (c := ',') rfl]
  cases takeMembers? budget rest <;> rfl

theorem takeMembers?_singleton {budget : Nat} {name : String} {cs : List Char} {v : Json}
    {rest : List Char} (h : takeValue? budget cs = some (v, '\x7d' :: rest)) :
    takeMembers? (budget + 1) (quoted name ++ ':' :: cs) = some ([(some name, v)], rest) := by
  rw [quoted_append, takeMembers?, skipSpace_cons (by decide)]
  simp only [takeString?_flatMap_escape, Option.bind_eq_bind, Option.bind_some,
    skipSpace_cons (c := ':') rfl, h,
    skipSpace_cons (c := '\x7d') rfl]
  rfl

/-- Members whose names all have a value make an object. -/
theorem ofMembers_map (members : List (String × Json)) :
    ofMembers (members.map (Prod.map some id)) = .object members := by
  have hmembers : ∀ f : Option String × Json → Option (String × Json),
      (∀ name v, f (some name, v) = some (name, v)) →
        (members.map (Prod.map some id)).mapM f = some members := by
    intro f hf
    induction members with
    | nil => rfl
    | cons m members ih =>
        obtain ⟨name, v⟩ := m
        rw [List.map_cons, List.mapM_cons, Prod.map_apply, hf, ih]
        rfl
  unfold ofMembers
  rw [hmembers _ fun _ _ => rfl]

mutual

/-- A value is read as it was written. -/
theorem takeValue?_chars : ∀ (j : Json), j.Writable → ∀ (budget : Nat) (rest : List Char),
    2 * j.chars.length ≤ budget → takeValue? budget (j.chars ++ rest) = some (j, rest)
  | j, h, 0, rest, hbudget => by
    obtain ⟨c, cs, hchars, -⟩ := h.exists_head
    rw [hchars, List.length_cons] at hbudget
    omega
  | .null, _, budget + 1, rest, _ => rfl
  | .bool true, _, budget + 1, rest, _ => rfl
  | .bool false, _, budget + 1, rest, _ => rfl
  | .string s, _, budget + 1, rest, _ => takeValue?_string budget s rest
  | .array [], _, budget + 1, rest, _ => rfl
  | .object [], _, budget + 1, rest, _ => rfl
  | .array (v :: items), h, budget + 1, rest, hbudget => by
    obtain ⟨c, cs, hchars, hspace, hend⟩ := h.1.exists_head
    rw [chars, List.length_cons] at hbudget
    have hitems := takeItems?_chars v items h.1 h.2 budget rest (by omega)
    rw [chars, List.cons_append, List.append_assoc]
    rw [hchars, List.cons_append] at hitems ⊢
    rw [takeValue?_array budget hspace hend, hitems]
    rfl
  | .object ((name, v) :: members), h, budget + 1, rest, hbudget => by
    rw [chars, List.length_cons] at hbudget
    have hmembers := takeMembers?_chars name v members h.1 h.2 budget rest (by omega)
    rw [chars, List.cons_append, List.append_assoc, List.cons_append, List.append_assoc,
      takeValue?_object, hmembers]
    exact congrArg (fun j => some (j, rest)) (ofMembers_map ((name, v) :: members))

/-- So are the items of an array. -/
theorem takeItems?_chars : ∀ (v : Json) (items : List Json), v.Writable → WritableItems items →
    ∀ (budget : Nat) (rest : List Char), 2 * (v.chars ++ moreItems items).length ≤ budget →
      takeItems? budget (v.chars ++ (moreItems items ++ rest)) = some (v :: items, rest)
  | v, items, hv, _, 0, rest, hbudget => by
    obtain ⟨c, cs, hchars, -⟩ := hv.exists_head
    rw [hchars, List.cons_append, List.length_cons] at hbudget
    omega
  | v, [], hv, _, budget + 1, rest, hbudget => by
    rw [moreItems, List.length_append, List.length_singleton] at hbudget
    exact takeItems?_singleton (takeValue?_chars v hv budget (']' :: rest) (by omega))
  | v, w :: items, hv, hitems, budget + 1, rest, hbudget => by
    rw [moreItems, List.length_append, List.length_cons] at hbudget
    have hfirst := takeValue?_chars v hv budget
      (',' :: (w.chars ++ (moreItems items ++ rest))) (by omega)
    have hothers := takeItems?_chars w items hitems.1 hitems.2 budget rest (by omega)
    rw [moreItems, List.cons_append, List.append_assoc, takeItems?_cons hfirst, hothers]
    rfl

/-- So are the members of an object. -/
theorem takeMembers?_chars : ∀ (name : String) (v : Json) (members : List (String × Json)),
    v.Writable → WritableMembers members → ∀ (budget : Nat) (rest : List Char),
      2 * (quoted name ++ ':' :: (v.chars ++ moreMembers members)).length ≤ budget →
        takeMembers? budget (quoted name ++ ':' :: (v.chars ++ (moreMembers members ++ rest))) =
          some (((name, v) :: members).map (Prod.map some id), rest)
  | name, v, [], hv, _, budget + 1, rest, hbudget => by
    rw [moreMembers, List.length_append, List.length_cons, List.length_append] at hbudget
    exact takeMembers?_singleton (takeValue?_chars v hv budget ('\x7d' :: rest) (by omega))
  | name, v, (name', w) :: members, hv, hmembers, budget + 1, rest, hbudget => by
    rw [moreMembers, List.length_append, List.length_cons, List.length_append,
      List.length_cons] at hbudget
    have hfirst := takeValue?_chars v hv budget
      (',' :: (quoted name' ++ ':' :: (w.chars ++ (moreMembers members ++ rest)))) (by omega)
    have hothers := takeMembers?_chars name' w members hmembers.1 hmembers.2 budget rest
      (by omega)
    rw [moreMembers, List.cons_append, List.append_assoc, List.cons_append, List.append_assoc,
      takeMembers?_cons hfirst, hothers]
    rfl

end

end RdfMapping.Json
