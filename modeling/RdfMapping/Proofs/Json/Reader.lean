/-
Reading in limited room.

What a reader makes of a value that was written depends on the room only in that the value has to
fit: `fit` is the value read if its levels fit and the refusal of deep nesting otherwise.  A
sequence of readers fits if each of them does, `bind_eq_fit`, and an array or an object needs one
level more than what is in it, `enter_bind_eq_fit`.  `Denotes` collects what is shown of the JSON
form of every type of rule.
-/
import RdfMapping.Json.Reader
import RdfMapping.Proofs.Checked
import RdfMapping.Proofs.Json.Text

namespace RdfMapping.Json

variable {α β : Type}

/-! ### What fits -/

/-- What is read from a value in which at most the nesting is wrong. -/
def fit (room levels : Nat) (a : α) : Except DecodeError α :=
  if levels ≤ room then .ok a else .error .deep

theorem fit_of_le {room levels : Nat} (h : levels ≤ room) (a : α) : fit room levels a = .ok a :=
  if_pos h

theorem fit_of_lt {room levels : Nat} (h : room < levels) (a : α) :
    fit room levels a = .error .deep :=
  if_neg (Nat.not_le.mpr h)

/-- What is read without room only has to be right. -/
theorem bind_eq_of_ok {x : Except DecodeError α} {f : α → Except DecodeError β} {a : α}
    {y : Except DecodeError β} (hx : x = .ok a) (hf : f a = y) : (x >>= f) = y := by
  rw [hx]
  exact hf

/-- What is read first has to fit; then the rest decides. -/
theorem bind_eq_fit {x : Except DecodeError α} {f : α → Except DecodeError β} {a : α} {b : β}
    {room first levels : Nat} (hx : x = fit room first a) (hle : first ≤ levels)
    (hf : first ≤ room → f a = fit room levels b) : (x >>= f) = fit room levels b := by
  by_cases hfits : first ≤ room
  · rw [hx, fit_of_le hfits, ← hf hfits]
    rfl
  · rw [hx, fit_of_lt (by omega), fit_of_lt (by omega)]
    rfl

/-- An array or an object takes one level. -/
theorem enter_bind_eq_fit {f : Nat → Except DecodeError α} {a : α} {levels : Nat} (room : Nat)
    (hf : ∀ inside, f inside = fit inside levels a) :
    (enter room >>= f) = fit room (levels + 1) a := by
  cases room with
  | zero => rfl
  | succ inside =>
      unfold fit
      simp only [Nat.add_le_add_iff_right]
      exact hf inside

theorem enterRecord_bind_eq_fit {f : Nat → Except DecodeError α} {a : α} {fields : List String}
    {members : List (String × Json)} (room : Nat) (honce : noFieldTwice fields members = true)
    (hf : ∀ inside, f inside = fit inside (memberLevels members) a) :
    (enterRecord fields room (.object members) >>= f) = fit room (object members).levels a := by
  have hentered : enterRecord fields room (.object members) = enter room := by
    simp only [enterRecord, honce, if_true]
    exact bind_pure (enter room)
  rw [hentered]
  exact enter_bind_eq_fit room hf

/-- So does an alternative with content. -/
theorem asChoice_bind_eq_fit {name : String} {v : Json}
    {f : Nat × String × Inner (.object [(name, v)]) → Except DecodeError α} {a : α} (room : Nat)
    (hf : ∀ inside h, f (inside, name, ⟨v, h⟩) = fit inside v.levels a) :
    (asChoice room (.object [(name, v)]) >>= f) = fit room (object [(name, v)]).levels a := by
  have hlevels : (object [(name, v)]).levels = v.levels + 1 := by
    simp only [levels, memberLevels, Nat.max_zero]
  rw [asChoice, bind_assoc, hlevels]
  exact enter_bind_eq_fit room fun inside => hf inside _

/-! ### What a value denotes -/

/-- A value can be written, and is read as something in all the room it needs. -/
structure Denotes (read : Nat → Json → Except DecodeError α) (j : Json) (a : α) : Prop where
  /-- There is a text for it. -/
  writable : j.Writable
  /-- It is read wherever it fits. -/
  read_eq : ∀ room, read room j = fit room j.levels a

/-- What is made of one value only needs the room of that value. -/
theorem Denotes.read_bind_pure {read : Nat → Json → Except DecodeError α} {j : Json} {a : α}
    (h : Denotes read j a) (f : α → β) (room : Nat) :
    (read room j >>= fun a => pure (f a)) = fit room j.levels (f a) :=
  bind_eq_fit (h.read_eq room) (Nat.le_refl _) fun hfits => (fit_of_le hfits (f a)).symm

theorem asList_array (read : Nat → Json → Except DecodeError α) (room : Nat) (items : List Json) :
    asList read room (.array items) = enter room >>= fun inside => items.mapM (read inside) := by
  cases room with
  | zero => rfl
  | succ inside =>
      -- The items come with proofs that they are smaller, which reading them one by one drops.
      change (items.attach.map _).mapM _ = items.mapM (read inside)
      rw [List.mapM_map]
      change items.attach.mapM (read inside ∘ Subtype.val) = _
      rw [← List.mapM_map, List.attach_map_subtype_val]

/-- A list of values denotes a list of what they denote. -/
theorem Denotes.asList {read : Nat → Json → Except DecodeError α} {write : α → Json} {as : List α}
    (h : ∀ a ∈ as, Denotes read (write a) a) :
    Denotes (asList read) (.array (as.map write)) as where
  writable := by
    change WritableItems (as.map write)
    induction as with
    | nil => trivial
    | cons a as ih =>
        exact ⟨(h a (by simp)).writable, ih fun b hb => h b (by simp [hb])⟩
  read_eq room := by
    rw [asList_array]
    refine enter_bind_eq_fit room fun inside => ?_
    induction as with
    | nil => rfl
    | cons a as ih =>
        have hothers := ih fun b hb => h b (by simp [hb])
        rw [List.map_cons, List.mapM_cons, itemLevels]
        refine bind_eq_fit ((h a (by simp)).read_eq inside) (by omega) fun hfirst => ?_
        refine bind_eq_fit hothers (by omega) fun hrest => ?_
        exact (fit_of_le (by omega) (a :: as)).symm

theorem Denotes.asStrings (names : List String) :
    Denotes asStrings (.array (names.map .string)) names :=
  Denotes.asList fun _ _ => ⟨trivial, fun _ => rfl⟩

theorem writable_elim {read : Nat → Json → Except DecodeError α} {write : α → Json}
    (h : ∀ a, Denotes read (write a) a) (a? : Option α) : (a?.elim .null write).Writable := by
  cases a? with
  | none => trivial
  | some a => exact (h a).writable

theorem optionalField_eq_some {fields : List String} {name : String} {j : Json} {v : Inner j}
    (hfield : j.field? fields name = some v) (hv : v.1 ≠ .null) :
    j.optionalField fields name = .ok (some v) := by
  unfold optionalField
  rw [hfield]
  split
  case h_1 heq => exact absurd (congrArg Subtype.val (Option.some.inj heq)) hv
  case h_2 heq => rw [heq]
  case h_3 heq => cases heq

/-- A field that may be null is read as it was written, if null is written for nothing else. -/
theorem optionalField_bind_eq_fit {read : Nat → Json → Except DecodeError α} {write : α → Json}
    (h : ∀ a, Denotes read (write a) a) (hnull : ∀ a, write a ≠ .null) {a? : Option α} {j : Json}
    {fields : List String} {name : String} {hsmaller : sizeOf (a?.elim .null write) < sizeOf j}
    (hfield : j.field? fields name = some ⟨a?.elim .null write, hsmaller⟩) (room : Nat) :
    (j.optionalField fields name >>= fun v? => v?.mapM fun v => read room v.1) =
      fit room (a?.elim .null write).levels a? := by
  cases a? with
  | none =>
      have hread : j.optionalField fields name = .ok none := by
        unfold optionalField
        rw [hfield]
        rfl
      exact bind_eq_of_ok hread rfl
  | some a =>
      refine bind_eq_of_ok (optionalField_eq_some hfield (hnull a)) ?_
      change some <$> read room (write a) = fit room (write a).levels (some a)
      rw [(h a).read_eq room]
      unfold fit
      split <;> rfl

theorem levels_string (s : String) : (string s).levels = 0 := rfl

theorem levels_bool (b : Bool) : (bool b).levels = 0 := rfl

theorem levels_ofOption (s : Option String) : (ofOption s).levels = 0 := by
  cases s <;> rfl

theorem writable_ofOption (s : Option String) : (ofOption s).Writable := by
  cases s <;> trivial

theorem asString?_ofOption (s : Option String) : (ofOption s).asString? = .ok s := by
  cases s <;> rfl

end RdfMapping.Json
