/-
Computations that may end in an error, one after the other.

Whatever is checked, parsed or executed here ends in a value or in an error, and a
sequence of such computations ends at the first error.  The lemmas say when a sequence
gets through and what is left of it when only a view of the values is looked at.
-/
import Mathlib.Data.List.Forall2

namespace RdfMapping

variable {ε α β γ : Type}

/-! ### Getting through -/

theorem error_eq_ok_iff {error : ε} {a : α} {p : Prop} (h : ¬ p) :
    (.error error : Except ε α) = .ok a ↔ p :=
  iff_of_false nofun h

theorem exists_of_isOk {x : Except ε α} (h : x.isOk = true) : ∃ a, x = .ok a := by
  cases x with
  | error error => cases h
  | ok a => exact ⟨a, rfl⟩

theorem bind_eq_ok_iff {x : Except ε α} {f : α → Except ε β} {b : β} :
    (x >>= f) = .ok b ↔ ∃ a, x = .ok a ∧ f a = .ok b := by
  cases x <;> simp [bind, Except.bind]

theorem check_then_eq_ok_iff {x : Except ε Unit} {f : Unit → Except ε Unit} :
    (x >>= f) = .ok () ↔ x = .ok () ∧ f () = .ok () := by
  cases x <;> simp [bind, Except.bind]

theorem forM_eq_ok_iff {check : α → Except ε Unit} {as : List α} :
    as.forM check = .ok () ↔ ∀ a ∈ as, check a = .ok () := by
  induction as with
  | nil => simp [pure, Except.pure]
  | cons a as ih =>
      rw [List.forM, check_then_eq_ok_iff, ih]
      simp

theorem mapM_eq_ok_iff {f : α → Except ε β} {as : List α} {bs : List β} :
    as.mapM f = .ok bs ↔ List.Forall₂ (fun a b => f a = .ok b) as bs := by
  induction as generalizing bs with
  | nil => simp [pure, Except.pure, eq_comm]
  | cons a as ih =>
      rw [List.mapM_cons, List.forall₂_cons_left_iff]
      simp only [bind_eq_ok_iff, ih, pure, Except.pure, Except.ok.injEq]
      constructor
      · rintro ⟨b, hb, others, hothers, rfl⟩
        exact ⟨b, others, hb, hothers, rfl⟩
      · rintro ⟨b, others, hb, hothers, rfl⟩
        exact ⟨b, hb, others, hothers, rfl⟩

theorem exists_of_mapM_eq_ok {f : α → Except ε β} {as : List α} {bs : List β}
    (h : as.mapM f = .ok bs) {b : β} (hb : b ∈ bs) : ∃ a ∈ as, f a = .ok b := by
  have hpairs := mapM_eq_ok_iff.mp h
  clear h
  induction hpairs with
  | nil => cases hb
  | cons hfirst _ ih =>
      rcases List.mem_cons.mp hb with rfl | hlater
      · exact ⟨_, by simp, hfirst⟩
      · obtain ⟨a, ha, hok⟩ := ih hlater
        exact ⟨a, by simp [ha], hok⟩

theorem mapError_eq_ok_iff {δ : Type} {x : Except ε α} {f : ε → δ} {a : α} :
    x.mapError f = .ok a ↔ x = .ok a := by
  cases x <;> simp [Except.mapError]

/-! ### Not getting through -/

theorem bind_eq_error_iff {x : Except ε α} {f : α → Except ε β} {error : ε} :
    (x >>= f) = .error error ↔ x = .error error ∨ ∃ a, x = .ok a ∧ f a = .error error := by
  cases x <;> simp [bind, Except.bind]

/-- What is checked one after the other fails where the first check fails. -/
theorem forM_eq_error_iff {check : α → Except ε Unit} {as : List α} {error : ε} :
    as.forM check = .error error ↔ ∃ before a after, as = before ++ a :: after ∧
      (∀ earlier ∈ before, check earlier = .ok ()) ∧ check a = .error error := by
  constructor
  · intro h
    induction as with
    | nil => cases h
    | cons a as ih =>
        rw [List.forM, bind_eq_error_iff] at h
        rcases h with hfirst | ⟨⟨⟩, hfirst, hrest⟩
        · exact ⟨[], a, as, rfl, nofun, hfirst⟩
        · obtain ⟨before, b, after, rfl, hbefore, herror⟩ := ih hrest
          exact ⟨a :: before, b, after, rfl, List.forall_mem_cons.mpr ⟨hfirst, hbefore⟩, herror⟩
  · rintro ⟨before, a, after, rfl, hbefore, herror⟩
    have hrest : forM (a :: after) check = .error error := bind_eq_error_iff.mpr (.inl herror)
    rw [List.forM_eq_forM, List.forM_append]
    exact bind_eq_error_iff.mpr (.inr ⟨(), forM_eq_ok_iff.mpr hbefore, hrest⟩)

theorem mapError_eq_error_iff {δ : Type} {x : Except ε α} {f : ε → δ} {error : δ} :
    x.mapError f = .error error ↔ ∃ cause, x = .error cause ∧ f cause = error := by
  cases x <;> simp [Except.mapError]

/-! ### Views -/

theorem map_eq_ok_iff {x : Except ε α} {view : α → β} {b : β} :
    x.map view = .ok b ↔ ∃ a, x = .ok a ∧ view a = b := by
  cases x <;> simp [Except.map]

theorem map_eq_error_iff {x : Except ε α} {view : α → β} {error : ε} :
    x.map view = .error error ↔ x = .error error := by
  cases x <;> simp [Except.map]

theorem mapError_map {δ : Type} (x : Except ε α) (view : α → β) (rename : ε → δ) :
    (x.map view).mapError rename = (x.mapError rename).map view := by
  cases x <;> rfl

/-- Looking at the values of a sequence is looking at each of them. -/
theorem mapM_map_view {f : α → Except ε β} {g : α → Except ε γ} {view : β → γ} {as : List α}
    (h : ∀ a ∈ as, (f a).map view = g a) :
    (as.mapM f).map (List.map view) = as.mapM g := by
  induction as with
  | nil => rfl
  | cons a as ih =>
      rw [List.mapM_cons, List.mapM_cons, ← h a (by simp), ← ih fun b hb => h b (by simp [hb])]
      cases f a with
      | error error => rfl
      | ok b => cases as.mapM f <;> rfl

/-- What one pair of views identifies another pair that depends on it identifies too. -/
theorem map_eq_map_of_view {δ : Type} {x : Except ε α} {y : Except ε β} {u : α → γ} {v : β → γ}
    {w : α → δ} {z : β → δ} (h : x.map u = y.map v) (hview : ∀ a b, u a = v b → w a = z b) :
    x.map w = y.map z := by
  cases x with
  | error error =>
      cases y with
      | error error' => simpa [Except.map] using h
      | ok b => cases h
  | ok a =>
      cases y with
      | error error => cases h
      | ok b => simpa [Except.map] using hview a b (by simpa [Except.map] using h)

/-- Renaming the errors of a sequence is renaming those of each part. -/
theorem mapM_mapError {δ : Type} (f : α → Except ε β) (rename : ε → δ) (as : List α) :
    (as.mapM f).mapError rename = as.mapM fun a => (f a).mapError rename := by
  induction as with
  | nil => rfl
  | cons a as ih =>
      rw [List.mapM_cons, List.mapM_cons, ← ih]
      cases f a with
      | error error => rfl
      | ok b => cases as.mapM f <;> rfl

end RdfMapping
