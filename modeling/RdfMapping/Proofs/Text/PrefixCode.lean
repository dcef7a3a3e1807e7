/-
Writings that can be taken off a text again.

A prefix code writes things in such a way that a text that starts with one of them
determines which one it is and what follows.  Writing one thing after the other then
loses nothing, provided a stop sign tells where the last one ends: `PrefixCode.flatMap`.
Where nothing is escaped, what stands on either side of a border must differ in kind instead:
`append_cancel`.

Escapers are prefix codes on characters or bytes, and their stop signs are the delimiters
they escape.
-/
import Mathlib.Data.List.Basic
import RdfMapping.Text.Hex

namespace RdfMapping

variable {α : Type}

/-- What a text starts with determines the thing written and the rest of the text. -/
def PrefixCode (write : α → List Char) : Prop :=
  ∀ a b x y, write a ++ x = write b ++ y → a = b ∧ x = y

/-- Nothing is written in a way that starts with the stop sign, nor is anything written as
nothing. -/
def Avoids (write : α → List Char) (stop : Char) : Prop :=
  ∀ a x y, write a ++ x ≠ stop :: y

/-- Things written one after the other can all be taken off, up to texts that start with nothing
that is written. -/
theorem PrefixCode.flatMap_cancel {write : α → List Char} {x y : List Char} (h : PrefixCode write)
    (hx : ∀ a z, write a ++ z ≠ x) (hy : ∀ a z, write a ++ z ≠ y) :
    ∀ as bs : List α, as.flatMap write ++ x = bs.flatMap write ++ y → as = bs ∧ x = y := by
  intro as
  induction as with
  | nil =>
      intro bs heq
      cases bs with
      | nil => simpa using heq
      | cons b bs =>
          rw [List.flatMap_cons, List.append_assoc] at heq
          exact absurd heq.symm (hx b _)
  | cons a as ih =>
      intro bs heq
      cases bs with
      | nil =>
          rw [List.flatMap_cons, List.append_assoc] at heq
          exact absurd heq (hy a _)
      | cons b bs =>
          rw [List.flatMap_cons, List.flatMap_cons, List.append_assoc, List.append_assoc] at heq
          obtain ⟨rfl, hrest⟩ := h a b _ _ heq
          obtain ⟨rfl, hxy⟩ := ih bs hrest
          exact ⟨rfl, hxy⟩

/-- Things written one after the other up to a stop sign can all be taken off. -/
theorem PrefixCode.flatMap {write : α → List Char} {stop : Char} (h : PrefixCode write)
    (hstop : Avoids write stop) (as bs : List α) (x y : List Char)
    (heq : as.flatMap write ++ stop :: x = bs.flatMap write ++ stop :: y) : as = bs ∧ x = y := by
  obtain ⟨has, hxy⟩ := h.flatMap_cancel (hstop · · x) (hstop · · y) as bs heq
  exact ⟨has, (List.cons_eq_cons.mp hxy).2⟩

/-- Nothing else is written like the same things one after the other. -/
theorem PrefixCode.flatMap_injective {write : α → List Char} (h : PrefixCode write)
    (hne : ∀ a, write a ≠ []) : Function.Injective (List.flatMap write) := by
  have hstart : ∀ a z, write a ++ z ≠ [] := fun a z => List.append_ne_nil_of_left_ne_nil (hne a) z
  intro as bs heq
  exact (h.flatMap_cancel hstart hstart as bs (by rw [heq])).1

/-- What has a property throughout ends where the property first fails. -/
theorem append_cancel {p : α → Bool} {as bs x y : List α} (has : ∀ a ∈ as, p a = true)
    (hbs : ∀ b ∈ bs, p b = true) (hx : ∀ c ∈ x.head?, p c = false)
    (hy : ∀ c ∈ y.head?, p c = false) (h : as ++ x = bs ++ y) : as = bs ∧ x = y := by
  have hnone : ∀ z : List α, (∀ c ∈ z.head?, p c = false) → z.takeWhile p = [] := by
    intro z hz
    cases z with
    | nil => rfl
    | cons c z => simp [hz c rfl]
  have htake : as = bs := by
    have := congrArg (List.takeWhile p) h
    rwa [List.takeWhile_append_of_pos has, List.takeWhile_append_of_pos hbs, hnone x hx,
      hnone y hy, List.append_nil, List.append_nil] at this
  subst htake
  exact ⟨rfl, List.append_cancel_left h⟩

/-- A text without a character ends where that character first stands. -/
theorem append_cons_cancel {stop : Char} {as bs x y : List Char} (has : stop ∉ as)
    (hbs : stop ∉ bs) (h : as ++ stop :: x = bs ++ stop :: y) : as = bs ∧ x = y := by
  have hother : ∀ cs : List Char, stop ∉ cs → ∀ c ∈ cs, (c != stop) = true := by
    intro cs hcs c hc
    rw [bne_iff_ne]
    rintro rfl
    exact hcs hc
  obtain ⟨hleft, hright⟩ := append_cancel (p := (· != stop)) (hother as has) (hother bs hbs)
    (by simp) (by simp) h
  exact ⟨hleft, (List.cons_eq_cons.mp hright).2⟩

/-! ### Hexadecimal digits -/

namespace Hex

theorem digit_inj : ∀ n < 16, ∀ m < 16, digit n = digit m → n = m := by decide

/-- Four digits hold every number that is small enough. -/
theorem four_inj {n m : Nat} (hn : n < 65536) (hm : m < 65536) (h : four n = four m) : n = m := by
  simp only [four, List.cons.injEq, and_true] at h
  obtain ⟨h₁, h₂, h₃, h₄⟩ := h
  have hlt : ∀ k, k % 16 < 16 := fun k => Nat.mod_lt k (by decide)
  have h₁ := digit_inj _ (hlt _) _ (hlt _) h₁
  have h₂ := digit_inj _ (hlt _) _ (hlt _) h₂
  have h₃ := digit_inj _ (hlt _) _ (hlt _) h₃
  have h₄ := digit_inj _ (hlt _) _ (hlt _) h₄
  omega

end Hex

end RdfMapping
