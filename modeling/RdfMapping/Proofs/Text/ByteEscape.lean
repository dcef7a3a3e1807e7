/-
Texts behind their escapes.

The bytes of a text are written one by one, each as itself or as a mark with two digits.  If the
bytes that stand for themselves are ASCII and do not look like the mark, then that is a prefix
code, `Escapes.prefixCode`, and different texts are written differently,
`Escapes.encode_injective`.  Percent-encoding is one such way of writing, `escapes_unreserved`, and
that of blank-node labels the other, `escapes_alphanumeric`.
-/
import RdfMapping.Text.ByteEscape
import RdfMapping.Proofs.Text.PrefixCode

namespace RdfMapping

/-! ### Bytes -/

/-- What holds of all numbers below 256 holds of all bytes. -/
theorem forall_byte {P : UInt8 → Prop} (h : ∀ n < 256, P (UInt8.ofNat n)) (b : UInt8) : P b := by
  have hb := h b.toNat b.toNat_lt
  rwa [UInt8.ofNat_toNat] at hb

theorem toNat_ofNat_of_lt : ∀ n < 128, (Char.ofNat n).toNat = n := by decide

/-- The two digits of a byte determine it. -/
theorem Hex.ofByte_inj {a b : UInt8} (h : ofByte a = ofByte b) : a = b := by
  have ha : a.toNat < 256 := a.toNat_lt
  have hb : b.toNat < 256 := b.toNat_lt
  obtain ⟨hhigh, hlow⟩ : digit (a.toNat / 16) = digit (b.toNat / 16) ∧
      digit (a.toNat % 16) = digit (b.toNat % 16) := by simpa [ofByte] using h
  have hhigh := digit_inj _ (by omega) _ (by omega) hhigh
  have hlow := digit_inj _ (by omega) _ (by omega) hlow
  exact UInt8.toNat_inj.mp (by omega)

namespace ByteEscape

variable {keep : UInt8 → Bool} {mark : Char}

/-- The UTF-8 bytes of a text determine it. -/
theorem utf8_injective : Function.Injective utf8 := by
  intro s t h
  have hbytes : s.toUTF8.data = t.toUTF8.data := Array.toList_inj.mp h
  exact String.toByteArray_inj.mp (ByteArray.ext hbytes)

/-- The bytes that stand for themselves are ASCII, and the mark is not one of them. -/
structure Escapes (keep : UInt8 → Bool) (mark : Char) : Prop where
  ascii : ∀ b, keep b = true → b.toNat < 128
  mark_ne : ∀ b, keep b = true → Char.ofNat b.toNat ≠ mark

/-- Letters, digits and the four marks are kept apart from the percent sign. -/
theorem escapes_unreserved : Escapes isUnreserved '%' where
  ascii := forall_byte (by decide +kernel)
  mark_ne := forall_byte (by decide +kernel)

/-- Letters and digits are kept apart from the underscore. -/
theorem escapes_alphanumeric : Escapes isAlphanumeric '_' where
  ascii := forall_byte (by decide +kernel)
  mark_ne := forall_byte (by decide +kernel)

theorem byte_ne_nil (b : UInt8) : byte keep mark b ≠ [] := by
  unfold byte
  split <;> simp

theorem Escapes.prefixCode (h : Escapes keep mark) : PrefixCode (byte keep mark) := by
  intro a b x y heq
  unfold byte at heq
  by_cases ha : keep a = true
  · by_cases hb : keep b = true
    · rw [if_pos ha, if_pos hb] at heq
      obtain ⟨hchar, hrest⟩ := List.cons_eq_cons.mp heq
      have hnat := congrArg Char.toNat hchar
      rw [toNat_ofNat_of_lt _ (h.ascii a ha), toNat_ofNat_of_lt _ (h.ascii b hb)] at hnat
      exact ⟨UInt8.toNat_inj.mp hnat, hrest⟩
    · rw [if_pos ha, if_neg hb] at heq
      exact absurd (List.cons_eq_cons.mp heq).1 (h.mark_ne a ha)
  · by_cases hb : keep b = true
    · rw [if_neg ha, if_pos hb] at heq
      exact absurd (List.cons_eq_cons.mp heq).1.symm (h.mark_ne b hb)
    · rw [if_neg ha, if_neg hb] at heq
      obtain ⟨-, hrest⟩ := List.cons_eq_cons.mp heq
      obtain ⟨hdigits, hrest⟩ := List.append_inj hrest rfl
      exact ⟨Hex.ofByte_inj hdigits, hrest⟩

/-- **Different texts are written differently.** -/
theorem Escapes.encode_injective (h : Escapes keep mark) :
    Function.Injective (encode keep mark) := by
  intro s t heq
  exact utf8_injective (h.prefixCode.flatMap_injective byte_ne_nil heq)

end ByteEscape

/-- Different values are different in an IRI. -/
theorem iriSafe_injective : Function.Injective iriSafe := by
  intro s t h
  exact ByteEscape.escapes_unreserved.encode_injective (String.ofList_inj.mp h)

end RdfMapping
