import Composer.Decimal.Layout
import Composer.Decimal.Reading
import Composer.Text.Phrase
import Mathlib.Algebra.Order.Ring.Int
/-!
# Composer.Proofs.Decimal.Digits

**The digits of a number are read back as the number.** Zeros in front make no difference, and there
are none unless they are asked for.
-/

namespace Composer.Decimal

theorem foldDigits_append (n : Nat) (ds ds' : List Char) :
    foldDigits n (ds ++ ds') = foldDigits (foldDigits n ds) ds' :=
  List.foldl_append

theorem foldDigits_eq_ofDigitChars (n : Nat) (ds : List Char) :
    foldDigits n ds = Nat.ofDigitChars 10 ds n :=
  Nat.ofDigitChars_eq_foldl.symm

/-- Every further digit makes the number larger, if it changes it. -/
theorem le_foldDigits (n : Nat) (ds : List Char) : n ≤ foldDigits n ds := by
  induction ds generalizing n with
  | nil => exact Nat.le_refl n
  | cons d ds ih =>
      have hstep := ih (10 * n + (d.toNat - '0'.toNat))
      exact Nat.le_trans (by omega) hstep

/-! ### Digits of a number -/

theorem isDigit_of_mem_digitsOf {n : Nat} {c : Char} (h : c ∈ digitsOf n) : c.isDigit = true :=
  Nat.isDigit_of_mem_toDigits (by decide) (by decide) h

theorem digitsOf_ne_nil (n : Nat) : digitsOf n ≠ [] :=
  Nat.toDigits_ne_nil

@[simp] theorem foldDigits_digitsOf (n : Nat) : foldDigits 0 (digitsOf n) = n := by
  rw [foldDigits_eq_ofDigitChars, digitsOf, Nat.ofDigitChars_ten_toDigits]

/-- The first digit is not nought, unless the number is. -/
theorem head?_digitsOf_ne {n : Nat} (h : 0 < n) : (digitsOf n).head? ≠ some '0' := by
  induction n using Nat.strongRecOn with
  | ind n ih =>
      by_cases hlt : n < 10
      · have hdigit : ∀ d < 10, 0 < d → [Nat.digitChar d].head? ≠ some '0' := by decide
        rw [digitsOf, Nat.toDigits_of_lt_base hlt]
        exact hdigit n hlt h
      · have hrest : (digitsOf (n / 10)).head? ≠ some '0' := ih (n / 10) (by omega) (by omega)
        obtain ⟨d, ds, hds⟩ := List.exists_cons_of_ne_nil (digitsOf_ne_nil (n / 10))
        rw [digitsOf, Nat.toDigits_of_base_le (by decide) (by omega), ← digitsOf, hds]
        rw [hds] at hrest
        exact hrest

/-! ### Padding -/

theorem isDigit_of_mem_padded {width n : Nat} {c : Char} (h : c ∈ padded width n) :
    c.isDigit = true := by
  rcases List.mem_append.mp h with h | h
  · rw [List.eq_of_mem_replicate h]
    rfl
  · exact isDigit_of_mem_digitsOf h

theorem padded_ne_nil (width n : Nat) : padded width n ≠ [] := by
  simp [padded, digitsOf_ne_nil]

/-- Padding does not change the number. -/
theorem foldDigits_padded (width n : Nat) : foldDigits 0 (padded width n) = n := by
  rw [padded, foldDigits_append, foldDigits_eq_ofDigitChars 0, zeros,
    Nat.ofDigitChars_replicate_zero, Nat.mul_zero, foldDigits_digitsOf]

/-- A number that fits is exactly as wide as its field. -/
theorem length_padded {width n : Nat} (hwidth : 0 < width) (h : n < 10 ^ width) :
    (padded width n).length = width := by
  have hle : (Nat.toDigits 10 n).length ≤ width :=
    (Nat.length_toDigits_le_iff (by decide) hwidth).mpr h
  simp [padded, zeros, digitsOf]
  omega

/-! ### Numerals -/

theorem natural?_eq_foldDigits {ds : List Char} (hne : ds ≠ [])
    (h : ∀ c ∈ ds, c.isDigit = true) : Text.natural? ds = some (foldDigits 0 ds) :=
  if_neg (by simpa [hne] using h)

theorem natural?_digitsOf (n : Nat) : Text.natural? (digitsOf n) = some n := by
  rw [natural?_eq_foldDigits (digitsOf_ne_nil n) fun _ => isDigit_of_mem_digitsOf,
    foldDigits_digitsOf]

theorem natural?_padded (width n : Nat) : Text.natural? (padded width n) = some n := by
  rw [natural?_eq_foldDigits (padded_ne_nil width n) fun _ => isDigit_of_mem_padded,
    foldDigits_padded]

end Composer.Decimal
