import Composer.Calendar.Layout
import Composer.Proofs.Decimal.Digits
import Mathlib.Data.List.TakeWhile
/-!
# Composer.Proofs.Calendar.Layout

**Records of days are read back.** A number is read as far as its digits go or as far as the field
is wide, so each part of a record ends where it was written to end: before a hyphen or with the
text. Years need the most care, since their sign and their width depend on the year.
-/

namespace Composer

/-! ### Digits -/

theorem Text.not_isBlank_of_isDigit {c : Char} (h : c.isDigit = true) : isBlank c = false := by
  have hbounds : 48 ≤ c.toNat ∧ c.toNat ≤ 57 := Char.isDigit_iff_toNat.mp h
  simp [isBlank]
  omega

namespace Calendar

/-! ### Parts of a record -/

/-- Digits are read up to where they end, unless the field is too narrow for them. -/
theorem takeNumber_append {most : Nat} {ds rest : List Char} (hds : ∀ c ∈ ds, c.isDigit = true)
    (hne : ds ≠ []) (hmost : ds.length ≤ most) (hrest : ∀ c ∈ rest.head?, c.isDigit = false) :
    takeNumber most (ds ++ rest) = some (Decimal.foldDigits 0 ds, rest) := by
  have htrim : Text.trimStart (ds ++ rest) = ds ++ rest := by
    cases ds with
    | nil => exact absurd rfl hne
    | cons c ds =>
        simp [Text.trimStart, Text.not_isBlank_of_isDigit (hds c List.mem_cons_self)]
  have hend : rest.takeWhile Char.isDigit = [] := by
    cases rest with
    | nil => rfl
    | cons c rest => simp [hrest c rfl]
  have htake : ((ds ++ rest).takeWhile Char.isDigit).take most = ds := by
    rw [List.takeWhile_append_of_pos hds, hend, List.append_nil, List.take_of_length_le hmost]
  simp [takeNumber, htrim, htake, hne]

theorem takeNumber_padded {most width n : Nat} (hmost : (Decimal.padded width n).length ≤ most)
    {rest : List Char} (hrest : ∀ c ∈ rest.head?, c.isDigit = false) :
    takeNumber most (Decimal.padded width n ++ rest) = some (n, rest) := by
  rw [takeNumber_append (fun _ => Decimal.isDigit_of_mem_padded) (Decimal.padded_ne_nil width n)
    hmost hrest, Decimal.foldDigits_padded]

theorem trimStart_of_isDigit {c : Char} (h : c.isDigit = true) (s : List Char) :
    Text.trimStart (c :: s) = c :: s := by
  simp [Text.trimStart, Text.not_isBlank_of_isDigit h]

/-- A year without a sign has up to four digits. -/
theorem takeYear_of_isDigit {c : Char} (h : c.isDigit = true) (s : List Char) :
    takeYear (c :: s) = (takeNumber 4 (c :: s)).map fun (n, r) => ((n : Int), r) := by
  rw [takeYear, trimStart_of_isDigit h]
  split
  · next heq =>
      cases heq
      cases h
  · next heq =>
      cases heq
      cases h
  · rfl

theorem takeYear_minus (s : List Char) : takeYear ('-' :: s) =
    if s.head?.any Char.isDigit then (takeNumber s.length s).map fun (n, r) => (-(n : Int), r)
    else none := rfl

theorem takeYear_plus (s : List Char) : takeYear ('+' :: s) =
    if s.head?.any Char.isDigit then (takeNumber s.length s).map fun (n, r) => ((n : Int), r)
    else none := rfl

/-- A year is read back, whatever its sign and width. -/
theorem takeYear_yearText (year : Int) (rest : List Char) :
    takeYear (yearText year ++ '-' :: rest) = some (year, '-' :: rest) := by
  have hhyphen : ∀ c ∈ ('-' :: rest).head?, c.isDigit = false := by
    rintro _ ⟨⟩
    rfl
  obtain ⟨c, ds, hpadded⟩ :=
    List.exists_cons_of_ne_nil (Decimal.padded_ne_nil 4 year.natAbs)
  have hdigit : c.isDigit = true := Decimal.isDigit_of_mem_padded (hpadded ▸ List.mem_cons_self)
  -- Behind a sign all digits are read.
  have hsigned : takeNumber (Decimal.padded 4 year.natAbs ++ '-' :: rest).length
      (Decimal.padded 4 year.natAbs ++ '-' :: rest) = some (year.natAbs, '-' :: rest) :=
    takeNumber_padded (by simp) hhyphen
  have hhead : (Decimal.padded 4 year.natAbs ++ '-' :: rest).head?.any Char.isDigit = true := by
    rw [hpadded]
    exact hdigit
  unfold yearText
  split
  · have hyear : -(year.natAbs : Int) = year := by omega
    rw [List.cons_append, takeYear_minus, if_pos hhead, hsigned]
    exact congrArg (fun y => some (y, '-' :: rest)) hyear
  · have hyear : (year.natAbs : Int) = year := by omega
    split
    · rw [List.cons_append, takeYear_plus, if_pos hhead, hsigned]
      exact congrArg (fun y => some (y, '-' :: rest)) hyear
    · have hlength : (Decimal.padded 4 year.natAbs).length = 4 :=
        Decimal.length_padded (by decide) (by omega)
      have hnumber := takeNumber_padded hlength.le hhyphen
      rw [hpadded, List.cons_append] at hnumber ⊢
      rw [takeYear_of_isDigit hdigit, hnumber]
      exact congrArg (fun y => some (y, '-' :: rest)) hyear

theorem afterHyphen_hyphen (s : List Char) : afterHyphen ('-' :: s) = some s := rfl

/-! ### Days -/

theorem month_le {year : Int} {month : Nat} (h : 1 ≤ monthLength year month) : month ≤ 12 := by
  cases month with
  | zero => exact Nat.zero_le _
  | succ m =>
      by_contra hlarge
      have hnone : (monthLengths year)[m]? = none :=
        List.getElem?_eq_none (by simp [monthLengths]; omega)
      simp [monthLength, hnone] at h

theorem monthLength_le (year : Int) (month : Nat) : monthLength year month ≤ 31 := by
  cases month with
  | zero => exact Nat.zero_le _
  | succ m =>
      have hall : ∀ n ∈ monthLengths year, n ≤ 31 := by
        cases h : isLeap year <;> simp [monthLengths, h]
      cases h : (monthLengths year)[m]? with
      | none => simp [monthLength, h]
      | some n =>
          rw [monthLength, h]
          exact hall n (List.mem_of_getElem? h)

theorem Date.of?_self (d : Date) : Date.of? d.year d.month d.day = some d := by
  rw [Date.of?, dif_pos d.inCalendar, dif_pos d.inMonth]

/-- **The record of a day is read back as that day.** -/
theorem Date.ofRecord?_record (d : Date) : Date.ofRecord? d.record = some d := by
  have hmonth : (Decimal.padded 2 d.month).length = 2 :=
    Decimal.length_padded (by decide)
      (Nat.lt_of_le_of_lt (month_le (Nat.le_trans d.inMonth.1 d.inMonth.2)) (by decide))
  have hday : (Decimal.padded 2 d.day).length = 2 :=
    Decimal.length_padded (by decide)
      (Nat.lt_of_le_of_lt (Nat.le_trans d.inMonth.2 (monthLength_le _ _)) (by decide))
  have hmonthRead : takeNumber 2 (Decimal.padded 2 d.month ++ '-' :: Decimal.padded 2 d.day) =
      some (d.month, '-' :: Decimal.padded 2 d.day) :=
    takeNumber_padded hmonth.le (by rintro _ ⟨⟩; rfl)
  have hdayRead : takeNumber 2 (Decimal.padded 2 d.day ++ []) = some (d.day, []) :=
    takeNumber_padded hday.le (by rintro _ ⟨⟩)
  rw [List.append_nil] at hdayRead
  have hrecord : d.record.toList = yearText d.year ++
      '-' :: (Decimal.padded 2 d.month ++ '-' :: Decimal.padded 2 d.day) := by
    simp [Date.record]
  simp -implicitDefEqProofs only [Date.ofRecord?, hrecord, Option.bind_eq_bind, Option.bind_some,
    takeYear_yearText, afterHyphen_hyphen, hmonthRead, hdayRead, Text.allBlank, List.all_nil,
    if_true, Date.of?_self]

end Calendar

end Composer
