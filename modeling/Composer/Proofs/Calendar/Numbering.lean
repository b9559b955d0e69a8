import Composer.Proofs.Calendar.Layout
/-!
# Composer.Proofs.Calendar.Numbering

**Days are numbered in their order.** Every day of a month comes before the first day of the next
month, and every day of a year before the first day of the next year. So of two days the earlier
one has the smaller number (`Date.before_iff`), and the number of days between them is never
negative.
-/

namespace Composer.Calendar

/-! ### Months -/

theorem daysBeforeMonth_succ (year : Int) {month : Nat} (h : 1 ≤ month) :
    daysBeforeMonth year (month + 1) = daysBeforeMonth year month + monthLength year month := by
  obtain ⟨m, rfl⟩ := Nat.exists_eq_add_of_le' h
  have hsum (l : List Nat) (n : Nat) :
      (l ++ [n]).foldr (· + ·) 0 = l.foldr (· + ·) 0 + n := by
    induction l with
    | nil => simp
    | cons k l ih => simp only [List.cons_append, List.foldr_cons, ih, Nat.add_assoc]
  rw [daysBeforeMonth, daysBeforeMonth, monthLength, Nat.add_sub_cancel, Nat.add_sub_cancel,
    List.take_add_one]
  cases (monthLengths year)[m]? with
  | none => simp
  | some n => exact hsum _ n

theorem daysBeforeMonth_mono (year : Int) {month month' : Nat} (h : 1 ≤ month)
    (hle : month ≤ month') : daysBeforeMonth year month ≤ daysBeforeMonth year month' := by
  induction month', hle using Nat.le_induction with
  | base => exact Nat.le_refl _
  | succ month' hle ih =>
      rw [daysBeforeMonth_succ year (h.trans hle)]
      exact ih.trans (Nat.le_add_right _ _)

/-! ### Years -/

/-- How many days a year has. -/
def yearLength (year : Int) : Nat :=
  if isLeap year then 366 else 365

theorem daysBeforeMonth_end (year : Int) : daysBeforeMonth year 13 = yearLength year := by
  unfold daysBeforeMonth monthLengths yearLength
  cases isLeap year <;> rfl

theorem isLeap_iff (year : Int) :
    isLeap year = true ↔ year % 4 = 0 ∧ (year % 100 ≠ 0 ∨ year % 400 = 0) := by
  simp [isLeap]

theorem daysBeforeYear_eq (year : Int) : daysBeforeYear year =
    365 * (year - 1) + (year - 1) / 4 - (year - 1) / 100 + (year - 1) / 400 := rfl

theorem daysBeforeYear_succ (year : Int) :
    daysBeforeYear (year + 1) = daysBeforeYear year + yearLength year := by
  have hleap := isLeap_iff year
  rw [daysBeforeYear_eq, daysBeforeYear_eq, yearLength]
  split
  · next h =>
      have hyear := hleap.mp h
      omega
  · next h =>
      have hyear := mt hleap.mpr h
      omega

theorem daysBeforeYear_mono {year year' : Int} (h : year ≤ year') :
    daysBeforeYear year ≤ daysBeforeYear year' := by
  rw [daysBeforeYear_eq, daysBeforeYear_eq]
  omega

/-! ### Days -/

namespace Date

theorem one_le_month (d : Date) : 1 ≤ d.month := by
  by_contra hzero
  have hmonth : d.month = 0 := by omega
  have hday := d.inMonth
  rw [hmonth] at hday
  exact absurd (hday.1.trans hday.2) (Nat.not_succ_le_zero 0)

theorem month_le_twelve (d : Date) : d.month ≤ 12 :=
  month_le (d.inMonth.1.trans d.inMonth.2)

/-- A day ends before the next month begins, -/
theorem day_le (d : Date) {month : Nat} (h : d.month < month) :
    daysBeforeMonth d.year d.month + d.day ≤ daysBeforeMonth d.year month :=
  calc daysBeforeMonth d.year d.month + d.day
      ≤ daysBeforeMonth d.year d.month + monthLength d.year d.month :=
        Nat.add_le_add_left d.inMonth.2 _
    _ = daysBeforeMonth d.year (d.month + 1) := (daysBeforeMonth_succ _ d.one_le_month).symm
    _ ≤ daysBeforeMonth d.year month := daysBeforeMonth_mono _ (Nat.le_add_left 1 _) h

/-- and before the next year begins. -/
theorem number_lt (d : Date) {year : Int} (h : d.year < year) : d.number < daysBeforeYear year := by
  have hmonth := d.day_le (Nat.lt_succ_of_le d.month_le_twelve)
  rw [daysBeforeMonth_end] at hmonth
  have hyear : daysBeforeYear d.year + yearLength d.year ≤ daysBeforeYear year := by
    rw [← daysBeforeYear_succ]
    exact daysBeforeYear_mono h
  have hnumber : d.number =
      daysBeforeYear d.year + daysBeforeMonth d.year d.month + d.day - 1 := rfl
  omega

theorem daysBeforeYear_le_number (d : Date) : daysBeforeYear d.year ≤ d.number := by
  have hday := d.inMonth.1
  have hnumber : d.number =
      daysBeforeYear d.year + daysBeforeMonth d.year d.month + d.day - 1 := rfl
  omega

theorem before_iff (d e : Date) : d.before e = true ↔
    d.year < e.year ∨ d.year = e.year ∧
      (d.month < e.month ∨ d.month = e.month ∧ d.day < e.day) := by
  simp [before]

theorem number_lt_of_before {d e : Date} (h : d.before e = true) : d.number < e.number := by
  rcases (before_iff d e).mp h with hyear | ⟨hyear, hmonth | ⟨hmonth, hday⟩⟩
  · exact (d.number_lt hyear).trans_le e.daysBeforeYear_le_number
  · have hle := d.day_le hmonth
    have hone := e.inMonth.1
    rw [hyear] at hle
    simp only [number, dayNumber, hyear]
    omega
  · simp only [number, dayNumber, hyear, hmonth]
    omega

/-- **The earlier day has the smaller number.** -/
theorem before_iff_number_lt (d e : Date) : d.before e = true ↔ d.number < e.number := by
  refine ⟨number_lt_of_before, fun h => ?_⟩
  -- Of two different days one is the earlier one.
  have htotal : d.before e = true ∨ e.before d = true ∨
      d.year = e.year ∧ d.month = e.month ∧ d.day = e.day := by
    rw [before_iff, before_iff]
    omega
  rcases htotal with hbefore | hafter | ⟨hyear, hmonth, hday⟩
  · exact hbefore
  · have := number_lt_of_before hafter
    omega
  · simp only [number, hyear, hmonth, hday] at h
    omega

end Date

end Composer.Calendar
