import Composer.Calendar.TypedDate
import Composer.Proofs.Calendar.Numbering
import Mathlib.Data.Nat.Find
/-!
# Composer.Proofs.Calendar.Occurrence

**The next day of a month.** A month and a day without a year mean the first day with them that has
not passed. It lies in the current year or in the next one, and that is where it is looked for
(`MonthDay.resolve_of_isNext`). Only the 29th of February can be further away: unless there is one
left in the current year none is found at all (`MonthDay.resolve_of_leaps`).
-/

namespace Composer.Calendar

/-! ### Days with a year -/

theorem Date.of?_eq_some_iff {year : Int} {month day : Nat} {d : Date} :
    Date.of? year month day = some d ↔ d.year = year ∧ d.month = month ∧ d.day = day := by
  constructor
  · intro h
    unfold Date.of? at h
    split at h
    · split at h
      · cases h
        exact ⟨rfl, rfl, rfl⟩
      · cases h
    · cases h
  · rintro ⟨rfl, rfl, rfl⟩
    exact d.of?_self

theorem Date.of?_eq_none {year : Int} {month day : Nat} (h : monthLength year month < day) :
    Date.of? year month day = none := by
  rw [Option.eq_none_iff_forall_ne_some]
  intro d hd
  obtain ⟨rfl, rfl, rfl⟩ := Date.of?_eq_some_iff.mp hd
  exact Nat.not_le_of_lt h d.inMonth.2

theorem exists_date {year : Int} {month day : Nat} (hyear : firstYear ≤ year ∧ year ≤ lastYear)
    (hday : 1 ≤ day ∧ day ≤ monthLength year month) :
    ∃ d : Date, d.year = year ∧ d.month = month ∧ d.day = day :=
  ⟨⟨year, month, day, hyear, hday⟩, rfl, rfl, rfl⟩

/-! ### The length of February -/

theorem monthLength_february (year : Int) :
    monthLength year 2 = if isLeap year then 29 else 28 := rfl

/-- All other months have the same length every year. -/
theorem monthLength_of_ne {month : Nat} (h : month ≠ 2) (year year' : Int) :
    monthLength year month = monthLength year' month := by
  match month, h with
  | 0, _ => rfl
  | 1, _ => rfl
  | _ + 3, _ => rfl

/-- So every other day exists every year. -/
theorem le_monthLength {year : Int} {month day : Nat} (h : day ≤ monthLength year month)
    (hleap : ¬ (month = 2 ∧ day = 29)) (year' : Int) : day ≤ monthLength year' month := by
  by_cases hmonth : month = 2
  · subst hmonth
    have hday : day ≠ 29 := fun hday => hleap ⟨rfl, hday⟩
    rw [monthLength_february] at h ⊢
    split <;> split at h <;> omega
  · rwa [monthLength_of_ne hmonth year' year]

theorem not_isLeap_succ {year : Int} (h : isLeap year = true) : isLeap (year + 1) = false := by
  rw [isLeap_iff] at h
  rw [Bool.eq_false_iff, ne_eq, isLeap_iff]
  omega

/-! ### The next occurrence -/

/-- The first day of all years with a month and a day that is not before `today`. -/
structure IsNext (today : Date) (month day : Nat) (t : Date) : Prop where
  /-- It has the month. -/
  month_eq : t.month = month
  /-- It has the day. -/
  day_eq : t.day = day
  /-- It has not passed. -/
  not_before : t.before today = false
  /-- None that has not passed is earlier. -/
  earliest : ∀ d : Date, d.month = month → d.day = day → d.before today = false →
    d.before t = false

theorem Date.number_le_of_not_before {d e : Date} (h : d.before e = false) : e.number ≤ d.number := by
  by_contra hlt
  rw [(before_iff_number_lt d e).mpr (by omega)] at h
  cases h

/-- There is a next one if there is one at all. -/
theorem exists_isNext {today : Date} {month day : Nat}
    (h : ∃ d : Date, d.month = month ∧ d.day = day ∧ d.before today = false) :
    ∃ t, IsNext today month day t := by
  have hsome : ∃ n : Nat, ∃ d : Date, d.month = month ∧ d.day = day ∧ d.before today = false ∧
      d.number = today.number + n := by
    obtain ⟨d, hmonth, hday, hbefore⟩ := h
    have hle := Date.number_le_of_not_before hbefore
    exact ⟨(d.number - today.number).toNat, d, hmonth, hday, hbefore, by omega⟩
  classical
  obtain ⟨t, hmonth, hday, hbefore, hnumber⟩ := Nat.find_spec hsome
  refine ⟨t, hmonth, hday, hbefore, fun d hmonth' hday' hbefore' => ?_⟩
  rw [Bool.eq_false_iff]
  intro hearlier
  have hlt := (Date.before_iff_number_lt d t).mp hearlier
  have hle := Date.number_le_of_not_before hbefore'
  refine Nat.find_min hsome (m := (d.number - today.number).toNat) (by omega)
    ⟨d, hmonth', hday', hbefore', by omega⟩

namespace IsNext

variable {today t : Date} {month day : Nat} (h : IsNext today month day t)
include h

theorem year_le : today.year ≤ t.year := by
  have hbefore := h.not_before
  rw [Bool.eq_false_iff, ne_eq, Date.before_iff] at hbefore
  omega

/-- A day with the same month and day in an earlier year has passed. -/
theorem before_of_year_lt {d : Date} (hmonth : d.month = month) (hday : d.day = day)
    (hyear : d.year < t.year) : d.before today = true := by
  by_contra hbefore
  rw [Bool.not_eq_true] at hbefore
  have hearlier : d.before t = true := (Date.before_iff d t).mpr (Or.inl hyear)
  rw [h.earliest d hmonth hday hbefore] at hearlier
  cases hearlier

end IsNext

/-- A 29th of February that does not lie in the year of `today`. -/
def Date.LeapsOver (t today : Date) : Prop :=
  t.month = 2 ∧ t.day = 29 ∧ t.year ≠ today.year

namespace MonthDay

variable {today t : Date} {month day : Nat} (h : IsNext today month day t)
include h

/-- The next occurrence is found in this year or in the next one. -/
theorem resolve_of_isNext (hleaps : ¬ t.LeapsOver today) :
    resolve ⟨month, day, none⟩ today true = some t := by
  have hmonth := h.month_eq
  have hday := h.day_eq
  by_cases hyear : t.year = today.year
  · have hthis : Date.of? today.year month day = some t :=
      Date.of?_eq_some_iff.mpr ⟨hyear, hmonth, hday⟩
    simp [resolve, hthis, h.not_before]
  · have hlater : today.year < t.year := lt_of_le_of_ne h.year_le (Ne.symm hyear)
    have hexists : 1 ≤ day ∧ day ≤ monthLength t.year month := hmonth ▸ hday ▸ t.inMonth
    have hevery : ∀ year, 1 ≤ day ∧ day ≤ monthLength year month := fun year =>
      ⟨hexists.1, le_monthLength hexists.2
        (fun hfeb => hleaps ⟨hmonth.trans hfeb.1, hday.trans hfeb.2, hyear⟩) year⟩
    -- This year's day has passed, and the next one has not.
    obtain ⟨d, hd⟩ := exists_date today.inCalendar (hevery today.year)
    have hrange : firstYear ≤ today.year + 1 ∧ today.year + 1 ≤ lastYear := by
      have hfirst := today.inCalendar.1
      have hlast := t.inCalendar.2
      omega
    obtain ⟨e, he⟩ := exists_date hrange (hevery (today.year + 1))
    have hpassed : d.before today = true := h.before_of_year_lt hd.2.1 hd.2.2 (hd.1 ▸ hlater)
    have hahead : ¬ e.before today = true := by
      rw [Date.before_iff, he.1]
      omega
    have hnext : t.year = today.year + 1 := by
      by_contra hne
      exact hahead (h.before_of_year_lt he.2.1 he.2.2 (by omega))
    have hthis : Date.of? today.year month day = some d := Date.of?_eq_some_iff.mpr hd
    have hfound : Date.of? (today.year + 1) month day = some t :=
      Date.of?_eq_some_iff.mpr ⟨hnext, hmonth, hday⟩
    simp [resolve, hthis, hpassed, hfound]

/-- A 29th of February of another year is not found. -/
theorem resolve_of_leapsOver (hleaps : t.LeapsOver today) :
    resolve ⟨month, day, none⟩ today true = none := by
  obtain ⟨hmonth, hday, hyear⟩ := hleaps
  obtain rfl : month = 2 := h.month_eq.symm.trans hmonth
  obtain rfl : day = 29 := h.day_eq.symm.trans hday
  have hlater : today.year < t.year := lt_of_le_of_ne h.year_le (Ne.symm hyear)
  have hshort {year : Int} (hcommon : isLeap year = false) : Date.of? year 2 29 = none := by
    refine Date.of?_eq_none ?_
    rw [monthLength_february, hcommon]
    decide
  cases hthis : Date.of? today.year 2 29 with
  | none => simp [resolve, hthis]
  | some d =>
      obtain ⟨hd, hdmonth, hdday⟩ := Date.of?_eq_some_iff.mp hthis
      have hpassed : d.before today = true :=
        h.before_of_year_lt hdmonth hdday (hd ▸ hlater)
      have hleap : isLeap today.year = true := by
        by_contra hcommon
        rw [hshort (Bool.not_eq_true _ ▸ hcommon)] at hthis
        cases hthis
      simp [resolve, hthis, hpassed, hshort (not_isLeap_succ hleap)]

end MonthDay

end Composer.Calendar
