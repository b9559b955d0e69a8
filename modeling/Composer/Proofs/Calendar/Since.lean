import Composer.Proofs.Calendar.Distance
import Composer.Proofs.Calendar.Occurrence
/-!
# Composer.Proofs.Calendar.Since

**How long since a day of a month.** The question for a day without a year is answered with the day
of the current year (`detect_days_since`). Once that day has come it is the last one of its name, and
the number of days since then is not negative. Before it has come it lies ahead, and the number is
negative. In a year that does not have the day there is no answer.
-/

namespace Composer.Calendar

open Text

/-! ### The last occurrence -/

/-- The last day of all years with a month and a day that is not after `today`. -/
structure IsLast (today : Date) (month day : Nat) (t : Date) : Prop where
  /-- It has the month. -/
  month_eq : t.month = month
  /-- It has the day. -/
  day_eq : t.day = day
  /-- It is today or has passed. -/
  not_after : today.before t = false
  /-- None that has come is later. -/
  latest : ∀ d : Date, d.month = month → d.day = day → today.before d = false → t.before d = false

/-- The day of the current year is the last one if it has come: a later one lies in a later year. -/
theorem isLast_of_year_eq {today t : Date} (hyear : t.year = today.year)
    (hcome : today.before t = false) : IsLast today t.month t.day t := by
  refine ⟨rfl, rfl, hcome, fun d hmonth hday hd => ?_⟩
  rw [Bool.eq_false_iff]
  intro hlater
  have hyears : t.year < d.year := by
    rw [Date.before_iff] at hlater
    omega
  rw [(Date.before_iff today d).mpr (Or.inl (hyear ▸ hyears))] at hd
  cases hd

/-- Without the future in mind a day lies in the current year. -/
theorem MonthDay.resolve_of_past (today : Date) (month day : Nat) :
    resolve ⟨month, day, none⟩ today false = Date.of? today.year month day := by
  cases h : Date.of? today.year month day <;> simp [resolve, h]

/-! ### Answers -/

/-- **The day of the current year is counted from.** -/
theorem detect_days_since {today : Date} {month day : Nat} {s : List Char}
    (hasks : AsksFor month day s) :
    (∀ t : Date, t.year = today.year → t.month = month → t.day = day →
      ∃ r, detect today ("days since ".toList ++ s) = some r ∧ r.isPartial = false ∧
        r.target = some t ∧ r.days = t.number - today.number ∧
        r.display =
          toString (-r.days) ++ " " ++ plural (-r.days) "day" ++ " since " ++ t.long ∧
        (today.before t = false → IsLast today month day t ∧ 0 ≤ -r.days) ∧
        (today.before t = true → -r.days < 0)) ∧
    ((∀ t : Date, t.month = month → t.day = day → t.year ≠ today.year) →
      detect today ("days since ".toList ++ s) = none) := by
  have hread : detect today ("days since ".toList ++ s) =
      (Date.of? today.year month day).map fun t => Reckoning.distance today t true :=
    (detect_distance today true hasks).trans (by rw [Bool.not_true, MonthDay.resolve_of_past])
  rw [hread]
  constructor
  · rintro t hyear rfl rfl
    have hfound : Date.of? today.year t.month t.day = some t :=
      Date.of?_eq_some_iff.mpr ⟨hyear, rfl, rfl⟩
    refine ⟨Reckoning.distance today t true, by rw [hfound]; rfl, rfl, rfl, rfl, rfl, ?_, ?_⟩
    · intro hcome
      refine ⟨isLast_of_year_eq hyear hcome, ?_⟩
      have hle := Date.number_le_of_not_before hcome
      exact Int.neg_nonneg_of_nonpos (Int.sub_nonpos_of_le hle)
    · intro hahead
      have hlt := (Date.before_iff_number_lt today t).mp hahead
      exact Int.neg_neg_of_pos (Int.sub_pos_of_lt hlt)
  · intro hnone
    cases hfound : Date.of? today.year month day with
    | none => rfl
    | some t =>
        obtain ⟨hyear, hmonth, hday⟩ := Date.of?_eq_some_iff.mp hfound
        exact absurd hyear (hnone t hmonth hday)

/-- A day that has come this year, one that is still ahead and one that the year does not have. -/
theorem detect_days_since_autumn :
    (∃ t r, IsLast autumnDay 10 1 t ∧
      detect autumnDay "days since 1st of Oct.?".toList = some r ∧ r.target = some t) ∧
    (∃ r, detect autumnDay "days since christmas".toList = some r ∧ -r.days = -67) ∧
    detect autumnDay "days since Feb 29".toList = none := by
  have hoctober : AsksFor 10 1 "1st of Oct.?".toList := by
    refine ⟨?_, by decide⟩
    have hkey : askedKey "1st of Oct.?".toList =
        ("1".toList ++ "st".toList) ++ [' '] ++ ("of".toList ++ [' ']) ++ ("oct".toList ++ ['.']) := by
      decide +kernel
    rw [hkey]
    exact .dayFirst (.point ⟨⟨"october", by decide, by decide⟩, by decide⟩)
      (.digits (by decide) (by decide) (by decide)) isBlank_of_mem_space (by decide)
      (.of isBlank_of_mem_space (by decide))
  have hchristmas : AsksFor 12 25 "christmas".toList := by
    refine ⟨?_, by decide⟩
    have hkey : askedKey "christmas".toList = "christmas".toList := by decide +kernel
    rw [hkey]
    exact .holiday List.mem_cons_self List.mem_cons_self rfl rfl
  have hleap : AsksFor 2 29 "Feb 29".toList := by
    refine ⟨?_, by decide⟩
    have hkey : askedKey "Feb 29".toList = "feb".toList ++ [' '] ++ ("29".toList ++ "".toList) := by
      decide +kernel
    rw [hkey]
    exact .monthFirst (.letters ⟨⟨"february", by decide, by decide⟩, by decide⟩)
      (.digits (by decide) (by decide) (by decide)) isBlank_of_mem_space (by decide)
  refine ⟨?_, ?_, ?_⟩
  · obtain ⟨r, hr, -, htarget, -, -, hlast, -⟩ :=
      (@detect_days_since autumnDay _ _ _ hoctober).1 ⟨2026, 10, 1, by decide, by decide⟩ rfl rfl
        rfl
    exact ⟨_, r, (hlast (by decide)).1, hr, htarget⟩
  · obtain ⟨r, hr, -, -, hdays, -⟩ :=
      (@detect_days_since autumnDay _ _ _ hchristmas).1 ⟨2026, 12, 25, by decide, by decide⟩ rfl
        rfl rfl
    exact ⟨r, hr, by rw [hdays]; decide⟩
  · refine (@detect_days_since autumnDay _ _ _ hleap).2 fun t hmonth hday hyear => ?_
    have hlength := t.inMonth.2
    rw [hmonth, hday, hyear] at hlength
    exact absurd hlength (by decide)

end Composer.Calendar
