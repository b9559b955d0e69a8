import Composer.Proofs.Calendar.Distance
import Composer.Proofs.Calendar.Occurrence
/-!
# Composer.Proofs.Calendar.Until

**How long until a day of a month.** The question for a day without a year is answered with the next
day of that name (`detect_days_until`): it has not passed, no earlier one is left, and the number of
days until then is not negative. There is one exception, the 29th of February in a year without one
to come.
-/

namespace Composer.Calendar

open Text

/-- The day is looked for in the current year and in the next one. -/
theorem detect_until {today : Date} {month day : Nat} {s : List Char} (h : AsksFor month day s) :
    detect today ("days until ".toList ++ s) =
      (MonthDay.resolve ⟨month, day, none⟩ today true).map fun t =>
        Reckoning.distance today t false :=
  detect_distance today false h

/-- **The next day of that name is found.** -/
theorem detect_days_until {today : Date} {month day : Nat} {s : List Char}
    (hasks : AsksFor month day s)
    (hexists : ∃ d : Date, d.month = month ∧ d.day = day ∧ d.before today = false) :
    ∃ t, IsNext today month day t ∧
      (¬ t.LeapsOver today → ∃ r, detect today ("days until ".toList ++ s) = some r ∧
        r.isPartial = false ∧ r.target = some t ∧ r.days = t.number - today.number ∧ 0 ≤ r.days) ∧
      (t.LeapsOver today → detect today ("days until ".toList ++ s) = none) := by
  obtain ⟨t, ht⟩ := exists_isNext hexists
  refine ⟨t, ht, ?_, ?_⟩
  · intro hleaps
    refine ⟨Reckoning.distance today t false, ?_, rfl, rfl, rfl, ?_⟩
    · rw [detect_until hasks, MonthDay.resolve_of_isNext ht hleaps]
      rfl
    · have hle := Date.number_le_of_not_before ht.not_before
      exact Int.sub_nonneg_of_le hle
  · intro hleaps
    rw [detect_until hasks, MonthDay.resolve_of_leapsOver ht hleaps]
    rfl

/-- A day that comes every year, and one that does not. -/
theorem detect_days_until_autumn :
    (∃ t r, IsNext autumnDay 12 1 t ∧
      detect autumnDay "days until 1st of Dec.?".toList = some r ∧ r.target = some t) ∧
    detect autumnDay "days until Feb 29".toList = none := by
  have hdecember : AsksFor 12 1 "1st of Dec.?".toList := by
    refine ⟨?_, by decide⟩
    have hkey : askedKey "1st of Dec.?".toList =
        ("1".toList ++ "st".toList) ++ [' '] ++ ("of".toList ++ [' ']) ++ ("dec".toList ++ ['.']) := by
      decide +kernel
    rw [hkey]
    exact .dayFirst (.point ⟨⟨"december", by decide, by decide⟩, by decide⟩)
      (.digits (by decide) (by decide) (by decide)) isBlank_of_mem_space (by decide)
      (.of isBlank_of_mem_space (by decide))
  have hleap : AsksFor 2 29 "Feb 29".toList := by
    refine ⟨?_, by decide⟩
    have hkey : askedKey "Feb 29".toList = "feb".toList ++ [' '] ++ ("29".toList ++ "".toList) := by
      decide +kernel
    rw [hkey]
    exact .monthFirst (.letters ⟨⟨"february", by decide, by decide⟩, by decide⟩)
      (.digits (by decide) (by decide) (by decide)) isBlank_of_mem_space (by decide)
  obtain ⟨t, ht, hfound, -⟩ :=
    @detect_days_until autumnDay _ _ _ hdecember ⟨⟨2026, 12, 1, by decide, by decide⟩, by decide⟩
  obtain ⟨t', ht', -, hnone⟩ :=
    @detect_days_until autumnDay _ _ _ hleap ⟨⟨2028, 2, 29, by decide, by decide⟩, by decide⟩
  constructor
  · have hmonth : ¬ t.LeapsOver autumnDay := by
      rintro ⟨hmonth, -⟩
      rw [ht.month_eq] at hmonth
      cases hmonth
    obtain ⟨r, hr, -, htarget, -⟩ := hfound hmonth
    exact ⟨t, r, ht, hr, htarget⟩
  · refine hnone ⟨ht'.month_eq, ht'.day_eq, fun hyear => ?_⟩
    have hday := t'.inMonth.2
    rw [ht'.month_eq, ht'.day_eq, hyear] at hday
    exact absurd hday (by decide)

end Composer.Calendar
