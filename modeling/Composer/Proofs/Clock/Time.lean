import Composer.Clock.Time
import Composer.Proofs.Decimal.Digits
import Composer.Proofs.Text.Phrase
import Mathlib.Data.List.Basic
/-!
# Composer.Proofs.Clock.Time

**Times of the day are read back.** `clockMinutes?` reads a clock of twelve hours: at midnight and at
noon it shows twelve, so twelve is the first hour of each half of the day. A time of the day is shown
so that it is read as the same time, and typed as it is shown it means the same time again
(`WritesTime`).
-/

namespace Composer.Clock

open Text

/-- The minutes since midnight that a clock of twelve hours shows. -/
def clockMinutes? (s : List Char) : Option Nat := do
  let hour ← natural? (s.takeWhile Char.isDigit)
  match s.dropWhile Char.isDigit with
  | [':', a, b, ' ', half, 'M'] =>
    let minute ← natural? [a, b]
    let start ← if half = 'A' then some 0 else if half = 'P' then some 12 else none
    if 1 ≤ hour ∧ hour ≤ 12 ∧ minute < 60 then some ((hour % 12 + start) * 60 + minute) else none
  | _ => none

/-- The hours from one to twelve are shown. -/
theorem hourOfTwelve_bounds (hour : Nat) : 1 ≤ hourOfTwelve hour ∧ hourOfTwelve hour ≤ 12 := by
  unfold hourOfTwelve
  split <;> omega

theorem hourOfTwelve_mod (hour : Nat) : hourOfTwelve hour % 12 = hour % 12 := by
  unfold hourOfTwelve
  split <;> omega

/-- **A time of the day is shown so that it is read back.** -/
theorem clockMinutes?_timeChars {minutes : Nat} (h : minutes < minutesPerDay) :
    clockMinutes? (timeChars minutes) = some minutes := by
  obtain ⟨a, b, hab⟩ : ∃ a b, Decimal.padded 2 (minutes % 60) = [a, b] :=
    List.length_eq_two.mp (Decimal.length_padded (by decide) (by omega))
  have hminute : natural? [a, b] = some (minutes % 60) := by
    rw [← hab, Decimal.natural?_padded]
  have hhour := Decimal.natural?_digitsOf (hourOfTwelve (minutes / 60))
  have htext : timeChars minutes = Decimal.digitsOf (hourOfTwelve (minutes / 60)) ++
      [':', a, b, ' ', if minutes / 60 < 12 then 'A' else 'P', 'M'] := by
    rw [timeChars, hab, List.append_assoc]
    split <;> rfl
  obtain ⟨htake, hdrop⟩ := takeWhile_append_of_stop
    (r := [':', a, b, ' ', if minutes / 60 < 12 then 'A' else 'P', 'M'])
    (fun c hc => Decimal.isDigit_of_mem_digitsOf (n := hourOfTwelve (minutes / 60)) hc)
    (by rintro _ ⟨⟩; rfl)
  have hmod := hourOfTwelve_mod (minutes / 60)
  have hbounds : 1 ≤ hourOfTwelve (minutes / 60) ∧ hourOfTwelve (minutes / 60) ≤ 12 ∧
      minutes % 60 < 60 :=
    ⟨(hourOfTwelve_bounds _).1, (hourOfTwelve_bounds _).2, Nat.mod_lt _ (by decide)⟩
  have hday : minutes / 60 < 24 := by
    unfold minutesPerDay at h
    omega
  rw [htext, clockMinutes?, htake, hdrop, hhour]
  by_cases hmorning : minutes / 60 < 12
  · have hvalue : hourOfTwelve (minutes / 60) % 12 * 60 + minutes % 60 = minutes := by omega
    simp [hminute, hbounds, hmorning, hvalue]
  · have hvalue : (hourOfTwelve (minutes / 60) % 12 + 12) * 60 + minutes % 60 = minutes := by omega
    simp [hminute, hbounds, hmorning, hvalue]

/-! ### Typed times -/

theorem minutesOf?_day {hour minute : Nat} (hminute : minute < 60) (hhour : hour < 24) :
    minutesOf? hour minute none = some (hour * 60 + minute) := by
  rw [minutesOf?, if_neg (by omega), if_neg (by omega)]

theorem minutesOf?_half {hour minute : Nat} (hminute : minute < 60) (hhour : 1 ≤ hour ∧ hour ≤ 12)
    (afternoon : Bool) :
    minutesOf? hour minute (some afternoon) =
      some ((hour % 12 + if afternoon then 12 else 0) * 60 + minute) := by
  rw [minutesOf?, if_neg (by omega), if_neg (by omega)]

theorem minutesOf?_lt {hour minute m : Nat} {afternoon : Option Bool}
    (h : minutesOf? hour minute afternoon = some m) : m < minutesPerDay := by
  unfold minutesPerDay
  unfold minutesOf? at h
  split at h
  · cases h
  · cases afternoon with
    | none =>
        dsimp only at h
        split at h
        · cases h
        · obtain rfl := Option.some.inj h
          omega
    | some afternoon =>
        dsimp only at h
        split at h
        · cases h
        · obtain rfl := Option.some.inj h
          split <;> omega

/-- An hour as it is typed, and perhaps minutes behind a colon. -/
inductive WritesHour (hour : Nat) : Nat → List Char → Prop where
  /-- The hour alone. -/
  | hour {h : List Char} (h_eq : natural? h = some hour) (short : h.length ≤ 2) :
      WritesHour hour 0 h
  /-- The hour and the minutes. -/
  | minute {minute : Nat} {h mm : List Char} (h_eq : natural? h = some hour) (short : h.length ≤ 2)
      (mm_eq : natural? mm = some minute) (two : mm.length = 2) (minute_lt : minute < 60) :
      WritesHour hour minute (h ++ ':' :: mm)

theorem WritesHour.minute_lt {hour minute : Nat} {t : List Char} (h : WritesHour hour minute t) :
    minute < 60 := by
  cases h with
  | hour => decide
  | minute _ _ _ _ hminute => exact hminute

/-- The word for the half of the day. -/
def halfWord (afternoon : Bool) : String :=
  if afternoon then "pm" else "am"

/-- A time of the day as it is typed, and the minutes since midnight that it means. -/
inductive WritesTime : Nat → List Char → Prop where
  /-- On a clock of 24 hours. -/
  | day {hour minute : Nat} {t : List Char} (h : WritesHour hour minute t) (hour_lt : hour < 24) :
      WritesTime (hour * 60 + minute) t
  /-- On a clock of twelve hours, before noon or after. -/
  | half {hour minute : Nat} {t gap word : List Char} (h : WritesHour hour minute t)
      (bounds : 1 ≤ hour ∧ hour ≤ 12) (gap_blank : ∀ c ∈ gap, isBlank c = true) (afternoon : Bool)
      (word_eq : word.map fold = (halfWord afternoon).toList) :
      WritesTime ((hour % 12 + if afternoon then 12 else 0) * 60 + minute) (t ++ gap ++ word)

theorem WritesHour.exists_cons {hour minute : Nat} {t : List Char} (h : WritesHour hour minute t) :
    ∃ c s, t = c :: s ∧ isDecimalDigit c = true := by
  have hcons {h : List Char} (h_eq : natural? h = some hour) :
      ∃ c s, h = c :: s ∧ isDecimalDigit c = true := by
    obtain ⟨hne, hdigits⟩ := natural?_eq_some h_eq
    obtain ⟨c, s, rfl⟩ := List.exists_cons_of_ne_nil hne
    exact ⟨c, s, rfl, hdigits c List.mem_cons_self⟩
  cases h with
  | hour h_eq => exact hcons h_eq
  | minute h_eq =>
      obtain ⟨c, s, rfl, hc⟩ := hcons h_eq
      exact ⟨c, _, rfl, hc⟩

theorem WritesTime.exists_cons {minutes : Nat} {t : List Char} (h : WritesTime minutes t) :
    ∃ c s, t = c :: s ∧ isDecimalDigit c = true := by
  cases h with
  | day h => exact h.exists_cons
  | half h =>
      obtain ⟨c, s, rfl, hc⟩ := h.exists_cons
      exact ⟨c, _, rfl, hc⟩

theorem WritesTime.lt {minutes : Nat} {t : List Char} (h : WritesTime minutes t) :
    minutes < minutesPerDay := by
  cases h with
  | day h hour_lt => exact minutesOf?_lt (minutesOf?_day h.minute_lt hour_lt)
  | half h bounds _ afternoon _ =>
      exact minutesOf?_lt (minutesOf?_half h.minute_lt bounds afternoon)

/-- A time that is shown can be typed. -/
theorem writesTime_timeChars {minutes : Nat} (h : minutes < minutesPerDay) :
    WritesTime minutes (timeChars minutes) := by
  have hbounds := hourOfTwelve_bounds (minutes / 60)
  have hmod := hourOfTwelve_mod (minutes / 60)
  have hhour : WritesHour (hourOfTwelve (minutes / 60)) (minutes % 60)
      (Decimal.digitsOf (hourOfTwelve (minutes / 60)) ++ ':' :: Decimal.padded 2 (minutes % 60)) := by
    refine .minute (Decimal.natural?_digitsOf _) ?_ (Decimal.natural?_padded _ _)
      (Decimal.length_padded (by decide) (by omega)) (Nat.mod_lt _ (by decide))
    exact (Nat.length_toDigits_le_iff (by decide) (by decide)).mpr (by omega)
  have hday : minutes / 60 < 24 := by
    unfold minutesPerDay at h
    omega
  have hmorning : "AM".toList.map fold = (halfWord false).toList := by decide
  have hafternoon : "PM".toList.map fold = (halfWord true).toList := by decide
  unfold timeChars
  split
  · have hvalue : (hourOfTwelve (minutes / 60) % 12 + 0) * 60 + minutes % 60 = minutes := by omega
    have htime : WritesTime ((hourOfTwelve (minutes / 60) % 12 + 0) * 60 + minutes % 60) _ :=
      .half hhour hbounds isBlank_of_mem_space false hmorning
    rw [hvalue, List.append_assoc] at htime
    exact htime
  · have hvalue : (hourOfTwelve (minutes / 60) % 12 + 12) * 60 + minutes % 60 = minutes := by omega
    have htime : WritesTime ((hourOfTwelve (minutes / 60) % 12 + 12) * 60 + minutes % 60) _ :=
      .half hhour hbounds isBlank_of_mem_space true hafternoon
    rw [hvalue, List.append_assoc] at htime
    exact htime

end Composer.Clock
