import Composer.Proofs.Clock.Zone
import Mathlib.Data.List.Infix
/-!
# Composer.Proofs.Clock.Conversion

**Conversions are exact.** Both times of a conversion are shown on a clock of twelve hours. Read off
that clock they are the same point in time: the second one, counted from the midnight of its own
day, is as far ahead of the first one as its zone is, and the number of days between the two
midnights is the day offset (`Conversion.Exact`). No zone is so far from another one that the
other day is not a neighbour.
-/

namespace Composer.Clock

open Text

/-! ### The balance -/

/-- A conversion shows the minute `m` of a day in one zone and the minute `c` in another one, and
the two are the same point in time. -/
structure Conversion.Exact (r : Conversion) (a b : Zone) (m c : Nat) : Prop where
  /-- The first zone. -/
  source : r.source = some a.name
  /-- The second zone. -/
  target : r.target = some b.name
  /-- The time in the first zone, read off the clock. -/
  sourceTime : r.sourceTime.bind (clockMinutes? ·.toList) = some m
  /-- The time in the second zone, read off the clock. -/
  convertedTime : r.convertedTime.bind (clockMinutes? ·.toList) = some c
  /-- Both are minutes of a day. -/
  bounds : m < minutesPerDay ∧ c < minutesPerDay
  /-- They are the same point in Universal Time. -/
  balance : r.dayOffset * minutesPerDay + c - b.offset = m - a.offset
  /-- The second one is at most a day away. -/
  days : r.dayOffset = -1 ∨ r.dayOffset = 0 ∨ r.dayOffset = 1
  /-- The next day is noted. -/
  later : " (+1 day)".toList <:+ r.display.toList ↔ r.dayOffset = 1
  /-- So is the day before. -/
  earlier : " (-1 day)".toList <:+ r.display.toList ↔ r.dayOffset = -1

/-- The minute of the day in the second zone. -/
theorem between_balance {m : Nat} (hm : m < minutesPerDay) {a b : Zone} (ha : a ∈ zones)
    (hb : b ∈ zones) : ∃ c, c < minutesPerDay ∧
      ((m - a.offset + b.offset) % minutesPerDay).toNat = c ∧
      (Conversion.between m a b).dayOffset * minutesPerDay + c - b.offset = m - a.offset ∧
      ((Conversion.between m a b).dayOffset = -1 ∨ (Conversion.between m a b).dayOffset = 0 ∨
        (Conversion.between m a b).dayOffset = 1) := by
  obtain ⟨-, -, -, hoffset⟩ := zones_key a ha
  obtain ⟨-, -, -, hoffset'⟩ := zones_key b hb
  have hdays : (Conversion.between m a b).dayOffset =
    (m - a.offset + b.offset) / minutesPerDay := rfl
  rw [hdays]
  unfold minutesPerDay at hm ⊢
  exact ⟨_, by omega, rfl, by omega, by omega⟩

/-! ### The note about the day -/

/-- A note is at the end of a text if it was put there, as no name ends like a note. -/
theorem dayOffsetText_suffix_iff {text : List Char} (htext : text.getLast? ≠ some ')')
    {days : Int} (hdays : days = -1 ∨ days = 0 ∨ days = 1) (noted : Int)
    (hnoted : noted = -1 ∨ noted = 1) :
    (dayOffsetText noted).toList <:+ text ++ (dayOffsetText days).toList ↔ days = noted := by
  have hlast : (dayOffsetText noted).toList.getLast? = some ')' := by
    rcases hnoted with rfl | rfl <;> rfl
  by_cases hzero : days = 0
  · -- Nothing was put behind the name.
    subst hzero
    refine iff_of_false ?_ (by omega)
    rintro ⟨r, hr⟩
    have hnone : text ++ (dayOffsetText 0).toList = text := List.append_nil text
    rw [hnone] at hr
    refine htext ?_
    rw [← hr, List.getLast?_append, hlast]
    rfl
  · have hnear : days = -1 ∨ days = 1 := by omega
    constructor
    · intro hsuffix
      have hlength : (dayOffsetText noted).toList.length ≤ (dayOffsetText days).toList.length := by
        rcases hnoted with rfl | rfl <;> rcases hnear with rfl | rfl <;> decide
      have hnotes : (dayOffsetText noted).toList <:+ (dayOffsetText days).toList :=
        List.suffix_of_suffix_length_le hsuffix (List.suffix_append _ _) hlength
      revert hnotes
      rcases hnoted with rfl | rfl <;> rcases hnear with rfl | rfl <;> decide
    · rintro rfl
      exact List.suffix_append _ _

/-! ### Every conversion -/

/-- **A conversion from one zone to another is exact.** -/
theorem between_exact {m : Nat} (hm : m < minutesPerDay) {a b : Zone} (ha : a ∈ zones)
    (hb : b ∈ zones) : ∃ c, (Conversion.between m a b).Exact a b m c := by
  obtain ⟨c, hc, hthere, hbalance, hdays⟩ := between_balance hm ha hb
  have hshown {m : Nat} (hm : m < minutesPerDay) :
      (some (timeText m)).bind (clockMinutes? ·.toList) = some m := by
    rw [Option.bind_some, timeText, String.toList_ofList, clockMinutes?_timeChars hm]
  obtain ⟨text, htext⟩ : ∃ text, (Conversion.between m a b).display.toList = text ++ b.name.toList ++
      (dayOffsetText (Conversion.between m a b).dayOffset).toList := by
    refine ⟨(timeText m ++ " " ++ a.name ++ " = " ++
      timeText ((m - a.offset + b.offset) % minutesPerDay).toNat ++ " ").toList, ?_⟩
    rw [← String.toList_append, ← String.toList_append]
    rfl
  have hend := getLast?_append_name hb text
  refine ⟨c, rfl, rfl, hshown hm, ?_, ⟨hm, hc⟩, hbalance, hdays, ?_, ?_⟩
  · rw [← hthere] at hc ⊢
    exact hshown hc
  · rw [htext]
    exact dayOffsetText_suffix_iff hend hdays 1 (by decide)
  · rw [htext]
    exact dayOffsetText_suffix_iff hend hdays (-1) (by decide)

/-- A complete conversion of a time of the day is one from a zone of the table to another one. -/
theorem detect_complete {now : Int} {input : List Char} {r : Conversion}
    (h : detect now input = some r) (hcomplete : r.isPartial = false)
    (htime : r.sourceTime.isSome = true) :
    ∃ a ∈ zones, ∃ b ∈ zones, ∃ m < minutesPerDay, r = Conversion.between m a b := by
  rw [detect] at h
  split at h
  · obtain ⟨zone, -, rfl⟩ := Option.map_eq_some_iff.mp h
    cases htime
  · obtain ⟨q, -, hconvert⟩ := Option.bind_eq_some_iff.mp h
    rw [Request.convert_eq] at hconvert
    obtain ⟨m, hm, hconvert⟩ := Option.bind_eq_some_iff.mp hconvert
    obtain ⟨a, ha, hconvert⟩ := Option.bind_eq_some_iff.mp hconvert
    have hday : m < minutesPerDay := by
      obtain ⟨_, -, hm⟩ := Option.bind_eq_some_iff.mp hm
      obtain ⟨_, -, hm⟩ := Option.bind_eq_some_iff.mp hm
      exact minutesOf?_lt hm
    cases htarget : q.target with
    | none =>
        rw [htarget] at hconvert
        obtain rfl := Option.some.inj hconvert
        cases hcomplete
    | some name =>
        rw [htarget, Option.elim_some, Option.map_eq_some_iff] at hconvert
        obtain ⟨b, hb, rfl⟩ := hconvert
        exact ⟨a, Zone.mem_of_typed? ha, b, Zone.mem_of_typed? hb, m, hday, rfl⟩

/-- Only the name and the distance of the first zone matter. -/
theorem Conversion.Exact.of_eq {r : Conversion} {a a' b : Zone} {m c : Nat} (h : r.Exact a' b m c)
    (hname : a'.name = a.name) (hoffset : a'.offset = a.offset) : r.Exact a b m c where
  source := hname ▸ h.source
  target := h.target
  sourceTime := h.sourceTime
  convertedTime := h.convertedTime
  bounds := h.bounds
  balance := hoffset ▸ h.balance
  days := h.days
  later := h.later
  earlier := h.earlier

/-- **Every complete conversion of a time of the day is exact, and no time of the day and no pair of
zones is without one.** -/
theorem converts_exactly (now : Int) :
    (∀ input r, detect now input = some r → r.isPartial = false → r.sourceTime.isSome = true →
      ∃ a ∈ zones, ∃ b ∈ zones, ∃ m c, r.Exact a b m c) ∧
    (∀ a ∈ zones, ∀ b ∈ zones, ∃ a' ∈ zones, a'.name = a.name ∧ a'.offset = a.offset ∧
      ∀ m t, WritesTime m t → ∀ word ∈ connectives, ∃ r c,
        detect now (t ++ ' ' :: (a'.key.toList ++ ' ' :: (word.toList ++ ' ' :: b.key.toList))) =
          some r ∧ r.isPartial = false ∧ r.Exact a b m c) := by
  constructor
  · intro input r h hcomplete htime
    obtain ⟨a, ha, b, hb, m, hm, rfl⟩ := detect_complete h hcomplete htime
    obtain ⟨c, hexact⟩ := between_exact hm ha hb
    exact ⟨a, ha, b, hb, m, c, hexact⟩
  · intro a ha b hb
    obtain ⟨a', ha', hname, hoffset, hsource⟩ := exists_sourceKey ha
    obtain ⟨htyped, htarget, -⟩ := zones_key b hb
    refine ⟨a', ha', hname, hoffset, fun m t ht word hword => ?_⟩
    obtain ⟨c, hexact⟩ := between_exact ht.lt ha' hb
    refine ⟨Conversion.between m a' b, c, ?_, rfl, hexact.of_eq hname hoffset⟩
    rw [detect_asked now ht hsource htarget hword, (zones_key a' ha').1, htyped]
    rfl

/-- Late in the evening it is the next day in Tokyo, whichever clock the time is typed on. -/
theorem converts_exactly_tokyo :
    (∃ r, detect 0 "10:30pm utc to tokyo".toList = some r ∧ r.dayOffset = 1 ∧
      ∃ a ∈ zones, ∃ b ∈ zones, ∃ m c, r.Exact a b m c) ∧
    ∃ a ∈ zones, a.name = "UTC" ∧ ∃ r c,
      detect 0 ("22:30".toList ++ ' ' :: (a.key.toList ++ " to tokyo".toList)) = some r ∧
        r.Exact ⟨"utc", "UTC", 0⟩ ⟨"tokyo", "Tokyo", 540⟩ 1350 c := by
  constructor
  · exact ⟨Conversion.between 1350 ⟨"utc", "UTC", 0⟩ ⟨"tokyo", "Tokyo", 540⟩, by decide +kernel, rfl,
      (converts_exactly 0).1 "10:30pm utc to tokyo".toList _ (by decide +kernel) rfl rfl⟩
  · obtain ⟨a, ha, hname, -, hconverts⟩ := (converts_exactly 0).2 ⟨"utc", "UTC", 0⟩ (by decide)
      ⟨"tokyo", "Tokyo", 540⟩ (by decide +kernel)
    have hhour : natural? "22".toList = some 22 := by decide
    have hminute : natural? "30".toList = some 30 := by decide
    have htime : WritesTime (22 * 60 + 30) "22:30".toList :=
      .day (.minute hhour (by decide) hminute (by decide) (by decide)) (by decide)
    obtain ⟨r, c, hdetect, -, hexact⟩ := hconverts 1350 "22:30".toList htime "to" (by decide)
    exact ⟨a, ha, hname, r, c, hdetect, hexact⟩

end Composer.Clock
