/-!
# Composer.Calendar.Date

**Days of the proleptic Gregorian calendar.** The calendar reaches from year -262143 to year
262142. A `Date` is a day that exists, so no operation has to ask again; `Date.of?` is the only
way to make one from numbers. Every day has a number, counted from the first day of year 1, and
`civil` finds the year, month and day of any number, also beyond the ends of the calendar.
-/

namespace Composer.Calendar

/-! ### Years and months -/

/-- A leap year. -/
def isLeap (year : Int) : Bool :=
  year % 4 = 0 && (year % 100 ≠ 0 || year % 400 = 0)

/-- How many days the months of a year have, January first. -/
def monthLengths (year : Int) : List Nat :=
  [31, if isLeap year then 29 else 28, 31, 30, 31, 30, 31, 31, 30, 31, 30, 31]

/-- How many days a month has, the first month being 1; there is no day outside the months. -/
def monthLength (year : Int) (month : Nat) : Nat :=
  match month with
  | 0 => 0
  | m + 1 => (monthLengths year)[m]?.getD 0

/-- The first year of the calendar. -/
def firstYear : Int := -262143

/-- The last year of the calendar. -/
def lastYear : Int := 262142

/-! ### Days -/

/-- A day of the calendar. -/
structure Date where
  /-- The year; year 0 comes before year 1. -/
  year : Int
  /-- The month, from 1 to 12. -/
  month : Nat
  /-- The day of the month, from 1. -/
  day : Nat
  /-- The year is one of the calendar. -/
  inCalendar : firstYear ≤ year ∧ year ≤ lastYear
  /-- The month has that day. -/
  inMonth : 1 ≤ day ∧ day ≤ monthLength year month
deriving DecidableEq

/-- How many days lie between the first day of year 1 and the first day of a year. -/
def daysBeforeYear (year : Int) : Int :=
  let y := year - 1
  365 * y + y / 4 - y / 100 + y / 400

/-- How many days lie between the first day of a year and the first day of a month. -/
def daysBeforeMonth (year : Int) (month : Nat) : Nat :=
  ((monthLengths year).take (month - 1)).foldr (· + ·) 0

/-- The number of a day of any year, the first day of year 1 being 0. -/
def dayNumber (year : Int) (month day : Nat) : Int :=
  daysBeforeYear year + daysBeforeMonth year month + day - 1

/-- The month and the day of the month of the day `n` of a year whose remaining months have the
lengths given, the first one being `month`. -/
def monthAndDay (month : Nat) : (lengths : List Nat) → (n : Nat) → Nat × Nat
  | [], n => (month, n + 1)
  | l :: rest, n => if n < l then (month, n + 1) else monthAndDay (month + 1) rest (n - l)

/-- The year of the day with a number. A cycle of 400 years has 146097 days. -/
def yearOf (n : Int) : Int :=
  let guess := 1 + 400 * (n / 146097) + n % 146097 / 365
  if daysBeforeYear guess ≤ n then guess else guess - 1

/-- The year, month and day of the day with a number. -/
def civil (n : Int) : Int × Nat × Nat :=
  let year := yearOf n
  let (month, day) := monthAndDay 1 (monthLengths year) (n - daysBeforeYear year).toNat
  (year, month, day)

namespace Date

/-- The day with a year, month and day, if the calendar has it. -/
def of? (year : Int) (month day : Nat) : Option Date :=
  if h : firstYear ≤ year ∧ year ≤ lastYear then
    if h' : 1 ≤ day ∧ day ≤ monthLength year month then some ⟨year, month, day, h, h'⟩
    else none
  else none

/-- The number of a day. -/
def number (d : Date) : Int :=
  dayNumber d.year d.month d.day

/-- The day with a number, if it lies in the calendar. -/
def ofNumber? (n : Int) : Option Date :=
  let (year, month, day) := civil n
  of? year month day

/-- True when the day comes before another one. -/
def before (d e : Date) : Bool :=
  d.year < e.year || (d.year = e.year &&
    (d.month < e.month || (d.month = e.month && d.day < e.day)))

/-- The day `n` days later, or earlier for a negative `n`. -/
def addDays (d : Date) (n : Int) : Option Date :=
  ofNumber? (d.number + n)

/-- The same day of the month `n` months later, or earlier for a negative `n`; in a shorter month
its last day. -/
def addMonths (d : Date) (n : Int) : Option Date :=
  let months := d.year * 12 + d.month - 1 + n
  let year := months / 12
  let month := (months % 12).toNat + 1
  of? year month (min d.day (monthLength year month))

end Date

/-! ### Points in time -/

/-- The number of the first day of 1970. -/
def epochDay : Int := 719162

/-- The number of the day of a point in time, given in seconds of Universal Time since the start
of 1970. -/
def dayOfInstant (seconds : Int) : Int :=
  epochDay + seconds / 86400

/-- The day of a point in time in Universal Time. -/
def Date.ofInstant? (seconds : Int) : Option Date :=
  ofNumber? (dayOfInstant seconds)

end Composer.Calendar
