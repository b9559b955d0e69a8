import Composer.Decimal.Layout
/-!
# Composer.Clock.Time

**Times of the day.** A time is the number of minutes since midnight. It is shown on a clock of
twelve hours; distances from Universal Time are shown in hours, with minutes where they matter.
-/

namespace Composer.Clock

/-- How many minutes a day has. -/
def minutesPerDay : Nat := 1440

/-- The hour on a clock of twelve hours. -/
def hourOfTwelve (hour : Nat) : Nat :=
  if hour % 12 = 0 then 12 else hour % 12

/-- A time of the day as `3:05 PM`. -/
def timeChars (minutes : Nat) : List Char :=
  Decimal.digitsOf (hourOfTwelve (minutes / 60)) ++ ':' :: Decimal.padded 2 (minutes % 60) ++
    if minutes / 60 < 12 then " AM".toList else " PM".toList

/-- A time of the day as `3:05 PM`. -/
def timeText (minutes : Nat) : String :=
  String.ofList (timeChars minutes)

/-- A distance from Universal Time as `UTC+5:30`. -/
def offsetText (minutes : Int) : String :=
  let size := minutes.natAbs
  String.ofList <|
    "UTC".toList ++ (if minutes < 0 then '-' else '+') :: Decimal.digitsOf (size / 60) ++
      if size % 60 = 0 then [] else ':' :: Decimal.padded 2 (size % 60)

/-- Minutes since midnight from an hour, minutes and the half of the day, which is `some true`
after noon. Without it the hour counts from 0 to 23, with it from 1 to 12. -/
def minutesOf? (hour minute : Nat) (afternoon : Option Bool) : Option Nat :=
  if 59 < minute then none
  else match afternoon with
    | none => if 23 < hour then none else some (hour * 60 + minute)
    | some pm =>
      if hour = 0 ∨ 12 < hour then none
      else some ((hour % 12 + if pm then 12 else 0) * 60 + minute)

end Composer.Clock
