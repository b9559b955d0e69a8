import Composer.Calendar.Date
import Composer.Decimal.Layout
import Composer.Decimal.Reading
import Composer.Text.Blank
/-!
# Composer.Calendar.Layout

**How days are written.** Answers show a day with the short names of weekday and month; records
carry it as year, month and day with hyphens, and `ofRecord?` reads that form back. A year has at
least four digits, and a sign when it is negative or has more.
-/

namespace Composer.Calendar

/-- The short names of the days of the week, Monday first. -/
def weekdayNames : List String :=
  ["Mon", "Tue", "Wed", "Thu", "Fri", "Sat", "Sun"]

/-- The names of the months. -/
def monthNames : List String :=
  ["January", "February", "March", "April", "May", "June", "July", "August", "September",
    "October", "November", "December"]

/-- The short name of a month. -/
def shortMonth (month : Nat) : String :=
  String.ofList ((monthNames[month - 1]?.getD "").toList.take 3)

/-- The short name of the weekday of the day with a number; the first day of year 1 is a
Monday. -/
def weekday (n : Int) : String :=
  weekdayNames[(n % 7).toNat]?.getD ""

/-- A year as text. -/
def yearText (year : Int) : List Char :=
  if year < 0 then '-' :: Decimal.padded 4 year.natAbs
  else if 9999 < year then '+' :: Decimal.padded 4 year.natAbs
  else Decimal.padded 4 year.natAbs

namespace Date

/-- A day with the name of the month, as `Oct 19, 2026`. -/
def short (d : Date) : String :=
  shortMonth d.month ++ " " ++
    String.ofList (Decimal.digitsOf d.day ++ ',' :: ' ' :: yearText d.year)

/-- A day with the names of weekday and month, as `Mon, Oct 19, 2026`. -/
def long (d : Date) : String :=
  weekday d.number ++ ", " ++ d.short

/-- A day as records carry it, as `2026-10-19`. -/
def record (d : Date) : String :=
  String.ofList
    (yearText d.year ++ '-' :: Decimal.padded 2 d.month ++ '-' :: Decimal.padded 2 d.day)

end Date

/-- Up to `most` digits at the front of a text, after blanks, with the text that follows. -/
def takeNumber (most : Nat) (s : List Char) : Option (Nat × List Char) :=
  let s := Text.trimStart s
  let ds := (s.takeWhile Char.isDigit).take most
  if ds.isEmpty then none else some (Decimal.foldDigits 0 ds, s.drop ds.length)

/-- A year at the front of a text, after blanks: any number of digits after a sign, up to four
without one. -/
def takeYear (s : List Char) : Option (Int × List Char) :=
  match Text.trimStart s with
  | '-' :: r =>
    if r.head?.any Char.isDigit then (takeNumber r.length r).map fun (n, r) => (-(n : Int), r)
    else none
  | '+' :: r =>
    if r.head?.any Char.isDigit then (takeNumber r.length r).map fun (n, r) => ((n : Int), r)
    else none
  | r => (takeNumber 4 r).map fun (n, r) => ((n : Int), r)

/-- The text after a hyphen that may have blanks before it. -/
def afterHyphen (s : List Char) : Option (List Char) :=
  match Text.trimStart s with
  | '-' :: r => some r
  | _ => none

/-- Reads a day as records carry it. Blanks may stand around each part. -/
def Date.ofRecord? (s : String) : Option Date := do
  let (year, s) ← takeYear s.toList
  let (month, s) ← takeNumber 2 (← afterHyphen s)
  let (day, s) ← takeNumber 2 (← afterHyphen s)
  if Text.allBlank s then Date.of? year month day else none

end Composer.Calendar
