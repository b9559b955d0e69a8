import Composer.Calendar.Date
import Composer.Text.Lowercase
import Composer.Text.Phrase
/-!
# Composer.Calendar.TypedDate

**Days as people type them**: the words *today*, *tomorrow* and *yesterday*, holidays, three
numbers, or a day and the beginning of a month's name. A day without a year lies in the current
year; where the future is meant and it has passed, it lies in the next one.
-/

namespace Composer.Calendar

/-- A holiday that falls on the same day every year. -/
structure Holiday where
  /-- Its names in lower case. -/
  names : List String
  /-- Its month. -/
  month : Nat
  /-- Its day of the month. -/
  day : Nat

/-- The known holidays. -/
def holidays : List Holiday := [
  ⟨["christmas", "xmas", "christmas day"], 12, 25⟩,
  ⟨["christmas eve"], 12, 24⟩,
  ⟨["new year", "new years", "new year's", "new year's day", "new years day"], 1, 1⟩,
  ⟨["new year's eve", "new years eve"], 12, 31⟩,
  ⟨["halloween"], 10, 31⟩,
  ⟨["valentine's day", "valentines day", "valentine's", "valentines"], 2, 14⟩]

/-- The names of the months in lower case. -/
def monthKeys : List String :=
  ["january", "february", "march", "april", "may", "june", "july", "august", "september",
    "october", "november", "december"]

/-- The month whose name begins with what was typed, at least three letters. -/
def month? (s : List Char) : Option Nat :=
  if s.length < 3 then none
  else (monthKeys.findIdx? fun name => s.isPrefixOf name.toList).map (· + 1)

/-- A day and a month, with a year or without. -/
structure MonthDay where
  /-- The month. -/
  month : Nat
  /-- The day of the month. -/
  day : Nat
  /-- The year, if it was typed. -/
  year : Option Int

/-- The day that is meant. Without a year it lies in the year of `today`, or in the next one if it
has passed and the future is meant. -/
def MonthDay.resolve (m : MonthDay) (today : Date) (future : Bool) : Option Date :=
  match m.year with
  | some year => Date.of? year m.month m.day
  | none => do
    let d ← Date.of? today.year m.month m.day
    if future && d.before today then Date.of? (today.year + 1) m.month m.day else some d

/-! ### Three numbers -/

/-- Year, month and day with hyphens. -/
def hyphenated : Text.Reading (Option Date) :=
  Text.digits 4 4 fun year => Text.char '-' <|
    Text.digits 1 2 fun month => Text.char '-' <|
      Text.digits 1 2 fun day => Text.stop do
        Date.of? (← Text.natural? year) (← Text.natural? month) (← Text.natural? day)

/-- Month, day and year with slashes. -/
def slashed : Text.Reading (Option Date) :=
  Text.digits 1 2 fun month => Text.char '/' <|
    Text.digits 1 2 fun day => Text.char '/' <|
      Text.digits 4 4 fun year => Text.stop do
        Date.of? (← Text.natural? year) (← Text.natural? month) (← Text.natural? day)

/-! ### Names of months -/

/-- The ending of an ordinal number, or nothing. -/
def ordinal {β : Type} (k : Text.Reading β) : Text.Reading β :=
  Text.firstOf [Text.keyword "st" k, Text.keyword "nd" k, Text.keyword "rd" k,
    Text.keyword "th" k, k]

/-- A year of four digits at the end, after blanks and perhaps a comma, or nothing. A year in
digits of another script counts as none. -/
def yearAtEnd (k : Option Int → Option MonthDay) : Text.Reading (Option MonthDay) :=
  let year := Text.blanks <| Text.digits 4 4 fun ds =>
    Text.stop (k ((Text.natural? ds).map Int.ofNat))
  Text.firstOf [Text.char ',' year, year, Text.stop (k none)]

/-- A word of ASCII letters, as far as it goes, and the point of an abbreviation. -/
def monthWord {β : Type} (k : List Char → Text.Reading β) : Text.Reading β :=
  Text.run Text.isKeywordLetter (1 ≤ ·) fun word =>
    Text.optionally (Text.char '.') (k word)

/-- The day and month that a word, digits and a year name. -/
def monthDay? (word ds : List Char) (year : Option Int) : Option MonthDay := do
  some ⟨← month? word, ← Text.natural? ds, year⟩

/-- The month before the day. -/
def monthFirst : Text.Reading (Option MonthDay) :=
  monthWord fun word => Text.blanks <| Text.digits 1 2 fun ds =>
    ordinal <| yearAtEnd (monthDay? word ds)

/-- The day before the month. -/
def dayFirst : Text.Reading (Option MonthDay) :=
  Text.digits 1 2 fun ds => ordinal <| Text.blanks <|
    Text.optionally (fun k => Text.keyword "of" <| Text.blanks k) <|
      monthWord fun word => yearAtEnd (monthDay? word ds)

/-! ### Any day -/

/-- The day that a typed text means on the day `today`. -/
def typedDate? (today : Date) (future : Bool) (s : List Char) : Option Date :=
  let key := Text.askedKey s
  if key = "today".toList ∨ key = "now".toList then some today
  else if key = "tomorrow".toList then today.addDays 1
  else if key = "yesterday".toList then today.addDays (-1)
  else match holidays.find? fun h => h.names.any (·.toList = key) with
  | some h => MonthDay.resolve ⟨h.month, h.day, none⟩ today future
  | none =>
    match (hyphenated key <|> slashed key) with
    | some date => date
    | none =>
      match (monthFirst key <|> dayFirst key) with
      | some (some m) => m.resolve today future
      | _ => none

end Composer.Calendar
