import Composer.Calendar.Layout
import Composer.Calendar.TypedDate
/-!
# Composer.Calendar.Reckoning

**Reckoning with days.** One phrase asks how many days lie between today and another day, the
other one goes a number of days, weeks, months or years forward or back, from today or from
another day. A distance is counted from today, so it is negative for a day that has passed.
-/

namespace Composer.Calendar

/-- The answer to a question about days. -/
structure Reckoning where
  /-- The day that was found or asked about. -/
  target : Option Date
  /-- How many days it lies after today. -/
  days : Int
  /-- What a host shows. -/
  display : String
  /-- Whether the phrase is still being typed. -/
  isPartial : Bool
deriving DecidableEq

/-- The word, with an *s* for every number but one. -/
def plural (n : Int) (word : String) : String :=
  if n.natAbs = 1 then word else word ++ "s"

/-! ### Distances -/

/-- The distance phrase: the word of direction as it was typed, and the day if there is one. -/
def distancePhrase : Text.Reading (List Char × Option (List Char)) :=
  Text.optionally (fun k => Text.keyword "how many" <| Text.blanks k) <|
    Text.keyword "days" <| Text.blanks <|
      Text.keywordAmong ["until", "till", "til", "to", "since"] fun word =>
        let mark := Text.optionally (Text.char '?') (Text.stop ())
        Text.firstOf [
          Text.blanks fun s =>
            (Text.shortest Text.inLine mark s).map fun (day, _) => (word, some day),
          fun s => (mark s).map fun _ => (word, none)]

/-- The distance to a day, counted backwards when `since` is set. -/
def Reckoning.distance (today target : Date) (since : Bool) : Reckoning :=
  let days := target.number - today.number
  { target := some target
    days := days
    display :=
      if since then toString (-days) ++ " " ++ plural (-days) "day" ++ " since " ++ target.long
      else toString days ++ " " ++ plural days "day" ++ " until " ++ target.long
    isPartial := false }

/-- The answer to a distance phrase. -/
def distance? (today : Date) (word : List Char) (day : Option (List Char)) : Option Reckoning :=
  let word := Text.lower word
  let since := word = "since".toList
  match day.map Text.trim with
  | none | some [] =>
    some ⟨none, 0, "days " ++ String.ofList word ++ " <date>", true⟩
  | some day => (typedDate? today (!since) day).map fun target =>
    Reckoning.distance today target since

/-! ### Steps -/

/-- The words that tell the direction of a step and where it starts. -/
def directions : List String :=
  ["from now", "from today", "later", "ago", "after", "before", "from"]

/-- What a phrase about a step says, as it was typed. -/
structure Step where
  /-- How many units. -/
  amount : List Char
  /-- The unit of time. -/
  span : List Char
  /-- The direction. -/
  direction : List Char
  /-- The day where the step starts, if it is named. -/
  start : Option (List Char)

/-- The step phrase. -/
def stepPhrase : Text.Reading Step :=
  Text.digits 1 5 fun amount => Text.blanks <|
    Text.keywordAmong ["days", "day", "weeks", "week", "months", "month", "years", "year"]
      fun span => Text.blanks <| Text.keywordAmong directions fun direction =>
        Text.firstOf [
          Text.blanks <| Text.lineToEnd fun start =>
            some ⟨amount, span, direction, some (Text.trim start)⟩,
          Text.stop ⟨amount, span, direction, none⟩]

/-- The day that is `n` units of time away from `d`. -/
def goFrom (d : Date) (n : Int) : (span : String) → Option Date
  | "day" => d.addDays n
  | "week" => d.addDays (n * 7)
  | "month" => d.addMonths n
  | "year" => d.addMonths (n * 12)
  | _ => none

/-- Where a step starts, whether it goes back, and the words that say so in the answer. -/
def origin (today : Date) (direction : String) (start : Option (List Char)) :
    Option (Date × Bool × String) :=
  match direction, start with
  | "from now", none | "from today", none | "later", none => some (today, false, "from now")
  | "ago", none => some (today, true, "ago")
  | "after", some day | "from", some day =>
    (typedDate? today false day).map fun d => (d, false, "after " ++ d.short)
  | "before", some day =>
    (typedDate? today false day).map fun d => (d, true, "before " ++ d.short)
  | _, _ => none

/-- The answer to a step phrase. -/
def Step.reckon (s : Step) (today : Date) : Option Reckoning := do
  let amount ← Text.natural? s.amount
  let span := String.ofList (Text.dropEndWhile (· = 's') (Text.lower s.span))
  let (start, back, words) ← origin today (String.ofList (Text.lower s.direction)) s.start
  let target ← goFrom start (if back then -amount else amount) span
  some {
    target := some target
    days := target.number - today.number
    display :=
      target.long ++ " (" ++ toString amount ++ " " ++ plural amount span ++ " " ++ words ++ ")"
    isPartial := false }

/-- The answer to a text on the day `today`, if it reckons with days. -/
def detect (today : Date) (input : List Char) : Option Reckoning :=
  let text := Text.trim input
  match distancePhrase text with
  | some (word, day) => distance? today word day
  | none => (stepPhrase text).bind (·.reckon today)

end Composer.Calendar
