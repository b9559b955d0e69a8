import Composer.Calendar.Layout
import Composer.Clock.Time
import Composer.Clock.Zone
import Composer.Text.Phrase
/-!
# Composer.Clock.Conversion

**Conversions between time zones.** One phrase asks for the present time in a zone, the other one
for a time of day of one zone in another. The second zone may fall on the day before or after;
`dayOffset` says which. While the second zone is missing the answer is partial.
-/

namespace Composer.Clock

/-- The answer to a question about time zones. -/
structure Conversion where
  /-- The time that is converted. -/
  sourceTime : Option String
  /-- The zone that it belongs to. -/
  source : Option String
  /-- The zone that is asked for. -/
  target : Option String
  /-- The time there. -/
  convertedTime : Option String
  /-- How many days later it is there. -/
  dayOffset : Int
  /-- The distance of the zone that is asked for from Universal Time. -/
  utcOffset : Option String
  /-- What a host shows. -/
  display : String
  /-- Whether the phrase is still being typed. -/
  isPartial : Bool
deriving DecidableEq

/-! ### The present time -/

/-- The phrase about the present: the zone as it was typed, without a question mark at the end. -/
def presentPhrase : Text.Reading (List Char) :=
  Text.keywordAmong ["now", "time", "what time is it", "current time"] fun _ =>
    Text.blanks <| Text.keyword "in" <| Text.blanks fun s =>
      (Text.shortest Text.inLine (Text.optionally (Text.char '?') (Text.stop ())) s).map (·.1)

/-- The time in a zone at a point in time, in seconds since the start of 1970. -/
def Conversion.present (now : Int) (zone : Zone) : Conversion :=
  let localTime := now + zone.offset * 60
  let day := Calendar.dayOfInstant localTime
  let (_, month, dayOfMonth) := Calendar.civil day
  let time := timeText (localTime % 86400 / 60).toNat
  { sourceTime := none
    source := none
    target := some zone.name
    convertedTime := some time
    dayOffset := 0
    utcOffset := some (offsetText zone.offset)
    display :=
      time ++ " in " ++ zone.name ++ " (" ++ Calendar.weekday day ++ " " ++
        Calendar.shortMonth month ++ " " ++ toString dayOfMonth ++ ", " ++
        offsetText zone.offset ++ ")"
    isPartial := false }

/-! ### A time of day -/

/-- What a phrase about a time of day says. -/
structure Request where
  /-- The hour as it was typed. -/
  hour : List Char
  /-- The minutes. -/
  minute : Option (List Char)
  /-- The half of the day, true after noon. -/
  afternoon : Option Bool
  /-- The zone of the time. -/
  source : List Char
  /-- The zone that is asked for. -/
  target : Option (List Char)

/-- A character of the name of the first zone. -/
def inZoneName (c : Char) : Bool :=
  Text.isKeywordLetter c || c = ' ' || c = '.'

/-- The names of the two zones, the first one starting with a letter. -/
def zoneNames : Text.Reading (List Char × Option (List Char))
  | [] => none
  | c :: s =>
    if Text.isKeywordLetter c then
      Text.shortest inZoneName
        (Text.blanks <| Text.keywordAmong ["in", "to", "into"] fun _ =>
          Text.firstOf [Text.blanks <| Text.lineToEnd fun name => some (some name), Text.stop none])
        (c :: s)
    else none

/-- The half of the day, if it is typed, and the zones. -/
def zonesAfter (hour : List Char) (minute : Option (List Char)) : Text.Reading Request :=
  let zones (afternoon : Option Bool) : Text.Reading Request :=
    Text.blanks fun s => (zoneNames s).map fun (source, target) =>
      ⟨hour, minute, afternoon, source, target⟩
  Text.maybeBlanks <| Text.firstOf [
    Text.keyword "am" (zones (some false)), Text.keyword "pm" (zones (some true)), zones none]

/-- The phrase about a time of day. -/
def timePhrase : Text.Reading Request :=
  Text.digits 1 2 fun hour => Text.firstOf [
    Text.char ':' <| Text.exactly 2 Text.isDecimalDigit fun minute => zonesAfter hour (some minute),
    zonesAfter hour none]

/-- What is added to an answer that falls on another day. -/
def dayOffsetText (days : Int) : String :=
  if days = 0 then ""
  else if days = 1 then " (+1 day)"
  else if days = -1 then " (-1 day)"
  else " (" ++ (if 0 < days then "+" else "") ++ toString days ++ " days)"

namespace Conversion

/-- The answer while the second zone is missing. -/
def awaiting (minutes : Nat) (source : Zone) : Conversion where
  sourceTime := some (timeText minutes)
  source := some source.name
  target := none
  convertedTime := none
  dayOffset := 0
  utcOffset := none
  display := timeText minutes ++ " " ++ source.name ++ " → …"
  isPartial := true

/-- A time of day, in minutes, of the first zone in the second one. -/
def between (minutes : Nat) (source target : Zone) : Conversion :=
  let there := minutes - source.offset + target.offset
  let days := there / minutesPerDay
  let time := timeText (there % minutesPerDay).toNat
  { sourceTime := some (timeText minutes)
    source := some source.name
    target := some target.name
    convertedTime := some time
    dayOffset := days
    utcOffset := some (offsetText target.offset)
    display :=
      timeText minutes ++ " " ++ source.name ++ " = " ++ time ++ " " ++ target.name ++
        dayOffsetText days
    isPartial := false }

end Conversion

/-- The answer to a phrase about a time of day. -/
def Request.convert (r : Request) : Option Conversion := do
  let hour ← Text.natural? r.hour
  let minute ← match r.minute with
    | none => some 0
    | some ds => Text.natural? ds
  let minutes ← minutesOf? hour minute r.afternoon
  let source ← Zone.typed? r.source
  match r.target with
  | none => some (Conversion.awaiting minutes source)
  | some name => (Zone.typed? name).map (Conversion.between minutes source)

/-- The answer to a text at a point in time, if it asks about time zones. -/
def detect (now : Int) (input : List Char) : Option Conversion :=
  let text := Text.trim input
  match presentPhrase text with
  | some name => (Zone.typed? name).map (Conversion.present now)
  | none => (timePhrase text).bind Request.convert

end Composer.Clock
