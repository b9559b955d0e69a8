import Composer.Decimal.Layout
import Composer.Decimal.Reading
import Composer.Text.Lowercase
import Composer.Text.Phrase
/-!
# Composer.Countdown.Duration

**Durations in whole seconds.** A duration is written as a clock reading, with hours only where
there are any. It is typed as a clock reading, as a number of minutes, or as numbers with units;
a label may stand before or after it.
-/

namespace Composer.Countdown

/-! ### Writing -/

/-- A duration as minutes and seconds, after the hours if there are any. -/
def durationChars (seconds : Nat) : List Char :=
  let hours := seconds / 3600
  let minutes := seconds % 3600 / 60
  let rest := seconds % 60
  if 0 < hours then
    Decimal.digitsOf hours ++ ':' :: Decimal.padded 2 minutes ++ ':' :: Decimal.padded 2 rest
  else Decimal.padded 2 minutes ++ ':' :: Decimal.padded 2 rest

/-- A duration as minutes and seconds, after the hours if there are any. -/
def durationText (seconds : Nat) : String :=
  String.ofList (durationChars seconds)

/-! ### Reading -/

/-- A clock reading: hours, minutes and seconds, or minutes and seconds. -/
def clockPhrase : Text.Reading (List Char × List Char × Option (List Char)) :=
  Text.digits 1 2 fun a => Text.char ':' <| Text.exactly 2 Text.isDecimalDigit fun b =>
    Text.firstOf [
      Text.char ':' <| Text.exactly 2 Text.isDecimalDigit fun c => Text.stop (a, b, some c),
      Text.stop (a, b, none)]

/-- The seconds of a clock reading. All parts but the first one are below 60. -/
def clockSeconds? (a b : List Char) (c : Option (List Char)) : Option Nat := do
  let a ← Text.natural? a
  let b ← Text.natural? b
  match c with
  | none => if b < 60 then some (a * 60 + b) else none
  | some c =>
    let c ← Text.natural? c
    if b < 60 ∧ c < 60 then some (a * 3600 + (b * 60 + c)) else none

/-- A number of minutes, if their seconds fit 64 bits. -/
def minutesOnly? (s : List Char) : Option Nat := do
  let minutes ← Text.natural? s
  if minutes * 60 < Nat.pow 2 64 then some (minutes * 60) else none

/-- How many seconds a unit of time has. -/
def unitSeconds? (word : List Char) : Option Float :=
  match String.ofList word with
  | "h" | "hr" | "hrs" | "hour" | "hours" => some 3600
  | "m" | "min" | "mins" | "minute" | "minutes" => some 60
  | "s" | "sec" | "secs" | "second" | "seconds" => some 1
  | _ => none

/-- A blank or comma between the parts of a duration. -/
def isGap (c : Char) : Bool :=
  Text.isBlank c || c = ','

/-- A character of the number before a unit. -/
def inNumber (c : Char) : Bool :=
  c.isDigit || c = '.'

/-- The word *and*, with no letter after it, at the front of a text; what follows it. -/
def afterAnd : List Char → Option (List Char)
  | 'a' :: 'n' :: 'd' :: s => if s.head?.any Char.isAlpha then none else some s
  | _ => none

/-- One number with its unit at the front of a text: its seconds, and what follows it. -/
def component? (s : List Char) : Option (Float × List Char) := do
  let number ← Decimal.ofText? (s.takeWhile inNumber)
  let s := (s.dropWhile inNumber).dropWhile isGap
  let seconds ← unitSeconds? (s.takeWhile Char.isAlpha)
  some (number * seconds, s.dropWhile Char.isAlpha)

/-- The sum of numbers with units, added to `total`. The word *and* may stand before every
component but the first. Each component takes a character at least, so the length of the text is
enough fuel. -/
def componentsFrom (fuel : Nat) (first : Bool) (total : Float) (s : List Char) : Option Float :=
  match fuel with
  | 0 => none
  | fuel + 1 =>
    match s.dropWhile isGap with
    | [] => if first then none else some total
    | c :: r =>
      match (if first then none else afterAnd (c :: r)) with
      | some rest => componentsFrom fuel false total rest
      | none => do
        let (seconds, rest) ← component? (c :: r)
        componentsFrom fuel false (total + seconds) rest

/-- The whole number of 64 bits that is nearest to a number that is not negative, a middle going up.
From `2 ^ 52` on a double has no fraction. -/
def nearestWhole (x : Float) : Nat :=
  let whole := x.toUInt64
  if whole.toNat < Nat.pow 2 52 ∧ 0.5 ≤ x - whole.toFloat then whole.toNat + 1 else whole.toNat

/-- The seconds of numbers with units, rounded. -/
def componentSeconds? (s : List Char) : Option Nat :=
  (componentsFrom (s.length + 1) true 0 s).map nearestWhole

/-- The duration that a whole text says, in seconds. -/
def duration? (text : List Char) : Option Nat :=
  let s := Text.lower (Text.trim text)
  if s.isEmpty then none
  else match clockPhrase s with
    | some (a, b, c) => clockSeconds? a b c
    | none => if s.all Char.isDigit then minutesOnly? s else componentSeconds? s

/-! ### Labels -/

/-- The longest duration of a timer: 99 hours. -/
def maxSeconds : Nat := 99 * 3600

/-- Words with one space between neighbours. -/
def spaced (words : List (List Char)) : List Char :=
  Text.joinWith [' '] words

/-- A duration that a timer can have, with the label that the other words are. -/
def labelled? (seconds : Nat) (label : List (List Char)) : Option (Nat × Option String) :=
  if seconds = 0 ∨ maxSeconds < seconds then none
  else some (seconds, if label.isEmpty then none else some (String.ofList (spaced label)))

/-- The duration in the first `n` words, or in fewer of them, with the words after it. -/
def durationFirst? (words : List (List Char)) : Nat → Option (Nat × List (List Char))
  | 0 => none
  | n + 1 =>
    match duration? (spaced (words.take (n + 1))) with
    | some seconds => some (seconds, words.drop (n + 1))
    | none => durationFirst? words n

/-- The duration in the words after a label, the label being as short as it can. -/
def durationLast? (label : List (List Char)) : List (List Char) →
    Option (Nat × List (List Char))
  | [] => none
  | word :: words =>
    let label := label ++ [word]
    match if words.isEmpty then none else duration? (spaced words) with
    | some seconds => some (seconds, label)
    | none => durationLast? label words

/-- The duration of a timer and its label, as they were typed. A duration in front is taken as long
as possible; only where there is none, one at the end is looked for. -/
def typed? (text : List Char) : Option (Nat × Option String) := do
  let words := Text.words text
  let (seconds, label) ← durationFirst? words words.length <|> durationLast? [] words
  labelled? seconds label

end Composer.Countdown
