import Composer.Arithmetic.Calculation
import Composer.Calendar.Reckoning
import Composer.Chance.Outcome
import Composer.Clock.Conversion
import Composer.Color.Swatch
import Composer.Countdown.State
import Composer.Language.Translation
import Composer.Lexicon.Definition
import Composer.Measure.Conversion
import Composer.Money.Exchange
import Composer.Prose.Count
import Composer.Tool
/-!
# Composer.Answer.Basic

**The answer to a typed text.** Every tool has answers of its own kind. An answer is *partial*
while its phrase is incomplete or a service still has to complete it; only three tools have
answers that services complete.
-/

namespace Composer

/-- An answer of one of the tools. -/
inductive Answer where
  /-- The value of an expression. -/
  | calculator (r : Arithmetic.Calculation)
  /-- A conversion between units. -/
  | units (r : Measure.Conversion)
  /-- A conversion between currencies. -/
  | currency (r : Money.Exchange)
  /-- A time in another zone. -/
  | timezone (r : Clock.Conversion)
  /-- A color in all notations. -/
  | color (r : Color.Swatch)
  /-- A day or a distance in days. -/
  | date (r : Calendar.Reckoning)
  /-- A countdown. -/
  | timer (r : Countdown)
  /-- Something random. -/
  | random (r : Chance.Outcome)
  /-- The counts of a text. -/
  | wordCount (r : Prose.Count)
  /-- A translation. -/
  | translator (r : Language.Translation)
  /-- The meanings of a word. -/
  | dictionary (r : Lexicon.Definition)
deriving DecidableEq

namespace Answer

/-- The tool that the answer belongs to. -/
def tool : Answer → Tool
  | calculator _ => .calculator
  | units _ => .units
  | currency _ => .currency
  | timezone _ => .timezone
  | color _ => .color
  | date _ => .date
  | timer _ => .timer
  | random _ => .random
  | wordCount _ => .wordCount
  | translator _ => .translator
  | dictionary _ => .dictionary

/-- What a host shows. -/
def display : Answer → String
  | calculator r => r.display
  | units r => r.display
  | currency r => r.display
  | timezone r => r.display
  | color r => r.display
  | date r => r.display
  | timer r => r.display
  | random r => r.display
  | wordCount r => r.display
  | translator r => r.display
  | dictionary r => r.display

/-- Whether the answer is only a hint so far. A countdown never is. -/
def isPartial : Answer → Bool
  | calculator r => r.isPartial
  | units r => r.isPartial
  | currency r => r.isPartial
  | timezone r => r.isPartial
  | color r => r.isPartial
  | date r => r.isPartial
  | timer _ => false
  | random r => r.isPartial
  | wordCount r => r.isPartial
  | translator r => r.isPartial
  | dictionary r => r.isPartial

/-- True of a complete request whose answer a service still has to give. -/
def needsLookup : Answer → Bool
  | currency r => r.needsLookup
  | translator r => r.needsLookup
  | dictionary r => r.needsLookup
  | _ => false

/-- Whether a lookup is on its way. -/
def isLoading : Answer → Bool
  | currency r => r.isLoading
  | translator r => r.isLoading
  | dictionary r => r.isLoading
  | _ => false

/-- The answer with a lookup on its way, where there can be one. -/
def markLoading : Answer → Answer
  | currency r => currency { r with isLoading := true }
  | translator r => translator { r with isLoading := true }
  | dictionary r => dictionary { r with isLoading := true }
  | r => r

/-- The answer whose lookup failed, where there can be one. -/
def withError (message : String) : Answer → Answer
  | currency r => currency (r.withError message)
  | translator r => translator (r.withError message)
  | dictionary r => dictionary (r.withError message)
  | r => r

/-- Why the lookup failed. -/
def error : Answer → Option String
  | currency r => r.error
  | translator r => r.error
  | dictionary r => r.error
  | _ => none

/-- The countdown of a timer. -/
def countdown? : Answer → Option Countdown
  | timer c => some c
  | _ => none

/-- What a host copies: the value of a calculation, a color in hexadecimal digits, a translated
text, and of the other tools what is shown. Partial answers and timers have nothing to copy. -/
def copyText? (a : Answer) : Option String :=
  if a.isPartial then none
  else match a with
    | calculator r => some (Decimal.display r.value)
    | color r => some r.hex
    | translator r => r.translated
    | timer _ => none
    | r => some r.display

end Answer

end Composer
