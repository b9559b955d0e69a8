import Composer.Text.Blank
/-!
# Composer.Tool

**The tools of the composer.** Each tool answers one kind of typed phrase. Its name is what
commands and answers carry, its label and hint are what a host shows. Three tools take their
answers from services and have a channel for their lookups.
-/

namespace Composer

/-- One of the embedded tools. -/
inductive Tool where
  | calculator
  | units
  | currency
  | timezone
  | color
  | date
  | timer
  | random
  | wordCount
  | translator
  | dictionary
deriving DecidableEq, Repr, Inhabited

/-- The tools whose answers need a service, each with lookups of its own. -/
inductive Channel where
  | currency
  | translator
  | dictionary
deriving DecidableEq, Repr, Inhabited

namespace Tool

/-- Every tool. -/
def all : List Tool :=
  [calculator, units, currency, timezone, color, date, timer, random, wordCount, translator,
    dictionary]

/-- The stable name, which is also the id of the command that opens the tool. -/
def name : Tool → String
  | calculator => "calculator"
  | units => "units"
  | currency => "currency"
  | timezone => "timezone"
  | color => "color"
  | date => "date"
  | timer => "timer"
  | random => "random"
  | wordCount => "word-count"
  | translator => "translator"
  | dictionary => "dictionary"

/-- The heading of the tool. -/
def label : Tool → String
  | calculator => "Calculator"
  | units => "Unit Converter"
  | currency => "Currency Converter"
  | timezone => "Timezone Converter"
  | color => "Color"
  | date => "Date Calculator"
  | timer => "Timer"
  | random => "Random"
  | wordCount => "Word Count"
  | translator => "Translator"
  | dictionary => "Dictionary"

/-- What an open tool shows as long as nothing usable is typed. -/
def hint : Tool → String
  | calculator => "Type an expression, e.g. 2 * (3 + 4)"
  | units => "Try 5 km to miles"
  | currency => "Try 50 USD to EUR"
  | timezone => "Try 3pm EST in PST or now in Tokyo"
  | color => "Try #ff8800, rgb(255, 136, 0) or teal"
  | date => "Try days until christmas or 10 days from now"
  | timer => "Type a duration: 5m, 1h30m, 90s or 10:00"
  | random => "Try roll 2d6, flip a coin or random 1-100"
  | wordCount => "Type or paste text to count"
  | translator => "Type text, optionally followed by to <language>"
  | dictionary => "Type a word to define"

/-- The channel on which the tool looks up its answers. -/
def channel? : Tool → Option Channel
  | currency => some .currency
  | translator => some .translator
  | dictionary => some .dictionary
  | _ => none

/-- True of the tools whose answers need a service. -/
def needsLookup (t : Tool) : Bool :=
  t.channel?.isSome

/-- The tool with exactly this name. -/
def named? (s : String) : Option Tool :=
  all.find? (·.name == s)

/-- The tool that a typed name means. Blanks around it, the case of ASCII letters and the choice
between `_` and `-` do not matter. -/
def typed? (s : String) : Option Tool :=
  named? <| String.ofList <| (Text.trim s.toList).map fun c =>
    if c = '_' then '-' else c.toLower

end Tool

/-- What is said of a name that is no tool's. -/
def unknownToolMessage (s : String) : String :=
  "unknown module: " ++ s

namespace Channel

/-- Every channel. -/
def all : List Channel :=
  [currency, translator, dictionary]

/-- The tool that uses the channel. -/
def tool : Channel → Tool
  | currency => .currency
  | translator => .translator
  | dictionary => .dictionary

/-- The name of the channel. -/
def name : Channel → String
  | currency => "currency"
  | translator => "translator"
  | dictionary => "dictionary"

end Channel

end Composer
