import Composer.Answer.Basic
import Composer.Json.Decode
/-!
# Composer.Answer.Record

**Answers as JSON.** The record of an answer has two fields, the name of the tool and the fields
of the answer. A field without a value is left out, and so is an empty list that has a default.
`decode?` reads records back; it also takes them as sequences of their fields in order.
-/

namespace Composer

open Json

/-- A choice of `true` and `false` that is left out of the record only by a reader. -/
def flag (j : Option Json) : Option Bool :=
  orElse false asBool? j

/-! ### Calculations -/

namespace Arithmetic.Calculation

/-- The record of a calculation. -/
def encode (r : Calculation) : Json :=
  .ofFields [
    field "expression" (.string r.expression),
    field "value" (.real r.value),
    field "display" (.string r.display),
    field "is_partial" (.bool r.isPartial)]

/-- Reads the record of a calculation. -/
def decode? (j : Json) : Option Calculation := do
  match ← columns? ["expression", "value", "display", "is_partial"] j with
  | [expression, value, display, isPartial] =>
    some ⟨← required asString? expression, ← required asFloat? value, ← required asString? display,
      ← required asBool? isPartial⟩
  | _ => none

end Arithmetic.Calculation

/-! ### Conversions between units -/

namespace Measure

/-- Reads the name of a dimension. -/
def Dimension.decode? (j : Json) : Option Dimension :=
  (asName? j).bind named?

namespace Conversion

/-- The record of a conversion between units. -/
def encode (r : Conversion) : Json :=
  .ofFields [
    field "value" (.real r.value),
    field "from" (.string r.source),
    optionalField "to" (r.target.map .string),
    field "category" (.string r.dimension.name),
    optionalField "converted" (r.converted.map .real),
    if r.suggestions.isEmpty then none else field "suggestions" (.ofStrings r.suggestions),
    field "display" (.string r.display),
    field "is_partial" (.bool r.isPartial)]

/-- Reads the record of a conversion between units. -/
def decode? (j : Json) : Option Conversion := do
  match ← columns? ["value", "from", "to", "category", "converted", "suggestions", "display",
      "is_partial"] j with
  | [value, source, target, dimension, converted, suggestions, display, isPartial] =>
    some ⟨← required asFloat? value, ← required asString? source, ← orNone asString? target,
      ← required Dimension.decode? dimension, ← orNone asFloat? converted,
      ← orElse [] (asList? asString?) suggestions, ← required asString? display,
      ← required asBool? isPartial⟩
  | _ => none

end Conversion

end Measure

/-! ### Conversions between currencies -/

namespace Money.Exchange

/-- The record of a conversion between currencies. -/
def encode (r : Exchange) : Json :=
  .ofFields [
    field "amount" (.real r.amount),
    field "from" (.string r.source),
    optionalField "to" (r.target.map .string),
    optionalField "rate" (r.rate.map .real),
    optionalField "converted" (r.converted.map .real),
    field "display" (.string r.display),
    field "is_partial" (.bool r.isPartial),
    field "is_loading" (.bool r.isLoading),
    optionalField "error" (r.error.map .string)]

/-- Reads the record of a conversion between currencies. -/
def decode? (j : Json) : Option Exchange := do
  match ← columns? ["amount", "from", "to", "rate", "converted", "display", "is_partial",
      "is_loading", "error"] j with
  | [amount, source, target, rate, converted, display, isPartial, isLoading, error] =>
    some ⟨← required asFloat? amount, ← required asString? source, ← orNone asString? target,
      ← orNone asFloat? rate, ← orNone asFloat? converted, ← required asString? display,
      ← required asBool? isPartial, ← flag isLoading, ← orNone asString? error⟩
  | _ => none

end Money.Exchange

/-! ### Conversions between time zones -/

namespace Clock.Conversion

/-- The record of a conversion between time zones. -/
def encode (r : Conversion) : Json :=
  .ofFields [
    optionalField "source_time" (r.sourceTime.map .string),
    optionalField "from" (r.source.map .string),
    optionalField "to" (r.target.map .string),
    optionalField "converted_time" (r.convertedTime.map .string),
    field "day_offset" (.integer r.dayOffset),
    optionalField "utc_offset" (r.utcOffset.map .string),
    field "display" (.string r.display),
    field "is_partial" (.bool r.isPartial)]

/-- Reads the record of a conversion between time zones. -/
def decode? (j : Json) : Option Conversion := do
  match ← columns? ["source_time", "from", "to", "converted_time", "day_offset", "utc_offset",
      "display", "is_partial"] j with
  | [sourceTime, source, target, convertedTime, dayOffset, utcOffset, display, isPartial] =>
    some ⟨← orNone asString? sourceTime, ← orNone asString? source, ← orNone asString? target,
      ← orNone asString? convertedTime,
      ← orElse 0 (asIntBetween? (-Int.pow 2 31) (Int.pow 2 31 - 1)) dayOffset, ← orNone asString? utcOffset,
      ← required asString? display, ← required asBool? isPartial⟩
  | _ => none

end Clock.Conversion

/-! ### Colors -/

namespace Color.Swatch

/-- Reads one channel of a color. -/
def channel? (j : Json) : Option UInt8 :=
  (asNatBelow? 256 j).map Nat.toUInt8

/-- The record of a color. -/
def encode (r : Swatch) : Json :=
  .ofFields [
    field "input" (.string r.input),
    field "hex" (.string r.hex),
    field "rgb" (.string r.rgbText),
    field "hsl" (.string r.hslText),
    field "r" (.ofNat r.rgb.r.toNat),
    field "g" (.ofNat r.rgb.g.toNat),
    field "b" (.ofNat r.rgb.b.toNat),
    optionalField "alpha" (r.alpha.map .real),
    optionalField "name" (r.name.map .string),
    field "display" (.string r.display),
    field "is_partial" (.bool r.isPartial)]

/-- Reads the record of a color. -/
def decode? (j : Json) : Option Swatch := do
  match ← columns? ["input", "hex", "rgb", "hsl", "r", "g", "b", "alpha", "name", "display",
      "is_partial"] j with
  | [input, hex, rgb, hsl, r, g, b, alpha, name, display, isPartial] =>
    some ⟨← required asString? input, ← required asString? hex, ← required asString? rgb,
      ← required asString? hsl, ⟨← required channel? r, ← required channel? g,
      ← required channel? b⟩, ← orNone asFloat? alpha, ← orNone asString? name,
      ← required asString? display, ← required asBool? isPartial⟩
  | _ => none

end Color.Swatch

/-! ### Days -/

namespace Calendar

/-- Reads a day. -/
def Date.decode? (j : Json) : Option Date :=
  (asString? j).bind Date.ofRecord?

namespace Reckoning

/-- The record of an answer about days. -/
def encode (r : Reckoning) : Json :=
  .ofFields [
    optionalField "target" (r.target.map fun d => .string d.record),
    field "days" (.integer r.days),
    field "display" (.string r.display),
    field "is_partial" (.bool r.isPartial)]

/-- Reads the record of an answer about days. -/
def decode? (j : Json) : Option Reckoning := do
  match ← columns? ["target", "days", "display", "is_partial"] j with
  | [target, days, display, isPartial] =>
    some ⟨← orNone Date.decode? target, ← orElse 0 (asIntBetween? (-Int.pow 2 63) (Int.pow 2 63 - 1)) days,
      ← required asString? display, ← required asBool? isPartial⟩
  | _ => none

end Reckoning

end Calendar

/-! ### Countdowns -/

namespace Countdown

/-- The record of a countdown. -/
def encode (r : Countdown) : Json :=
  .ofFields [
    field "total_seconds" (.ofNat r.total),
    field "remaining_seconds" (.ofNat r.remaining),
    field "is_running" (.bool r.isRunning),
    field "is_paused" (.bool r.isPaused),
    field "is_complete" (.bool r.isComplete),
    optionalField "label" (r.label.map .string),
    field "display" (.string r.display),
    field "progress" (.real r.progress)]

/-- Reads the record of a countdown. -/
def decode? (j : Json) : Option Countdown := do
  match ← columns? ["total_seconds", "remaining_seconds", "is_running", "is_paused",
      "is_complete", "label", "display", "progress"] j with
  | [total, remaining, isRunning, isPaused, isComplete, label, display, progress] =>
    some ⟨← required asNat64? total, ← required asNat64? remaining, ← required asBool? isRunning,
      ← flag isPaused, ← required asBool? isComplete, ← orNone asString? label,
      ← required asString? display, ← required asFloat? progress⟩
  | _ => none

end Countdown

/-! ### Random answers -/

namespace Chance

/-- Reads the name of a kind. -/
def Kind.decode? (j : Json) : Option Kind :=
  (asName? j).bind named?

namespace Outcome

/-- Reads a whole number of 64 bits with a sign. -/
def asInt64? : Json → Option Int :=
  asIntBetween? (-Int.pow 2 63) (Int.pow 2 63 - 1)

/-- The record of a random answer. -/
def encode (r : Outcome) : Json :=
  .ofFields [
    field "kind" (.string r.kind.name),
    field "values" (.array (r.values.map .integer)),
    field "total" (.integer r.total),
    field "display" (.string r.display),
    field "is_partial" (.bool r.isPartial)]

/-- Reads the record of a random answer. -/
def decode? (j : Json) : Option Outcome := do
  match ← columns? ["kind", "values", "total", "display", "is_partial"] j with
  | [kind, values, total, display, isPartial] =>
    some ⟨← required Kind.decode? kind, ← required (asList? asInt64?) values,
      ← required asInt64? total, ← required asString? display, ← required asBool? isPartial⟩
  | _ => none

end Outcome

end Chance

/-! ### Counts -/

namespace Prose.Count

/-- The record of the counts of a text. -/
def encode (r : Count) : Json :=
  .ofFields [
    field "words" (.ofNat r.words),
    field "characters" (.ofNat r.characters),
    field "characters_no_spaces" (.ofNat r.charactersNoSpaces),
    field "sentences" (.ofNat r.sentences),
    field "paragraphs" (.ofNat r.paragraphs),
    field "reading_minutes" (.ofNat r.readingMinutes),
    field "display" (.string r.display),
    field "is_partial" (.bool r.isPartial)]

/-- Reads the record of the counts of a text. -/
def decode? (j : Json) : Option Count := do
  match ← columns? ["words", "characters", "characters_no_spaces", "sentences", "paragraphs",
      "reading_minutes", "display", "is_partial"] j with
  | [words, characters, noSpaces, sentences, paragraphs, minutes, display, isPartial] =>
    some ⟨← required asNat64? words, ← required asNat64? characters, ← required asNat64? noSpaces,
      ← required asNat64? sentences, ← required asNat64? paragraphs, ← required asNat64? minutes,
      ← required asString? display, ← required asBool? isPartial⟩
  | _ => none

end Prose.Count

/-! ### Translations -/

namespace Language.Translation

/-- The record of a translation. -/
def encode (r : Translation) : Json :=
  .ofFields [
    field "text" (.string r.text),
    optionalField "source" (r.source.map .string),
    optionalField "target" (r.target.map .string),
    optionalField "translated" (r.translated.map .string),
    field "display" (.string r.display),
    field "is_partial" (.bool r.isPartial),
    field "is_loading" (.bool r.isLoading),
    optionalField "error" (r.error.map .string)]

/-- Reads the record of a translation. -/
def decode? (j : Json) : Option Translation := do
  match ← columns? ["text", "source", "target", "translated", "display", "is_partial",
      "is_loading", "error"] j with
  | [text, source, target, translated, display, isPartial, isLoading, error] =>
    some ⟨← required asString? text, ← orNone asString? source, ← orNone asString? target,
      ← orNone asString? translated, ← required asString? display, ← required asBool? isPartial,
      ← flag isLoading, ← orNone asString? error⟩
  | _ => none

end Language.Translation

/-! ### Definitions -/

namespace Lexicon

namespace Meaning

/-- The record of a meaning. -/
def encode (r : Meaning) : Json :=
  .ofFields [
    field "part_of_speech" (.string r.partOfSpeech),
    field "definitions" (.ofStrings r.definitions),
    optionalField "example" (r.sample.map .string)]

/-- Reads the record of a meaning. -/
def decode? (j : Json) : Option Meaning := do
  match ← columns? ["part_of_speech", "definitions", "example"] j with
  | [partOfSpeech, definitions, sample] =>
    some ⟨← required asString? partOfSpeech, ← required (asList? asString?) definitions,
      ← orNone asString? sample⟩
  | _ => none

end Meaning

namespace Definition

/-- The record of the meanings of a word. -/
def encode (r : Definition) : Json :=
  .ofFields [
    field "word" (.string r.word),
    optionalField "phonetic" (r.phonetic.map .string),
    if r.meanings.isEmpty then none
    else field "meanings" (.array (r.meanings.map Meaning.encode)),
    field "display" (.string r.display),
    field "is_partial" (.bool r.isPartial),
    field "is_loading" (.bool r.isLoading),
    optionalField "error" (r.error.map .string)]

/-- Reads the record of the meanings of a word. -/
def decode? (j : Json) : Option Definition := do
  match ← columns? ["word", "phonetic", "meanings", "display", "is_partial", "is_loading",
      "error"] j with
  | [word, phonetic, meanings, display, isPartial, isLoading, error] =>
    some ⟨← required asString? word, ← orNone asString? phonetic,
      ← orElse [] (asList? Meaning.decode?) meanings, ← required asString? display,
      ← required asBool? isPartial, ← flag isLoading, ← orNone asString? error⟩
  | _ => none

end Definition

end Lexicon

/-! ### Any answer -/

namespace Answer

/-- The fields of an answer. -/
def encodeFields : Answer → Json
  | calculator r => r.encode
  | units r => r.encode
  | currency r => r.encode
  | timezone r => r.encode
  | color r => r.encode
  | date r => r.encode
  | timer r => r.encode
  | random r => r.encode
  | wordCount r => r.encode
  | translator r => r.encode
  | dictionary r => r.encode

/-- The record of an answer: its tool and its fields. -/
def encode (a : Answer) : Json :=
  .object [("module", .string a.tool.name), ("result", a.encodeFields)]

/-- Reads the fields of an answer of a tool. -/
def decodeFields? (t : Tool) (j : Json) : Option Answer :=
  match t with
  | .calculator => (Arithmetic.Calculation.decode? j).map calculator
  | .units => (Measure.Conversion.decode? j).map units
  | .currency => (Money.Exchange.decode? j).map currency
  | .timezone => (Clock.Conversion.decode? j).map timezone
  | .color => (Color.Swatch.decode? j).map color
  | .date => (Calendar.Reckoning.decode? j).map date
  | .timer => (Countdown.decode? j).map timer
  | .random => (Chance.Outcome.decode? j).map random
  | .wordCount => (Prose.Count.decode? j).map wordCount
  | .translator => (Language.Translation.decode? j).map translator
  | .dictionary => (Lexicon.Definition.decode? j).map dictionary

/-- Reads the record of an answer. -/
def decode? (j : Json) : Option Answer := do
  match ← columns? ["module", "result"] j with
  | [some tag, some fields] => decodeFields? (← (asName? tag).bind Tool.named?) fields
  | _ => none

end Answer

end Composer
