import Composer.Answer.Basic
/-!
# Composer.Detection

**Which tool answers a text.** `auto` asks the tools one after the other, narrow phrases before
broad ones, and takes the first answer; the timer is not asked, and the calculator, which reads
almost anything with a number in it, comes last. `focused` asks one tool alone, and four tools
read more when they are asked alone.
-/

namespace Composer

/-- What an answer depends on besides the text. -/
structure Context where
  /-- The present in seconds of Universal Time since the start of 1970. -/
  now : Int
  /-- The seed of everything random. -/
  seed : UInt64
  /-- The language into which texts are translated when no language is named. -/
  language : String
deriving DecidableEq

namespace Detection

/-- The order in which the tools are asked. -/
def order : List Tool :=
  [.color, .units, .currency, .timezone, .date, .random, .translator, .dictionary, .wordCount,
    .calculator]

/-- The answer that one tool gives to a text of its phrases. -/
def ofTool (t : Tool) (text : List Char) (ctx : Context) : Option Answer :=
  match t with
  | .calculator => (Arithmetic.detect text).map .calculator
  | .units => (Measure.detect text).map .units
  | .currency => (Money.detect text).map .currency
  | .timezone => (Clock.detect ctx.now text).map .timezone
  | .color => (Color.detect text).map .color
  | .date => do
    let today ← Calendar.Date.ofInstant? ctx.now
    (Calendar.detect today text).map .date
  | .timer => (Countdown.detect text).map .timer
  | .random => (Chance.detect ctx.seed text).map .random
  | .wordCount => (Prose.detect text).map .wordCount
  | .translator => (Language.detect text).map .translator
  | .dictionary => (Lexicon.detect text).map .dictionary

/-- The first answer to a text. -/
def auto (text : List Char) (ctx : Context) : Option Answer :=
  let text := Text.trim text
  if text.isEmpty then none else order.findSome? fun t => ofTool t text ctx

/-- The answer of the tool that is open. -/
def focused (t : Tool) (text : List Char) (ctx : Context) : Option Answer :=
  let text := Text.trim text
  if text.isEmpty then none
  else match t with
    | .wordCount => (Prose.detectFocused text).map .wordCount
    | .translator => (Language.detectFocused ctx.language text).map .translator
    | .dictionary => (Lexicon.detectFocused text).map .dictionary
    | t => ofTool t text ctx

end Detection

end Composer
