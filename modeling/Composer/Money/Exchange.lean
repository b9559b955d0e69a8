import Composer.Decimal.Display
import Composer.Measure.Conversion
import Composer.Money.Currency
/-!
# Composer.Money.Exchange

**Conversions between currencies.** The phrase gives an amount, a currency and the currency that
is asked for. The rate is not known here: an exchange between two different currencies stays
partial until `withRate` completes it or `withError` records why there is no rate.
-/

namespace Composer.Money

/-- The answer to a conversion between currencies. -/
structure Exchange where
  /-- The amount that is converted. -/
  amount : Float
  /-- The code of its currency. -/
  source : String
  /-- The code of the currency that is asked for. -/
  target : Option String
  /-- How much of the target one unit of the source is worth. -/
  rate : Option Float
  /-- The amount in the currency that is asked for. -/
  converted : Option Float
  /-- What a host shows. -/
  display : String
  /-- Whether the phrase is incomplete or the rate is missing. -/
  isPartial : Bool
  /-- Whether a lookup of the rate is on its way. -/
  isLoading : Bool
  /-- Why the lookup failed. -/
  error : Option String
deriving DecidableEq

namespace Exchange

/-- A complete pair that waits for its rate. -/
def needsLookup (x : Exchange) : Bool :=
  x.target.isSome && x.rate.isNone && x.error.isNone

/-- The name of the ordered pair of currencies. -/
def pairKey (x : Exchange) : Option String :=
  x.target.map fun target => x.source ++ ":" ++ target

/-- The exchange at a rate. -/
def withRate (x : Exchange) (rate : Float) : Exchange :=
  let converted := x.amount * rate
  { x with
    rate := some rate
    converted := some converted
    display :=
      Decimal.display x.amount ++ " " ++ x.source ++ " = " ++ Decimal.fixed 2 converted ++ " " ++
        x.target.getD ""
    isPartial := false
    isLoading := false
    error := none }

/-- The exchange whose rate could not be had. -/
def withError (x : Exchange) (message : String) : Exchange :=
  { x with error := some message, isLoading := false }

/-- An exchange without a rate; `target` may still be missing. -/
def pending (amount : Float) (source : String) (target : Option String) : Exchange where
  amount := amount
  source := source
  target := target
  rate := none
  converted := none
  display := Decimal.display amount ++ " " ++ source ++ " → " ++ target.getD "…"
  isPartial := true
  isLoading := false
  error := none

end Exchange

/-- What a phrase about currencies says. -/
structure Request where
  /-- The sign before the amount. -/
  sign : Option Char
  /-- The amount as it was typed. -/
  amount : List Char
  /-- The code after the amount. -/
  source : Option (List Char)
  /-- The code after the connecting word. -/
  target : Option (List Char)

/-- An amount with grouping commas that starts with a digit. -/
def amount {β : Type} (k : List Char → Text.Reading β) : Text.Reading β
  | [] => none
  | c :: s => if c.isDigit then Measure.amount k (c :: s) else none

/-- The connecting words and the currency that is asked for, of which up to three letters have
been typed. -/
def target (request : Option (List Char) → Request) : Text.Reading Request :=
  Text.blanks <| Text.keywordAmong ["to", "in", "into"] fun _ =>
    Text.firstOf [
      Text.blanks <|
        Text.run Text.isKeywordLetter (fun n => 1 ≤ n && n ≤ 3) fun code =>
          Text.stop (request (some code)),
      Text.stop (request none)]

/-- The amount, its currency and the currency that is asked for. -/
def body (sign : Option Char) : Text.Reading Request :=
  amount fun number =>
    Text.maybeBlanks <| Text.firstOf [
      Text.exactly 3 Text.isKeywordLetter fun code => target (.mk sign number (some code)),
      target (.mk sign number none)]

/-- The phrase: a sign or nothing, then the amount and the currencies. -/
def phrase : Text.Reading Request
  | [] => none
  | c :: s =>
    if (ofSign? c).isSome then Text.maybeBlanks (body (some c)) s else body none (c :: s)

/-- The currency of the amount: the code after it, or else what the sign before it stands for. -/
def Request.sourceCode? (r : Request) : Option String :=
  match r.source, r.sign with
  | some code, _ => some (capitals code)
  | none, some sign => ofSign? sign
  | none, none => none

/-- The exchange from a known currency. A target of fewer than three bytes is still being typed. -/
def exchange? (amount : Float) (source : String) : Option String → Option Exchange
  | none => some (.pending amount source none)
  | some target =>
    if target.utf8ByteSize ≠ 3 then some (.pending amount source none)
    else if !isKnown target then none
    else if source = target then some ((Exchange.pending amount source (some target)).withRate 1)
    else some (.pending amount source (some target))

/-- The answer to a text, if it asks for a conversion between currencies. -/
def detect (input : List Char) : Option Exchange := do
  let r ← phrase (Text.trim (Text.spellArrows (Text.trim input)))
  let amount ← Decimal.typed? r.amount
  let source ← r.sourceCode?
  if isKnown source then exchange? amount source (r.target.map capitals) else none

end Composer.Money
