import Composer.Decimal.Display
import Composer.Measure.Unit
import Composer.Text.Phrase
/-!
# Composer.Measure.Conversion

**Conversions between units.** A phrase gives a number, a unit, a connecting word and a second
unit of the same dimension. As long as the second unit is missing, the answer is partial and
offers the other units of the dimension.
-/

namespace Composer.Measure

/-- The answer to a conversion between units. -/
structure Conversion where
  /-- The number that is converted. -/
  value : Float
  /-- The symbol of its unit. -/
  source : String
  /-- The symbol of the unit that is asked for. -/
  target : Option String
  /-- What both units measure. -/
  dimension : Dimension
  /-- The number in the unit that is asked for. -/
  converted : Option Float
  /-- Units that could be asked for. -/
  suggestions : List String
  /-- What a host shows. -/
  display : String
  /-- Whether the phrase is still being typed. -/
  isPartial : Bool
deriving DecidableEq

/-- The `n`-th power of ten by repeated squaring, multiplied into `acc`; `square` is the next
square. -/
def powerOfTenBy (acc square : Float) (n : Nat) : Float :=
  let acc := if n % 2 = 1 then acc * square else acc
  if n / 2 = 0 then acc else powerOfTenBy acc (square * square) (n / 2)
  termination_by n

/-- A whole power of ten. A negative power is the reciprocal of the positive one. -/
def powerOfTen (n : Int) : Float :=
  let p := powerOfTenBy 1 10 n.natAbs
  if n < 0 then 1 / p else p

/-- The whole number that a finite double holds after rounding towards zero. -/
def wholePart (x : Float) : Int :=
  if x < 0 then -Int.ofNat (-x).toUInt64.toNat else Int.ofNat x.toUInt64.toNat

/-- Keeps six significant digits, so that long fractions stay readable. -/
def sixDigits (x : Float) : Float :=
  if x == 0 || !x.isFinite then x
  else
    let scale := powerOfTen (5 - wholePart x.abs.log10.floor)
    (x * scale).round / scale

namespace Conversion

/-- The answer while the second unit is missing. -/
def awaiting (x : Float) (u : Unit) : Conversion where
  value := x
  source := u.symbol
  target := none
  dimension := u.dimension
  converted := none
  suggestions := u.others
  display := Decimal.display x ++ " " ++ u.symbol ++ " → …"
  isPartial := true

/-- The answer for two units of one dimension. -/
def between (x : Float) (u v : Unit) : Conversion where
  value := x
  source := u.symbol
  target := some v.symbol
  dimension := u.dimension
  converted := some (Unit.convert x u v)
  suggestions := []
  display :=
    Decimal.display x ++ " " ++ u.symbol ++ " = " ++
      Decimal.display (sixDigits (Unit.convert x u v)) ++ " " ++ v.symbol
  isPartial := false

end Conversion

/-- Digits and grouping commas. -/
def inAmount (c : Char) : Bool :=
  c.isDigit || c = ','

/-- A number with grouping commas: digits with a fraction or without, or a fraction alone. -/
def amount {β : Type} (k : List Char → Text.Reading β) : Text.Reading β := fun s =>
  let (sign, s) := match s with
    | '-' :: r => (['-'], r)
    | r => ([], r)
  let fraction (whole : List Char) (r : List Char) : Option β :=
    match r with
    | '.' :: r =>
      match r.takeWhile Char.isDigit with
      | [] => none
      | part => k (sign ++ whole ++ '.' :: part) (r.dropWhile Char.isDigit)
    | _ => none
  match s with
  | c :: r =>
    if c.isDigit then
      let whole := c :: r.takeWhile inAmount
      let rest := r.dropWhile inAmount
      fraction whole rest <|> k (sign ++ whole) rest
    else fraction [] s
  | [] => none

/-- The words between the two units. -/
def connectors : List String :=
  ["to", "in", "into", "as"]

/-- The number, the first unit and the second one, if it has been typed. -/
def phrase : Text.Reading (List Char × List Char × Option (List Char)) :=
  amount fun number =>
    Text.maybeBlanks fun s =>
      (Text.shortest Text.inLine
        (Text.blanks <| Text.keywordAmong connectors fun _ =>
          Text.firstOf [
            Text.blanks <| Text.lineToEnd fun target => some (some target),
            Text.stop none]) s).map
        fun (source, target) => (number, source, target)

/-- The answer to a text, if it asks for a conversion between units. -/
def detect (input : List Char) : Option Conversion := do
  let (number, source, target) ← phrase (Text.trim (Text.spellArrows (Text.trim input)))
  let x ← Decimal.typed? number
  let u ← Unit.typed? source
  match target with
  | none => some (Conversion.awaiting x u)
  | some target =>
    let v ← Unit.typed? target
    if v.dimension = u.dimension then some (Conversion.between x u v) else none

end Composer.Measure
