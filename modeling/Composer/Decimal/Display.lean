import Composer.Decimal.Layout
import Composer.Decimal.Reading
/-!
# Composer.Decimal.Display

**Numbers as people read and type them.** `display` shows a number without the noise of binary
fractions: ten places, without the zeros at the end. Very large and very small numbers keep all
their digits and get a power of ten. `typed?` reads a number in which commas and underscores
group the digits.
-/

namespace Composer.Decimal

/-- Drops the zeros after the last other digit of a fraction, and the point if nothing follows
it. -/
def dropFractionZeros (s : List Char) : List Char :=
  if s.contains '.' then
    match s.reverse.dropWhile (· = '0') with
    | '.' :: rest => rest.reverse
    | rest => rest.reverse
  else s

/-- The text of a number in an answer. -/
def displayChars (x : Float) : List Char :=
  let size := x.abs
  if !x.isFinite then notFinite x
  else if !(size == 0) && (1e15 ≤ size || size < 1e-9) then scientific.writeChars x
  else
    let text := dropFractionZeros (fixedChars 10 ((x * 1e10).round / 1e10))
    if text = ['-', '0'] then ['0'] else text

/-- The text of a number in an answer. -/
def display (x : Float) : String :=
  String.ofList (displayChars x)

/-- The finite number that was typed, with commas and underscores anywhere between its
characters. -/
def typed? (s : List Char) : Option Float :=
  (ofText? (s.filter fun c => c ≠ ',' && c ≠ '_')).filter Float.isFinite

end Composer.Decimal
