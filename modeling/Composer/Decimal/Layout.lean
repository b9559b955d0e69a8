import Composer.Decimal.Shortest
/-!
# Composer.Decimal.Layout

**How a double is written.** A `Layout` is the record of the decisions of one number format; with
`Layout.write` it writes the shortest digits of a double. `fixed` writes a set number of places of
the exact value. The texts of the values that are no numbers are the same in all formats here.
-/

namespace Composer.Decimal

/-- The decisions of a number format. -/
structure Layout where
  /-- Which of two equally near decimals is written. -/
  tie : Tie
  /-- The exponents of the leading digit that are written without a power of ten. -/
  positional : Int → Bool
  /-- Whether a whole number gets a point and a zero. -/
  pointZero : Bool
  /-- Whether a power of ten that is not negative gets a sign. -/
  signedPower : Bool

/-- The digits of a natural number. -/
def digitsOf (n : Nat) : List Char :=
  Nat.toDigits 10 n

/-- A run of `n` zeros. -/
def zeros (n : Nat) : List Char :=
  List.replicate n '0'

/-- The digits of a natural number, with zeros in front up to a width. -/
def padded (width n : Nat) : List Char :=
  zeros (width - (digitsOf n).length) ++ digitsOf n

/-- The text of a number that is not finite: a word, with a sign for the infinities. -/
def notFinite (x : Float) : List Char :=
  if x.isNaN then "NaN".toList
  else if isNegative x then "-inf".toList
  else "inf".toList

/-- Writes digits with the point where the exponent puts it. -/
def writePositional (pointZero : Bool) (ds : List Char) (exponent : Int) : List Char :=
  if 0 ≤ exponent then
    ds ++ zeros exponent.toNat ++ if pointZero then ['.', '0'] else []
  else
    let places := (-exponent).toNat
    if places < ds.length then
      ds.take (ds.length - places) ++ '.' :: ds.drop (ds.length - places)
    else
      '0' :: '.' :: (zeros (places - ds.length) ++ ds)

/-- Writes the power of ten behind its mark. -/
def writePower (signed : Bool) (power : Int) : List Char :=
  if power < 0 then '-' :: digitsOf power.natAbs
  else if signed then '+' :: digitsOf power.natAbs
  else digitsOf power.natAbs

/-- Writes digits with the point after the first one and a power of ten. -/
def writeScientific (signed : Bool) (ds : List Char) (lead : Int) : List Char :=
  match ds with
  | [] => []
  | [d] => d :: 'e' :: writePower signed lead
  | d :: rest => d :: '.' :: (rest ++ 'e' :: writePower signed lead)

/-- Writes a double with its shortest digits. -/
def Layout.writeChars (layout : Layout) (x : Float) : List Char :=
  if !x.isFinite then notFinite x
  else
    let d := shortest layout.tie x
    let ds := digitsOf d.digits
    let lead := d.exponent + ds.length - 1
    let body :=
      if layout.positional lead then writePositional layout.pointZero ds d.exponent
      else writeScientific layout.signedPower ds lead
    if isNegative x then '-' :: body else body

/-- Writes a double with its shortest digits. -/
def Layout.write (layout : Layout) (x : Float) : String :=
  String.ofList (layout.writeChars x)

/-- The shortest digits without a power of ten, however large or small the number. -/
def plain : Layout where
  tie := .up
  positional _ := true
  pointZero := false
  signedPower := false

/-- The shortest digits with a power of ten, however near to one the number. -/
def scientific : Layout where
  tie := .up
  positional _ := false
  pointZero := false
  signedPower := false

/-- Writes a double with `places` digits after the point. The exact value is rounded, a middle to
the even digit; a negative number keeps its sign when it rounds to zero. -/
def fixedChars (places : Nat) (x : Float) : List Char :=
  if !x.isFinite then notFinite x
  else
    let n := roundQuotient .even (units x * Nat.pow 10 places) (Nat.pow 2 1074)
    let whole := digitsOf (n / Nat.pow 10 places)
    let body :=
      if places = 0 then whole else whole ++ '.' :: padded places (n % Nat.pow 10 places)
    if isNegative x then '-' :: body else body

/-- Writes a double with `places` digits after the point. -/
def fixed (places : Nat) (x : Float) : String :=
  String.ofList (fixedChars places x)

end Composer.Decimal
