/-!
# Composer.Decimal.Binary64

**What the bits of a double stand for.** Every finite double is a whole number of units of
`2 ^ -1074`, so its magnitude is held here as the natural number of those units (`units`), and
questions about its decimal text become questions about naturals.

* `units` and `gap` read the bits; `roundsTo` tells which multiples of a fraction of a unit round
  to the double;
* `ofUnits` goes the other way for the magnitudes that a double holds exactly;
* `remainder` is the exact remainder of a division that is cut off towards zero.
-/

namespace Composer.Decimal

/-- True of a negative double, negative zero included. -/
def isNegative (x : Float) : Bool :=
  x.toBits >>> 63 == 1

/-- The exponent field. -/
def exponentField (x : Float) : Nat :=
  ((x.toBits >>> 52) &&& 0x7FF).toNat

/-- The fraction field. -/
def fractionField (x : Float) : Nat :=
  (x.toBits &&& 0xFFFFFFFFFFFFF).toNat

/-- The power of two, in units, by which the significand of `x` counts. This is the distance to
the next double above in magnitude. -/
def gap (x : Float) : Nat :=
  Nat.pow 2 (exponentField x - 1)

/-- The magnitude of a finite double in units of `2 ^ -1074`. -/
def units (x : Float) : Nat :=
  if exponentField x = 0 then fractionField x else (Nat.pow 2 52 + fractionField x) * gap x

/-- True of a power of two above the subnormal range: the double below it is nearer than the
double above it. -/
def narrowBelow (x : Float) : Bool :=
  fractionField x == 0 && 1 < exponentField x

/-- True when `a / d` units round to the magnitude of `x`: they lie between the midpoints to its
neighbours, and a midpoint itself rounds to the even significand. -/
def roundsTo (x : Float) (a d : Nat) : Bool :=
  let low := d * (4 * units x - if narrowBelow x then gap x else 2 * gap x)
  let high := d * (4 * units x + 2 * gap x)
  let v := 4 * a
  if fractionField x % 2 = 0 then low ≤ v && v ≤ high else low < v && v < high

/-- The double with the given sign whose magnitude is `n` units, for an `n` that a double holds
exactly; bits below the significand are cut off. -/
def ofUnits (negative : Bool) (n : Nat) : Float :=
  let sign : UInt64 := if negative then 0x8000000000000000 else 0
  if n < Nat.pow 2 52 then Float.ofBits (sign ||| n.toUInt64)
  else
    let shift := n.log2 - 52
    let field := (shift + 1).toUInt64 <<< 52
    Float.ofBits (sign ||| field ||| ((n >>> shift) - Nat.pow 2 52).toUInt64)

/-- The remainder of `x` by `y` with the sign of `x`, computed without rounding. It is not a
number when `x` is not finite or `y` is zero. -/
def remainder (x y : Float) : Float :=
  if x.isNaN || y.isNaN || x.isInf || y == 0 then 0 / 0
  else if y.isInf then x
  else ofUnits (isNegative x) (units x % units y)

end Composer.Decimal
