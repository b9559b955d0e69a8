import Composer.Decimal.Binary64
/-!
# Composer.Decimal.Shortest

**The fewest digits that read back.** `shortest` selects, among the decimals that round to a
double, one with the fewest digits, and among those the one nearest to the double. It searches
the grids of one digit, two digits and so on; on each grid only the two neighbours of the value
can be hits. The caller decides which neighbour wins when both are equally near.
-/

namespace Composer.Decimal

/-- The number `digits * 10 ^ exponent`. -/
structure Scaled where
  /-- The digits as a natural number. -/
  digits : Nat
  /-- The power of ten that the last digit counts. -/
  exponent : Int
deriving DecidableEq, Repr

/-- What to do with a value that lies in the middle between two neighbours. -/
inductive Tie where
  /-- Take the neighbour of larger magnitude. -/
  | up
  /-- Take the even neighbour. -/
  | even
deriving DecidableEq, Repr

/-- The quotient `a / b` rounded to a natural number, a middle as `tie` says. -/
def roundQuotient (tie : Tie) (a b : Nat) : Nat :=
  let q := a / b
  let r := a % b
  if 2 * r < b then q
  else if b < 2 * r then q + 1
  else match tie with
    | .up => q + 1
    | .even => if q % 2 = 0 then q else q + 1

/-- The numerator and denominator of `n` units measured in steps of `10 ^ e`. -/
def inSteps (n : Nat) (e : Int) : Nat × Nat :=
  (n * Nat.pow 10 (-e).toNat, Nat.pow 2 1074 * Nat.pow 10 e.toNat)

/-- The least `k` with `n` units below `10 ^ k`, for positive `n`. The binary logarithm gives a
start that is at most three too low. -/
def magnitude (n : Nat) : Int :=
  let start := ((n.log2 : Int) - 1074) * 30103 / 100000
  let below (k : Int) : Bool := let (a, b) := inSteps n k; a < b
  (((List.range 4).map fun (i : Nat) => start + i).find? below).getD (start + 4)

/-- The best decimal with steps of `10 ^ e` that rounds to the magnitude of `x`, if there is
one. -/
def onGrid (tie : Tie) (x : Float) (e : Int) : Option Scaled :=
  let (a, b) := inSteps (units x) e
  let q := a / b
  -- Step `c` of the grid is `c * b / 10 ^ (-e)` units.
  let hits (c : Nat) : Bool := roundsTo x (c * b) (Nat.pow 10 (-e).toNat)
  match hits q, hits (q + 1) with
  | true, true => some ⟨roundQuotient tie a b, e⟩
  | true, false => some ⟨q, e⟩
  | false, true => some ⟨q + 1, e⟩
  | false, false => none

/-- Moves the zeros at the end of the digits into the exponent. -/
def stripZeros : (fuel : Nat) → Scaled → Scaled
  | 0, d => d
  | fuel + 1, d =>
    if d.digits ≠ 0 ∧ d.digits % 10 = 0 then
      stripZeros fuel ⟨d.digits / 10, d.exponent + 1⟩
    else d

/-- The shortest decimal that rounds to the magnitude of the finite double `x`, without zeros at
its end. Seventeen digits always suffice; the exact value stands behind them. -/
def shortest (tie : Tie) (x : Float) : Scaled :=
  if units x = 0 then ⟨0, 0⟩
  else
    let k := magnitude (units x)
    let found := (List.range 17).findSome? fun (i : Nat) => onGrid tie x (k - ((i : Int) + 1))
    let d := found.getD ⟨units x * Nat.pow 5 1074, -1074⟩
    stripZeros (Nat.log2 d.digits + 1) d

end Composer.Decimal
