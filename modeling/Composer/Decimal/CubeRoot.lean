import Composer.Decimal.Shortest
/-!
# Composer.Decimal.CubeRoot

**The cube root of a double**, rounded once to the nearest double. It is found in natural numbers:
the root of a number of units is searched bit by bit with room for all its digits. No root lies in
the middle between two doubles, because the cube of such a middle has more digits than a double.
-/

namespace Composer.Decimal

/-- The largest number whose cube is at most `n` among those from `r` on that differ from `r` in
the last `bits` bits only. -/
def rootFrom (n : Nat) : (bits r : Nat) → Nat
  | 0, r => r
  | bits + 1, r =>
    let next := r + Nat.pow 2 bits
    rootFrom n bits (if Nat.pow next 3 ≤ n then next else r)

/-- The largest natural number whose cube is at most `n`. -/
def naturalRoot (n : Nat) : Nat :=
  rootFrom n (n.log2 / 3 + 1) 0

/-- The double nearest to the cube root of `x`. -/
def cubeRoot (x : Float) : Float :=
  if x.isNaN || x.isInf || x == 0 then x
  else
    -- A root of `r` units has a cube of `r ^ 3` units, each `2 ^ 2148` times smaller.
    let r := naturalRoot (units x * Nat.pow 2 2148)
    let step := Nat.pow 2 (r.log2 - 52)
    ofUnits (isNegative x) (roundQuotient .even r step * step)

end Composer.Decimal
