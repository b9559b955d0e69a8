import Composer.Arithmetic.Token
import Composer.Decimal.Binary64
import Composer.Decimal.CubeRoot
/-!
# Composer.Arithmetic.Expr

**Expressions and their values.** An `Expr` is the derivation of an expression: it keeps its
parentheses and tells an operator that was typed from a multiplication that was only implied.

* `eval` is the value in doubles; only a factorial outside its domain has none;
* `hasOperation` tells an expression that computes something from a bare number, a constant, or
  either of these with signs and parentheses;
* `levels` counts how deep parentheses, signs, exponents and arguments are nested.
-/

namespace Composer.Arithmetic

/-- A named number. -/
inductive Constant where
  | pi
  | e
  | tau
deriving DecidableEq, Repr

/-- The double nearest to a named number. -/
def Constant.value : Constant → Float
  | pi => 3.141592653589793
  | e => 2.718281828459045
  | tau => 6.283185307179586

/-- The constant with a name. -/
def Constant.named? : String → Option Constant
  | "pi" => some .pi
  | "e" => some .e
  | "tau" => some .tau
  | _ => none

/-- A function of one number. -/
inductive Function where
  | sin
  | cos
  | tan
  | asin
  | acos
  | atan
  | sqrt
  | cbrt
  | abs
  | ln
  | log
  | log2
  | exp
  | floor
  | ceil
  | round
deriving DecidableEq, Repr

/-- The function with a name. -/
def Function.named? : String → Option Function
  | "sin" => some .sin
  | "cos" => some .cos
  | "tan" => some .tan
  | "asin" => some .asin
  | "acos" => some .acos
  | "atan" => some .atan
  | "sqrt" => some .sqrt
  | "cbrt" => some .cbrt
  | "abs" => some .abs
  | "ln" => some .ln
  | "log" => some .log
  | "log2" => some .log2
  | "exp" => some .exp
  | "floor" => some .floor
  | "ceil" => some .ceil
  | "round" => some .round
  | _ => none

/-- The value of a function; `log` is to base ten, and `round` takes a half away from zero. -/
def Function.apply : Function → Float → Float
  | sin => Float.sin
  | cos => Float.cos
  | tan => Float.tan
  | asin => Float.asin
  | acos => Float.acos
  | atan => Float.atan
  | sqrt => Float.sqrt
  | cbrt => Decimal.cubeRoot
  | abs => Float.abs
  | ln => Float.log
  | log => Float.log10
  | log2 => Float.log2
  | exp => Float.exp
  | floor => Float.floor
  | ceil => Float.ceil
  | round => Float.round

/-- The value of an operator; the remainder has the sign of its left operand. -/
def Operator.apply : Operator → Float → Float → Float
  | .plus, x, y => x + y
  | .minus, x, y => x - y
  | .times, x, y => x * y
  | .over, x, y => x / y
  | .modulo, x, y => Decimal.remainder x y
  | .power, x, y => Float.pow x y

/-- The product of the numbers from 1 to `n`, multiplied in ascending order. -/
def factorialProduct (n : Nat) : Float :=
  (List.range n).foldl (fun acc k => acc * (k + 1).toFloat) 1

/-- The factorial of a whole number from 0 to 170; no other double has one. -/
def factorial? (x : Float) : Option Float :=
  if x < 0 || x.floor != x || 170 < x then none
  else some (factorialProduct x.toUInt64.toNat)

/-- An expression with all its parentheses. -/
inductive Expr where
  /-- A numeral. -/
  | number (x : Float)
  /-- A named number. -/
  | constant (c : Constant)
  /-- An expression in parentheses. -/
  | group (e : Expr)
  /-- A function and its argument. -/
  | call (f : Function) (arg : Expr)
  /-- A factorial. -/
  | factorial (e : Expr)
  /-- A minus sign. -/
  | negate (e : Expr)
  /-- A plus sign. -/
  | keep (e : Expr)
  /-- Two operands with an operator between them. -/
  | binary (o : Operator) (l r : Expr)
  /-- Two factors side by side. -/
  | juxtaposed (l r : Expr)

namespace Expr

/-- The value of an expression. -/
def eval : Expr → Option Float
  | number x => some x
  | constant c => some c.value
  | group e => e.eval
  | call f arg => arg.eval.map f.apply
  | factorial e => e.eval.bind factorial?
  | negate e => e.eval.map fun x => -x
  | keep e => e.eval
  | binary o l r => l.eval.bind fun x => r.eval.map fun y => o.apply x y
  | juxtaposed l r => l.eval.bind fun x => r.eval.map fun y => x * y

/-- True of an expression with an operator between operands, implied multiplication, a factorial
or a function. -/
def hasOperation : Expr → Bool
  | number _ => false
  | constant _ => false
  | group e => e.hasOperation
  | call _ _ => true
  | factorial _ => true
  | negate e => e.hasOperation
  | keep e => e.hasOperation
  | binary _ _ _ => true
  | juxtaposed _ _ => true

/-- How deep parentheses, signs, exponents and arguments are nested. -/
def levels : Expr → Nat
  | number _ => 0
  | constant _ => 0
  | group e => e.levels + 1
  | call _ arg => arg.levels + 1
  | factorial e => e.levels
  | negate e => e.levels + 1
  | keep e => e.levels + 1
  | binary .power l r => max l.levels (r.levels + 1)
  | binary _ l r => max l.levels r.levels
  | juxtaposed l r => max l.levels r.levels

end Expr

end Composer.Arithmetic
