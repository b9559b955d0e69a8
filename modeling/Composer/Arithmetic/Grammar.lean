import Composer.Arithmetic.Expr
/-!
# Composer.Arithmetic.Grammar

**Reading tokens as an expression.**

```text
expr    := term (('+' | '-') term)*
term    := unary (('*' | '/' | '%') unary | power)*
unary   := ('-' | '+') unary | power
power   := postfix ('^' unary)?
postfix := primary '!'*
primary := number | constant | '(' expr ')' | function power
```

A factor without an operator before it has to start with a parenthesis or a name. Parentheses,
signs, exponents and arguments each open a level, and the levels are counted down: the readers of
one level are made from the readers of the next one, and on the last level every rule that would
open another one fails. So the recursion is on the number of levels, and the two repetitions only
need the number of tokens as fuel.
-/

namespace Composer.Arithmetic

/-- Takes a derivation off the front of the tokens. -/
abbrev Rule := List Token → Option (Expr × List Token)

/-- The rules that open a level. -/
structure Rules where
  /-- A whole expression. -/
  expr : Rule
  /-- A factor with its signs. -/
  unary : Rule
  /-- A factor without signs. -/
  power : Rule

/-- The rules of a level below which there is none. -/
def Rules.none : Rules where
  expr _ := .none
  unary _ := .none
  power _ := .none

section

variable (inner : Rules)

/-- Reads `number | constant | '(' expr ')' | function power`. -/
def primary : Rule
  | .number x :: ts => some (.number x, ts)
  | .opening :: ts =>
    match inner.expr ts with
    | some (e, .closing :: ts) => some (.group e, ts)
    | _ => none
  | .name w :: ts =>
    match Constant.named? w, Function.named? w with
    | some c, _ => some (.constant c, ts)
    | none, some f => (inner.power ts).map fun (arg, ts) => (.call f arg, ts)
    | none, none => none
  | _ => none

/-- Reads `'!'*` after an operand. -/
def bangs (e : Expr) : List Token → Expr × List Token
  | .bang :: ts => bangs (.factorial e) ts
  | ts => (e, ts)

/-- Reads `primary '!'* ('^' unary)?`. -/
def power : Rule := fun ts => do
  let (e, ts) ← primary inner ts
  match bangs e ts with
  | (e, .operator .power :: ts) =>
    (inner.unary ts).map fun (exponent, ts) => (.binary .power e exponent, ts)
  | (e, ts) => some (e, ts)

/-- Reads `('-' | '+') unary | power`. -/
def unary : Rule
  | .operator .minus :: ts => (inner.unary ts).map fun (e, ts) => (.negate e, ts)
  | .operator .plus :: ts => (inner.unary ts).map fun (e, ts) => (.keep e, ts)
  | ts => power inner ts

/-- Reads `(('*' | '/' | '%') unary | power)*` after a factor. -/
def factors : (fuel : Nat) → Expr → Rule
  | 0, _, _ => none
  | fuel + 1, left, ts =>
    let next (o : Operator) (ts : List Token) : Option (Expr × List Token) := do
      let (right, ts) ← unary inner ts
      factors fuel (.binary o left right) ts
    match ts with
    | .operator .times :: ts => next .times ts
    | .operator .over :: ts => next .over ts
    | .operator .modulo :: ts => next .modulo ts
    | .opening :: _ | .name _ :: _ => do
      let (right, ts) ← unary inner ts
      factors fuel (.juxtaposed left right) ts
    | ts => some (left, ts)

/-- Reads `unary (('*' | '/' | '%') unary | power)*`. -/
def term : Rule := fun ts => do
  let (e, ts) ← unary inner ts
  factors inner (ts.length + 1) e ts

/-- Reads `(('+' | '-') term)*` after a term. -/
def terms : (fuel : Nat) → Expr → Rule
  | 0, _, _ => none
  | fuel + 1, left, ts =>
    let next (o : Operator) (ts : List Token) : Option (Expr × List Token) := do
      let (right, ts) ← term inner ts
      terms fuel (.binary o left right) ts
    match ts with
    | .operator .plus :: ts => next .plus ts
    | .operator .minus :: ts => next .minus ts
    | ts => some (left, ts)

/-- Reads `term (('+' | '-') term)*`. -/
def expr : Rule := fun ts => do
  let (e, ts) ← term inner ts
  terms inner (ts.length + 1) e ts

end

/-- The rules of a level from which `n` more can be opened. -/
def rules : Nat → Rules
  | 0 => ⟨expr .none, unary .none, power .none⟩
  | n + 1 => ⟨expr (rules n), unary (rules n), power (rules n)⟩

/-- How many levels can be open at once. -/
def maxLevels : Nat := 64

/-- The derivation of all the tokens, if they are an expression of at most `maxLevels` levels. -/
def parse? (ts : List Token) : Option Expr :=
  match (rules maxLevels).expr ts with
  | some (e, []) => some e
  | _ => none

end Composer.Arithmetic
