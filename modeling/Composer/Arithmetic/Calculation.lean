import Composer.Arithmetic.Grammar
import Composer.Decimal.Display
import Composer.Text.Phrase
/-!
# Composer.Arithmetic.Calculation

**Calculations in typed text.** `evaluate` closes the parentheses that are still open and computes
the expression. `detect` answers a text when it computes something:

* a balanced expression is answered in full, one with open parentheses as a partial answer;
* `p % of e` takes a percentage of any expression;
* an expression followed by one more operator shows its value while the next operand is awaited.

A bare number is not a calculation, and neither is anything whose value is not finite.
-/

namespace Composer.Arithmetic

/-- The answer to a calculation. -/
structure Calculation where
  /-- The text that was typed. -/
  expression : String
  /-- The value. -/
  value : Float
  /-- What a host shows. -/
  display : String
  /-- Whether the expression is still being typed. -/
  isPartial : Bool
deriving DecidableEq

/-- What an expression evaluates to. -/
structure Evaluation where
  /-- The value. -/
  value : Float
  /-- Whether anything was computed. -/
  hasOperation : Bool
  /-- How many parentheses were left open. -/
  missing : Nat

/-- How many parentheses the tokens leave open after `depth` open ones; nothing when one is closed
that was not opened. -/
def openAfter : (depth : Nat) → List Token → Option Nat
  | depth, [] => some depth
  | depth, .opening :: ts => openAfter (depth + 1) ts
  | 0, .closing :: _ => none
  | depth + 1, .closing :: ts => openAfter depth ts
  | depth, _ :: ts => openAfter depth ts

/-- The value of a text as an expression whose open parentheses are closed at its end. -/
def evaluate (s : List Char) : Option Evaluation := do
  let ts ← tokens? s
  let missing ← openAfter 0 ts
  let e ← parse? (ts ++ List.replicate missing .closing)
  let value ← e.eval
  some ⟨value, e.hasOperation, missing⟩

/-- The answer with a value, if the value is finite. -/
def Calculation.of? (text : List Char) (value : Float) (isPartial : Bool) : Option Calculation :=
  if value.isFinite then
    some ⟨String.ofList text, value, Decimal.display value, isPartial⟩
  else none

/-- The percentage and the base of `p % of e`. -/
def percentOf : Text.Reading (List Char × List Char) := fun s =>
  let (sign, s) := match s with
    | '-' :: r => (['-'], r)
    | r => ([], r)
  Text.numeral 1 s.length
    (fun percent =>
      Text.maybeBlanks <| Text.char '%' <| Text.maybeBlanks <| Text.keyword "of" <|
        Text.blanks <| Text.lineToEnd fun base => some (sign ++ percent, base)) s

/-- The signs that announce another operand. -/
def announcesOperand (c : Char) : Bool :=
  match Token.ofChar? c with
  | some (.operator _) => true
  | _ => false

/-- The running value of an expression that ends in one operator too many. -/
def beforeOperator (text : List Char) : Option Calculation := do
  let last ← text.getLast?
  if announcesOperand last then
    let e ← evaluate (Text.trimEnd text.dropLast)
    let answer ← Calculation.of? text e.value true
    some { answer with
      display := String.ofList (Decimal.displayChars e.value ++ [' ', last, ' ', '…']) }
  else none

/-- The answer to a text, if it is a calculation. -/
def detect (input : List Char) : Option Calculation :=
  let text := Text.trim input
  match percentOf text with
  | some (percent, base) => do
    let p ← Decimal.ofText? percent
    let e ← evaluate base
    Calculation.of? text (p / 100 * e.value) false
  | none =>
    match evaluate text with
    | some e =>
      if e.hasOperation then Calculation.of? text e.value (e.missing ≠ 0) else none
    | none => beforeOperator text

end Composer.Arithmetic
