import Composer.Chance.Stream
import Composer.Text.Phrase
/-!
# Composer.Chance.Outcome

**Dice, coins and random numbers.** Every answer starts a stream of its own from the seed, so the
same text and seed give the same answer. Dice are written as in games: `2d6+1` is the sum of two
dice with six sides and one.
-/

namespace Composer.Chance

/-- What was left to chance. -/
inductive Kind where
  | dice
  | coin
  | number
deriving DecidableEq, Repr

namespace Kind

/-- Every kind. -/
def all : List Kind :=
  [dice, coin, number]

/-- The name that an answer carries. -/
def name : Kind → String
  | dice => "dice"
  | coin => "coin"
  | number => "number"

/-- The kind with a name. -/
def named? (s : String) : Option Kind :=
  all.find? (·.name == s)

end Kind

/-- The answer to a request for something random. -/
structure Outcome where
  /-- What was left to chance. -/
  kind : Kind
  /-- Each die, the single number, or one for heads and nought for tails. -/
  values : List Int
  /-- The sum of the values and what is added to the dice. -/
  total : Int
  /-- What a host shows. -/
  display : String
  /-- Never set: an outcome is complete. -/
  isPartial : Bool
deriving DecidableEq

/-! ### Dice -/

/-- A throw of dice. -/
structure Throw where
  /-- How many dice. -/
  count : Nat
  /-- How many sides each of them has. -/
  sides : Nat
  /-- What is added to their sum. -/
  bonus : Int

/-- The most dice that are thrown at once. -/
def maxDice : Nat := 100

/-- The most sides of a die. -/
def maxSides : Nat := 1000

/-- A throw as it is written in games. -/
def Throw.written (t : Throw) : String :=
  toString t.count ++ "d" ++ toString t.sides ++
    if t.bonus = 0 then "" else if 0 < t.bonus then "+" ++ toString t.bonus else toString t.bonus

/-- The answer to a throw of dice. -/
def Throw.outcome (t : Throw) (seed : UInt64) : Option Outcome :=
  if t.count = 0 ∨ maxDice < t.count ∨ t.sides < 2 ∨ maxSides < t.sides then none
  else do
    let values ← rolls seed t.sides t.count 0
    let total := values.foldr (· + ·) 0 + t.bonus
    some {
      kind := .dice
      values := values
      total := total
      display :=
        if t.count = 1 ∧ t.bonus = 0 then t.written ++ ": " ++ toString total
        else
          t.written ++ ": [" ++ String.intercalate ", " (values.map toString) ++ "] = " ++
            toString total
      isPartial := false }

/-- What a throw says, as it was typed: the count, the sides, and the sign and size of what is
added. -/
structure ThrowText where
  /-- How many dice. -/
  count : List Char
  /-- How many sides. -/
  sides : List Char
  /-- What is added, with true for a minus sign. -/
  bonus : Option (Bool × List Char)

/-- The indefinite article. -/
def article {β : Type} (k : Text.Reading β) : Text.Reading β :=
  Text.firstOf [Text.keyword "an" k, Text.keyword "a" k]

/-- What is added to dice, up to the end of the text. -/
def bonus (k : Option (Bool × List Char) → ThrowText) : Text.Reading ThrowText :=
  let size (minus : Bool) : Text.Reading ThrowText :=
    Text.maybeBlanks <| Text.digits 1 4 fun ds => Text.stop (k (some (minus, ds)))
  Text.firstOf [
    Text.maybeBlanks <| Text.firstOf [Text.char '+' (size false), Text.char '-' (size true)],
    Text.stop (k none)]

/-- The phrase about dice in the notation of games. -/
def throwPhrase : Text.Reading ThrowText :=
  Text.optionally (fun k => Text.keyword "roll" <| Text.blanks k) <|
    Text.optionally (fun k => article <| Text.blanks k) <|
      Text.digits 0 3 fun count => Text.keyword "d" <| Text.digits 1 4 fun sides =>
        bonus (.mk count sides)

/-- The throw that a phrase says; one die if no count was typed. -/
def ThrowText.throw? (t : ThrowText) : Option Throw := do
  let count ← if t.count.isEmpty then some 1 else Text.natural? t.count
  let sides ← Text.natural? t.sides
  match t.bonus with
  | none => some ⟨count, sides, 0⟩
  | some (minus, ds) =>
    let n ← Text.natural? ds
    some ⟨count, sides, if minus then -(n : Int) else n⟩

/-- The phrase that asks for a die without saying which. -/
def rollPhrase : Text.Reading Unit :=
  Text.keyword "roll" <|
    Text.optionally (fun k => Text.blanks <| Text.firstOf [article k, Text.keyword "the" k]) <|
      Text.optionally
        (fun k => Text.blanks <| Text.firstOf [Text.keyword "die" k, Text.keyword "dice" k]) <|
        Text.stop ()

/-! ### Coins -/

/-- The phrase about a coin. -/
def coinPhrase : Text.Reading Unit :=
  Text.firstOf [
    Text.keywordAmong ["flip", "toss"] fun _ =>
      Text.optionally (fun k => Text.blanks <| article k) <|
        Text.blanks <| Text.keyword "coin" <| Text.stop (),
    Text.keyword "coin" <| Text.maybeBlanks <|
      Text.keywordAmong ["flip", "toss"] fun _ => Text.stop (),
    Text.keyword "heads" <| Text.blanks <| Text.keyword "or" <| Text.blanks <|
      Text.keyword "tails" <| Text.optionally (Text.char '?') <| Text.stop ()]

/-- The answer to the toss of a coin. -/
def tossed (seed : UInt64) : Outcome :=
  let heads := coin seed
  let value := if heads then 1 else 0
  ⟨.coin, [value], value, if heads then "Heads" else "Tails", false⟩

/-! ### Numbers -/

/-- A whole number of up to nine digits, with its sign. -/
def bound {β : Type} (k : (Bool × List Char) → Text.Reading β) : Text.Reading β :=
  Text.firstOf [
    Text.char '-' <| Text.digits 1 9 fun ds => k (true, ds),
    Text.digits 1 9 fun ds => k (false, ds)]

/-- The whole number that a bound writes. -/
def boundValue? : Bool × List Char → Option Int
  | (minus, ds) => (Text.natural? ds).map fun n => if minus then -(n : Int) else n

/-- The phrase about a random number, with its two bounds. -/
def numberPhrase : Text.Reading ((Bool × List Char) × (Bool × List Char)) :=
  Text.keywordAmong ["random", "rand", "pick"] fun _ =>
    Text.optionally (fun k => Text.blanks <|
      Text.optionally (fun k => Text.keyword "a" <| Text.blanks k) <| Text.keyword "number" k) <|
      Text.optionally
        (fun k => Text.blanks <| Text.keywordAmong ["between", "from"] fun _ => k) <|
        Text.blanks <| bound fun low => Text.maybeBlanks <|
          Text.keywordAmong ["-", "to", "and", ".."] fun _ => Text.maybeBlanks <|
            bound fun high => Text.stop (low, high)

/-- The phrase that asks for a random number without bounds. -/
def barePhrase : Text.Reading Unit :=
  Text.keywordAmong ["random", "rand"] fun _ =>
    Text.optionally (fun k => Text.blanks <| Text.keyword "number" k) <| Text.stop ()

/-- The answer to a request for a whole number between two bounds. -/
def numbered (seed : UInt64) (low high : Int) : Option Outcome :=
  (between seed low high).map fun value =>
    ⟨.number, [value], value,
      toString value ++ " (" ++ toString low ++ "–" ++ toString high ++ ")", false⟩

/-- The answer to a text with a seed, if it asks for something random. -/
def detect (seed : UInt64) (input : List Char) : Option Outcome :=
  let text := Text.trim input
  match throwPhrase text with
  | some t => t.throw?.bind (·.outcome seed)
  | none =>
    if (rollPhrase text).isSome then Throw.outcome ⟨1, 6, 0⟩ seed
    else if (coinPhrase text).isSome then some (tossed seed)
    else match numberPhrase text with
      | some (a, b) => do
        let a ← boundValue? a
        let b ← boundValue? b
        numbered seed (min a b) (max a b)
      | none => if (barePhrase text).isSome then numbered seed 1 100 else none

end Composer.Chance
