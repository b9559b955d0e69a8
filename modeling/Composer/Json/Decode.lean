import Composer.Json.Value
/-!
# Composer.Json.Decode

**Taking JSON values apart.** A record is decoded from an object or from a sequence of its fields
in their order. In an object the fields may stand in any order, names that the record does not
have are ignored, and a name that the record has may not be repeated. In a sequence fields at the
end may be missing, but there may not be more items than fields.
-/

namespace Composer.Json

/-- A truth value. -/
def asBool? : Json → Option Bool
  | bool b => some b
  | _ => none

/-- A text. -/
def asString? : Json → Option String
  | string s => some s
  | _ => none

/-- A text of exactly one character. -/
def asChar? : Json → Option Char
  | string s => match s.toList with
    | [c] => some c
    | _ => none
  | _ => none

/-- A finite number. -/
def asFloat? : Json → Option Float
  | integer i => some (Float.ofInt i)
  | real x => if x.isFinite then some x else none
  | _ => none

/-- A whole number from `low` to `high`. -/
def asIntBetween? (low high : Int) : Json → Option Int
  | integer i => if low ≤ i ∧ i ≤ high then some i else none
  | _ => none

/-- A whole number below `bound` that is not negative. -/
def asNatBelow? (bound : Nat) : Json → Option Nat
  | integer i => if 0 ≤ i ∧ i < bound then some i.toNat else none
  | _ => none

/-- A whole number of 64 bits without a sign. -/
def asNat64? : Json → Option Nat :=
  asNatBelow? (Nat.pow 2 64)

/-- A sequence whose items are all decoded by `item`. -/
def asList? {α : Type} (item : Json → Option α) : Json → Option (List α)
  | array items => items.mapM item
  | _ => none

/-- What `value` decodes, or `null` for nothing. -/
def asOption? {α : Type} (value : Json → Option α) : Json → Option (Option α)
  | null => some none
  | j => (value j).map some

/-- The name of one of several alternatives without content: a text, or an object with that one
name and `null`. -/
def asName? : Json → Option String
  | string s => some s
  | object [(name, null)] => some name
  | _ => none

/-- The field of a record with the given name. It may not be repeated. -/
def column? (fields : List (String × Json)) (name : String) : Option (Option Json) :=
  match fields.filter (·.1 = name) with
  | [] => some none
  | [(_, j)] => some (some j)
  | _ => none

/-- The fields of a record in their order, each present or missing. -/
def columns? (names : List String) : Json → Option (List (Option Json))
  | object fields => names.mapM (column? fields)
  | array items =>
    if items.length ≤ names.length then
      some (items.map some ++ List.replicate (names.length - items.length) none)
    else none
  | _ => none

/-- A field that must be present. -/
def required {α : Type} (decode : Json → Option α) (j : Option Json) : Option α :=
  j.bind decode

/-- A field that stands for `value` when it is missing. -/
def orElse {α : Type} (value : α) (decode : Json → Option α) : Option Json → Option α
  | none => some value
  | some j => decode j

/-- A field that may be missing or `null`. -/
def orNone {α : Type} (decode : Json → Option α) : Option Json → Option (Option α) :=
  orElse none (asOption? decode)

end Composer.Json
