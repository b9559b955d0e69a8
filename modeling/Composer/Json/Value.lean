/-!
# Composer.Json.Value

**JSON values.** A number remembers whether it is a whole number or a double, because a field for
a whole number takes no double. The fields of an object keep the order and the repetitions of the
text; what a repetition means is decided where the object is decoded.
-/

namespace Composer

/-- A JSON value. -/
inductive Json where
  /-- The word `null`. -/
  | null
  /-- A truth value. -/
  | bool (b : Bool)
  /-- A whole number that fits 64 bits, signed or unsigned. -/
  | integer (i : Int)
  /-- Any other number. A numeral beyond the range of the doubles is an infinity here, which no
  field takes. -/
  | real (x : Float)
  /-- A text. -/
  | string (s : String)
  /-- A string with an escaped half of a surrogate pair, or an object with such a name: well-formed
  JSON that writes no text. -/
  | garbled
  /-- A sequence. -/
  | array (items : List Json)
  /-- Named fields. -/
  | object (fields : List (String × Json))
deriving Inhabited

namespace Json

/-- An object of the fields that are present. -/
def ofFields (fields : List (Option (String × Json))) : Json :=
  object (fields.filterMap id)

/-- A field that is always written. -/
def field (name : String) (value : Json) : Option (String × Json) :=
  some (name, value)

/-- A field that is left out when there is nothing to write. -/
def optionalField (name : String) (value : Option Json) : Option (String × Json) :=
  value.map fun j => (name, j)

/-- A text or `null`. -/
def ofStringOption (s : Option String) : Json :=
  match s with
  | some s => string s
  | none => null

/-- A whole number that is not negative. -/
def ofNat (n : Nat) : Json :=
  integer n

/-- A list of texts. -/
def ofStrings (ss : List String) : Json :=
  array (ss.map string)

/-- The value of a field, the last one if the name is repeated. -/
def get? (name : String) : Json → Option Json
  | object fields => (fields.reverse.find? (·.1 = name)).map (·.2)
  | _ => none

mutual

/-- The value in which every object keeps only the last field of each name. -/
def lastFieldWins : Json → Json
  | array items => array (lastFieldWinsList items)
  | object fields => object (lastFieldWinsFields fields)
  | j => j

/-- The same for every item of a sequence. -/
def lastFieldWinsList : List Json → List Json
  | [] => []
  | j :: rest => lastFieldWins j :: lastFieldWinsList rest

/-- The same for fields: one that comes again is dropped here and kept there. -/
def lastFieldWinsFields : List (String × Json) → List (String × Json)
  | [] => []
  | (name, j) :: rest =>
    let rest' := lastFieldWinsFields rest
    if rest'.any (·.1 = name) then rest' else (name, lastFieldWins j) :: rest'

end

end Json

end Composer
