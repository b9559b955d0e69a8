import Composer.Json.Value
import Composer.Decimal.Layout
/-!
# Composer.Json.Printer

**Writing JSON text.** `compact` writes a value on one line without spaces, `pretty` writes every
item and field on a line of its own, indented by two spaces a level. Only the quotation mark, the
backslash and the ASCII controls are escaped. A double is written with its shortest digits and
always shows that it is one; what is not a finite number is written as `null`.
-/

namespace Composer.Json

/-- Doubles in JSON: no power of ten for the leading digits from `10 ^ -5` to `10 ^ 15`, a sign
before every other power, `1.0` for one, and the even one of two equally near decimals. -/
def numberLayout : Decimal.Layout where
  tie := .even
  positional e := -5 ≤ e && e ≤ 15
  pointZero := true
  signedPower := true

/-- The digit of a number below sixteen. -/
def hexDigit (n : Nat) : Char :=
  if n < 10 then Char.ofNat ('0'.toNat + n) else Char.ofNat ('a'.toNat + (n - 10))

/-- A character inside a string. -/
def escape (c : Char) : List Char :=
  if c = '"' then ['\\', '"']
  else if c = '\\' then ['\\', '\\']
  else if c = '\x08' then ['\\', 'b']
  else if c = '\x0c' then ['\\', 'f']
  else if c = '\n' then ['\\', 'n']
  else if c = '\r' then ['\\', 'r']
  else if c = '\t' then ['\\', 't']
  else if c.toNat < 0x20 then
    ['\\', 'u', '0', '0', hexDigit (c.toNat / 16), hexDigit (c.toNat % 16)]
  else [c]

/-- A string with its quotes. -/
def quote (s : String) : List Char :=
  '"' :: (s.toList.flatMap escape ++ ['"'])

/-- A whole number. -/
def writeInt (i : Int) : List Char :=
  if i < 0 then '-' :: Decimal.digitsOf i.natAbs else Decimal.digitsOf i.natAbs

/-- A double. -/
def writeReal (x : Float) : List Char :=
  if x.isFinite then numberLayout.writeChars x else "null".toList

mutual

/-- A value on one line. -/
def compactChars : Json → List Char
  | null => "null".toList
  | bool b => if b then "true".toList else "false".toList
  | integer i => writeInt i
  | real x => writeReal x
  | string s => quote s
  | garbled => "null".toList
  | array items => '[' :: compactItems items
  | object fields => '{' :: compactFields fields

/-- The items of a sequence with the closing bracket. -/
def compactItems : List Json → List Char
  | [] => [']']
  | [j] => compactChars j ++ [']']
  | j :: rest => compactChars j ++ ',' :: compactItems rest

/-- The fields of an object with the closing brace. -/
def compactFields : List (String × Json) → List Char
  | [] => ['}']
  | [(name, j)] => quote name ++ ':' :: (compactChars j ++ ['}'])
  | (name, j) :: rest => quote name ++ ':' :: (compactChars j ++ ',' :: compactFields rest)

end

/-- The value on one line. -/
def compact (j : Json) : String :=
  String.ofList (compactChars j)

/-- A new line that is indented by `depth` levels. -/
def newLine (depth : Nat) : List Char :=
  '\n' :: List.replicate (2 * depth) ' '

mutual

/-- A value that starts `depth` levels deep. -/
def prettyChars (depth : Nat) : Json → List Char
  | array [] => ['[', ']']
  | array items => '[' :: prettyItems depth items
  | object [] => ['{', '}']
  | object fields => '{' :: prettyFields depth fields
  | null => "null".toList
  | bool b => if b then "true".toList else "false".toList
  | integer i => writeInt i
  | real x => writeReal x
  | string s => quote s
  | garbled => "null".toList

/-- The items of a sequence with the closing bracket. -/
def prettyItems (depth : Nat) : List Json → List Char
  | [] => newLine depth ++ [']']
  | [j] => newLine (depth + 1) ++ prettyChars (depth + 1) j ++ newLine depth ++ [']']
  | j :: rest => newLine (depth + 1) ++ prettyChars (depth + 1) j ++ ',' :: prettyItems depth rest

/-- The fields of an object with the closing brace. -/
def prettyFields (depth : Nat) : List (String × Json) → List Char
  | [] => newLine depth ++ ['}']
  | [(name, j)] =>
    newLine (depth + 1) ++ quote name ++ ':' :: ' ' :: prettyChars (depth + 1) j ++ newLine depth
      ++ ['}']
  | (name, j) :: rest =>
    newLine (depth + 1) ++ quote name ++ ':' :: ' ' :: prettyChars (depth + 1) j
      ++ ',' :: prettyFields depth rest

end

/-- The value over several lines. -/
def pretty (j : Json) : String :=
  String.ofList (prettyChars 0 j)

end Composer.Json
