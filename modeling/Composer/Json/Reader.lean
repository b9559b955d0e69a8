import Composer.Json.Value
/-!
# Composer.Json.Reader

**Reading JSON text.** The reader takes exactly the texts of the JSON grammar: nothing before or
after the value but spaces, tabs and line ends, no comma before a closing bracket, no control
character in a string, no zero in front of a numeral.

A numeral without a point and without a power of ten is a whole number when it fits 64 bits. Every
other numeral becomes a double in two roundings: its digits are gathered into a 64-bit
significand, digits that no longer fit are dropped, and the significand is multiplied or divided
by one power of ten.
-/

namespace Composer.Json

/-! ### Numerals -/

/-- A numeral as far as it has been read: `significand * 10 ^ exponent`. -/
structure Gathered where
  /-- The digits that fitted 64 bits. -/
  significand : Nat := 0
  /-- The power of ten of the last digit in `significand`. -/
  exponent : Int := 0
  /-- Whether a digit has been dropped. -/
  full : Bool := false

/-- True when one more digit still fits 64 bits. -/
def Gathered.fits (g : Gathered) (digit : Nat) : Bool :=
  10 * g.significand + digit < Nat.pow 2 64

/-- Takes a digit before the point. Once one was dropped, all that follow are. -/
def Gathered.whole (g : Gathered) (c : Char) : Gathered :=
  let digit := c.toNat - '0'.toNat
  if !g.full && g.fits digit then { g with significand := 10 * g.significand + digit }
  else { g with exponent := g.exponent + 1, full := true }

/-- Takes the digits after the point, up to the first one that does not fit. -/
def Gathered.part (g : Gathered) : List Char → Gathered
  | [] => g
  | c :: ds =>
    let digit := c.toNat - '0'.toNat
    if g.fits digit then
      Gathered.part ⟨10 * g.significand + digit, g.exponent - 1, g.full⟩ ds
    else g

/-- The double nearest to `10 ^ n`. -/
def powerOfTen (n : Nat) : Float :=
  Float.ofScientific 1 false n

/-- Divides by `10 ^ n`, a power too large for a double in several steps. -/
def divideByPower : (fuel : Nat) → Float → Nat → Float
  | 0, f, _ => f
  | fuel + 1, f, n =>
    if n ≤ 308 then f / powerOfTen n
    else if f == 0 then f
    else divideByPower fuel (f / powerOfTen 308) (n - 308)

/-- The double that a numeral gives. Ten steps of division take every significand to zero. -/
def Gathered.toFloat (g : Gathered) : Float :=
  let f := g.significand.toUInt64.toFloat
  if g.exponent < 0 then divideByPower 10 f (-g.exponent).toNat
  else if g.exponent ≤ 308 then f * powerOfTen g.exponent.toNat
  else if f == 0 then f
  else 1 / 0

/-- The powers of ten that are written in a numeral stay within 32 bits. -/
def exponentLimit : Nat :=
  Nat.pow 2 31 - 1

/-- The value of digits. -/
def digitsValue (ds : List Char) : Nat :=
  ds.foldl (fun n d => 10 * n + (d.toNat - '0'.toNat)) 0

/-- The double of a numeral with a written power of ten. -/
def Gathered.withPower (g : Gathered) (negative : Bool) (n : Nat) : Float :=
  if n ≤ exponentLimit then
    Gathered.toFloat { g with exponent := if negative then g.exponent - n else g.exponent + n }
  else if g.significand = 0 || negative then 0
  else 1 / 0

/-- A numeral without a point and a power of ten. Negative zero and what does not fit 64 bits are
doubles. -/
def wholeNumber (negative : Bool) (g : Gathered) : Json :=
  let n := g.significand
  if g.full then real (if negative then -g.toFloat else g.toFloat)
  else if !negative then integer n
  else if n = 0 || Nat.pow 2 63 < n then real (-n.toUInt64.toFloat)
  else integer (-(n : Int))

/-- A double with its sign. -/
def signed (negative : Bool) (x : Float) : Json :=
  real (if negative then -x else x)

/-- Takes the minus in front of a numeral. -/
def takeMinus : List Char → Bool × List Char
  | '-' :: r => (true, r)
  | r => (false, r)

/-- Takes the sign of a power of ten. -/
def takePowerSign : List Char → Bool × List Char
  | '+' :: r => (false, r)
  | r => takeMinus r

/-- Reads the power of ten of a numeral. Without one the numeral is `plain`. -/
def readPower (negative : Bool) (g : Gathered) (plain : Json) :
    List Char → Option (Json × List Char)
  | [] => some (plain, [])
  | c :: r =>
    if c = 'e' ∨ c = 'E' then
      let (down, r) := takePowerSign r
      let es := r.takeWhile Char.isDigit
      if es.isEmpty then none
      else some (signed negative (g.withPower down (digitsValue es)), r.dropWhile Char.isDigit)
    else some (plain, c :: r)

/-- Reads what follows the digits before the point. -/
def readFraction (negative : Bool) (g : Gathered) : List Char → Option (Json × List Char)
  | '.' :: r =>
    let fs := r.takeWhile Char.isDigit
    if fs.isEmpty then none
    else
      let g := g.part fs
      readPower negative g (signed negative g.toFloat) (r.dropWhile Char.isDigit)
  | r => readPower negative g (wholeNumber negative g) r

/-- Reads a numeral. -/
def readNumber (s : List Char) : Option (Json × List Char) :=
  let (negative, s) := takeMinus s
  let ds := s.takeWhile Char.isDigit
  if ds.isEmpty || (1 < ds.length && ds.head? = some '0') then none
  else readFraction negative (ds.foldl Gathered.whole {}) (s.dropWhile Char.isDigit)

/-! ### Strings -/

/-- A piece of a string: a character, or an escaped half of a surrogate pair. -/
inductive Piece where
  /-- A character. -/
  | char (c : Char)
  /-- Half of a surrogate pair, by its code. -/
  | half (n : Nat)

/-- The value of a hexadecimal digit. -/
def hexValue? (c : Char) : Option Nat :=
  if c.isDigit then some (c.toNat - '0'.toNat)
  else if 'a' ≤ c ∧ c ≤ 'f' then some (c.toNat - 'a'.toNat + 10)
  else if 'A' ≤ c ∧ c ≤ 'F' then some (c.toNat - 'A'.toNat + 10)
  else none

/-- The piece that a four digit escape stands for. -/
def pieceOfHex? (a b c d : Char) : Option Piece := do
  let n := 4096 * (← hexValue? a) + 256 * (← hexValue? b) + 16 * (← hexValue? c) + (← hexValue? d)
  some (if 0xD800 ≤ n ∧ n < 0xE000 then .half n else .char (Char.ofNat n))

/-- The character of a one letter escape. -/
def shortEscape? : Char → Option Char
  | '"' => some '"'
  | '\\' => some '\\'
  | '/' => some '/'
  | 'b' => some '\x08'
  | 'f' => some '\x0c'
  | 'n' => some '\n'
  | 'r' => some '\r'
  | 't' => some '\t'
  | _ => none

/-- Reads a string after its opening quote, up to and with the closing one. -/
def readPieces : List Char → Option (List Piece × List Char)
  | [] => none
  | '"' :: rest => some ([], rest)
  | '\\' :: 'u' :: a :: b :: c :: d :: rest => do
    let p ← pieceOfHex? a b c d
    let (ps, rest) ← readPieces rest
    some (p :: ps, rest)
  | '\\' :: e :: rest => do
    let c ← shortEscape? e
    let (ps, rest) ← readPieces rest
    some (.char c :: ps, rest)
  | c :: rest =>
    if c = '\\' || c.toNat < 0x20 then none
    else do
      let (ps, rest) ← readPieces rest
      some (.char c :: ps, rest)

/-- Joins the halves of surrogate pairs; a half without the other writes no text. -/
def joinPieces : List Piece → Option (List Char)
  | [] => some []
  | .char c :: ps => (joinPieces ps).map (c :: ·)
  | .half hi :: .half lo :: ps =>
    if hi < 0xDC00 ∧ 0xDC00 ≤ lo then
      (joinPieces ps).map (Char.ofNat (0x10000 + 1024 * (hi - 0xD800) + (lo - 0xDC00)) :: ·)
    else none
  | .half _ :: _ => none

/-! ### Values -/

/-- The object of fields whose names have been read. A name that writes no text makes it none that
can be used. -/
def objectOf (fields : List (Option (List Char) × Json)) : Json :=
  match fields.mapM fun (name, value) => name.map fun cs => (String.ofList cs, value) with
  | some fields => object fields
  | none => garbled

/-- The text after the spaces, tabs and line ends at its start. -/
def skipSpace (s : List Char) : List Char :=
  s.dropWhile fun c => c = ' ' || c = '\n' || c = '\t' || c = '\r'

mutual

/-- Reads a value. Every step takes at least one character, so the length of the text is fuel
enough. -/
def readValue : (fuel : Nat) → List Char → Option (Json × List Char)
  | 0, _ => none
  | fuel + 1, s =>
    match skipSpace s with
    | 'n' :: 'u' :: 'l' :: 'l' :: r => some (null, r)
    | 't' :: 'r' :: 'u' :: 'e' :: r => some (bool true, r)
    | 'f' :: 'a' :: 'l' :: 's' :: 'e' :: r => some (bool false, r)
    | '"' :: r => do
      let (ps, r) ← readPieces r
      let value := match joinPieces ps with
        | some cs => string (String.ofList cs)
        | none => garbled
      some (value, r)
    | '[' :: r =>
      match skipSpace r with
      | ']' :: r => some (array [], r)
      | r => do
        let (items, r) ← readItems fuel r
        some (array items, r)
    | '{' :: r =>
      match skipSpace r with
      | '}' :: r => some (object [], r)
      | r => do
        let (fields, r) ← readFields fuel r
        some (objectOf fields, r)
    | r => readNumber r

/-- Reads the items of a sequence that is not empty, up to and with the closing bracket. -/
def readItems : (fuel : Nat) → List Char → Option (List Json × List Char)
  | 0, _ => none
  | fuel + 1, s => do
    let (item, s) ← readValue fuel s
    match skipSpace s with
    | ',' :: r => do
      let (items, r) ← readItems fuel r
      some (item :: items, r)
    | ']' :: r => some ([item], r)
    | _ => none

/-- Reads the fields of an object that is not empty, up to and with the closing brace. -/
def readFields : (fuel : Nat) → List Char →
    Option (List (Option (List Char) × Json) × List Char)
  | 0, _ => none
  | fuel + 1, s =>
    match skipSpace s with
    | '"' :: r => do
      let (ps, r) ← readPieces r
      match skipSpace r with
      | ':' :: r => do
        let (value, r) ← readValue fuel r
        match skipSpace r with
        | ',' :: r => do
          let (fields, r) ← readFields fuel r
          some ((joinPieces ps, value) :: fields, r)
        | '}' :: r => some ([(joinPieces ps, value)], r)
        | _ => none
      | _ => none
    | _ => none

end

/-- The value that a JSON text writes. -/
def parse? (text : String) : Option Json := do
  let s := text.toList
  let (value, rest) ← readValue (s.length + 1) s
  if (skipSpace rest).isEmpty then some value else none

end Composer.Json
