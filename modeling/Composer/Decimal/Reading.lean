import Composer.Decimal.Binary64
/-!
# Composer.Decimal.Reading

**Reading a double.** `ofText?` reads the usual spellings: a sign, digits with or without a point
on either side, a power of ten, and the words for infinity and for what is no number, in any
letter case. The result is the double nearest to the number that was written, a middle going to
the even significand.
-/

namespace Composer.Decimal

/-- The natural number that decimal digits write, continuing from `n`. -/
def foldDigits (n : Nat) (ds : List Char) : Nat :=
  ds.foldl (fun n d => 10 * n + (d.toNat - '0'.toNat)) n

/-- The double nearest to `m * 10 ^ e`. Powers that no double reaches are cut short, so that the
size of `e` does not matter. -/
def nearest (m : Nat) (e : Int) : Float :=
  let lead := e + (m.log2 : Int) * 30103 / 100000
  if m = 0 || lead < -400 then 0
  else if 400 < lead then 1 / 0
  else if 0 ≤ e then Float.ofScientific m false e.toNat
  else Float.ofScientific m true (-e).toNat

/-- The power of ten that a text writes: nothing, or a mark, a sign and digits. -/
def power? : List Char → Option Int
  | [] => some 0
  | c :: s =>
    if c ≠ 'e' ∧ c ≠ 'E' then none
    else
      let (negative, ds) := match s with
        | '-' :: r => (true, r)
        | '+' :: r => (false, r)
        | r => (false, r)
      if ds.isEmpty || !ds.all Char.isDigit then none
      else
        let n := foldDigits 0 ds
        some (if negative then -(n : Int) else n)

/-- The magnitude that an unsigned numeral writes. -/
def magnitude? (s : List Char) : Option Float :=
  let whole := s.takeWhile Char.isDigit
  let afterWhole := s.dropWhile Char.isDigit
  let (part, rest) := match afterWhole with
    | '.' :: r => (r.takeWhile Char.isDigit, r.dropWhile Char.isDigit)
    | r => ([], r)
  if whole.isEmpty && part.isEmpty then none
  else (power? rest).map fun e => nearest (foldDigits 0 (whole ++ part)) (e - part.length)

/-- The double that a text writes. -/
def ofText? (s : List Char) : Option Float :=
  let (negative, body) := match s with
    | '-' :: r => (true, r)
    | '+' :: r => (false, r)
    | r => (false, r)
  let word := String.ofList (body.map Char.toLower)
  let size :=
    if word == "inf" || word == "infinity" then some (1 / 0)
    else if word == "nan" then some (0 / 0)
    else magnitude? body
  size.map fun x => if negative then -x else x

end Composer.Decimal
