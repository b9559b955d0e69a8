/-!
# Composer.Web.Label

**Labels in ASCII.** A label with characters beyond ASCII is written as its ASCII characters and,
after a hyphen, a run of letters and digits that says which characters stand where. The run is a
sequence of numbers of variable length; each number counts the places and characters that are
skipped before the next character is put in. `asciiLabel` writes such a label and `decodeLabel?`
reads what stands behind its mark.
-/

namespace Composer.Web

/-! ### Numbers of variable length -/

/-- A digit: a letter below 26, a decimal digit above. -/
def labelDigit (n : Nat) : Char :=
  if n < 26 then Char.ofNat ('a'.toNat + n) else Char.ofNat ('0'.toNat + (n - 26))

/-- The threshold of a place. It rises to 26 as `bias` falls behind the place. -/
def threshold (bias place : Nat) : Nat :=
  max 1 (min 26 (place - bias))

/-- A threshold leaves a last digit, and it leaves digits above it. -/
theorem threshold_bounds (bias place : Nat) :
    1 ≤ threshold bias place ∧ threshold bias place ≤ 26 := by
  unfold threshold
  omega

/-- The digits of a number from a place on. The last digit is the one below the threshold of its
place. -/
def labelNumber (bias place n : Nat) : List Char :=
  if n < threshold bias place then [labelDigit n]
  else
    let digit := (n - threshold bias place) % (36 - threshold bias place)
    let rest := (n - threshold bias place) / (36 - threshold bias place)
    labelDigit (threshold bias place + digit) :: labelNumber bias (place + 36) rest
  termination_by n
  decreasing_by
    have := threshold_bounds bias place
    have := Nat.div_le_self (n - threshold bias place) (36 - threshold bias place)
    omega

/-- How often a number is divided until it is small, in steps of 36, and what is left of it. -/
def scaleDown (n : Nat) : Nat × Nat :=
  if n ≤ 455 then (0, n)
  else
    let (steps, rest) := scaleDown (n / 35)
    (steps + 36, rest)
  termination_by n
  decreasing_by omega

/-- The bias after a number, which follows the size of the numbers so far. -/
def nextBias (n places : Nat) (first : Bool) : Nat :=
  let n := if first then n / 700 else n / 2
  let (steps, rest) := scaleDown (n + n / places)
  steps + 36 * rest / (rest + 38)

/-! ### Labels -/

/-- What has been written of a label. -/
structure LabelState where
  /-- The character that is put in next, if no more are skipped. -/
  next : Nat
  /-- How many places and characters have been skipped. -/
  skipped : Nat
  /-- The bias. -/
  bias : Nat
  /-- How many characters have been put in. -/
  done : Nat
  /-- How many characters were there from the start. -/
  plain : Nat
  /-- The text so far. -/
  text : List Char

/-- The state after one character of the label was passed while `code` is put in. -/
def LabelState.pass (code : Nat) (st : LabelState) (c : Char) : LabelState :=
  if c.toNat < code then { st with skipped := st.skipped + 1 }
  else if c.toNat = code then
    { st with
      text := st.text ++ labelNumber st.bias 36 st.skipped
      bias := nextBias st.skipped (st.done + 1) (st.done = st.plain)
      skipped := 0
      done := st.done + 1 }
  else st

/-- The state after a character was put in wherever the label has it. -/
def LabelState.insert (label : List Char) (st : LabelState) (code : Nat) : LabelState :=
  let st := { st with skipped := st.skipped + (code - st.next) * (st.done + 1) }
  let st := label.foldl (LabelState.pass code) st
  { st with next := code + 1, skipped := st.skipped + 1 }

/-- A label in ASCII. -/
def asciiLabel (label : List Char) : List Char :=
  let plain := label.filter (·.toNat < 0x80)
  if plain.length = label.length then label
  else
    let codes := ((label.map Char.toNat).filter (0x80 ≤ ·)).eraseDups.mergeSort
    let front := if plain.isEmpty then [] else plain ++ ['-']
    let start : LabelState := ⟨0x80, 0, 72, plain.length, plain.length, front⟩
    "xn--".toList ++ (codes.foldl (LabelState.insert label) start).text

/-! ### Reading labels -/

/-- The value of a digit. -/
def labelDigit? (c : Char) : Option Nat :=
  if 'a' ≤ c ∧ c ≤ 'z' then some (c.toNat - 'a'.toNat)
  else if '0' ≤ c ∧ c ≤ '9' then some (26 + (c.toNat - '0'.toNat))
  else none

/-- Reads the digits of a number from a place on, where a digit counts `weight`. -/
def readNumber? (bias : Nat) : (place weight : Nat) → List Char → Option (Nat × List Char)
  | _, _, [] => none
  | place, weight, c :: s => do
    let digit ← labelDigit? c
    if digit < threshold bias place then some (digit * weight, s)
    else
      let (n, s) ← readNumber? bias (place + 36) (weight * (36 - threshold bias place)) s
      some (digit * weight + n, s)

/-- A number takes at least one digit. -/
theorem readNumber?_length {bias : Nat} {s : List Char} :
    ∀ {place weight n : Nat} {rest : List Char},
      readNumber? bias place weight s = some (n, rest) → rest.length < s.length := by
  induction s with
  | nil => intro place weight n rest h; simp [readNumber?] at h
  | cons c s ih =>
    intro place weight n rest h
    simp only [readNumber?, Option.bind_eq_bind] at h
    obtain ⟨digit, -, h⟩ := Option.bind_eq_some_iff.mp h
    split at h
    · simp_all
    · obtain ⟨⟨m, rest'⟩, hm, h⟩ := Option.bind_eq_some_iff.mp h
      have := ih hm
      simp_all
      omega

/-- Puts characters into a label until no numbers are left. `code` is the last character put in and
`place` is where the next one would stand. -/
def putIn (code place bias : Nat) (first : Bool) (label s : List Char) : Option (List Char) :=
  if s.isEmpty then some label
  else
    match h : readNumber? bias 36 1 s with
    | none => none
    | some (skipped, rest) =>
      let length := label.length + 1
      let code := code + (place + skipped) / length
      let place := (place + skipped) % length
      if code.isValidChar then
        putIn code (place + 1) (nextBias skipped length first) false
          (label.insertIdx place (Char.ofNat code)) rest
      else none
  termination_by s.length
  decreasing_by exact readNumber?_length h

/-- The label that is written behind the mark, if it has characters beyond ASCII. The hyphen before
the numbers never stands first. -/
def decodeLabel? (s : List Char) : Option (List Char) :=
  let numbers := (s.reverse.takeWhile (· ≠ '-')).reverse
  let plain := s.take (s.length - numbers.length - 1)
  if numbers.isEmpty || (s.head? = some '-' && plain.isEmpty) || s.any (0x7F < ·.toNat) then none
  else putIn 0x80 0 72 true plain numbers

end Composer.Web
