import Composer.Text.Blank
import Composer.Text.Letter
/-!
# Composer.Text.Phrase

**Readers of typed phrases.** A `Reading` says what to make of the text that remains. Each
combinator takes off a piece of that text and hands the rest to the reading that follows, so a
phrase is written in the order in which it is typed, with what was read bound to names on the way:

`keyword "translate" <| blanks <| shortest anyChar <| blanks <| keyword "to" <| stop ()`

Where a piece can be taken in several lengths the combinator tries them in a fixed order and
keeps the first one that the rest of the phrase accepts: `blanks` takes as many as it can,
`shortest` as few as it can. A phrase always speaks for the whole text, since a reading only
succeeds through `stop`, `lineToEnd` or `textToEnd`.

Keywords are read in any letter case. Two characters outside ASCII are letters of a keyword too,
because Unicode folds them to ASCII letters: the Kelvin sign is a *k* and the long s is an *s*.
-/

namespace Composer.Text

/-- What to make of the text that remains. -/
abbrev Reading (β : Type) := List Char → Option β

/-! ### Letters in any case -/

/-- The lower case letter that a letter of a keyword stands for; every other character stands for
itself. -/
def fold (c : Char) : Char :=
  if c = '\u212A' then 'k' else if c = '\u017F' then 's' else c.toLower

/-- A letter of a keyword: one that folds to a letter of ASCII. -/
def isKeywordLetter (c : Char) : Bool :=
  (fold c).isLower

/-- The text after `word`, read in any letter case, with the characters that spell it there. -/
def afterWord : (word s : List Char) → Option (List Char × List Char)
  | [], s => some ([], s)
  | _ :: _, [] => none
  | w :: word, c :: s =>
    if fold c = w then (afterWord word s).map fun (taken, rest) => (c :: taken, rest) else none

/-! ### Pieces of a phrase -/

/-- The end of the text. -/
def stop {β : Type} (b : β) : Reading β
  | [] => some b
  | _ :: _ => none

/-- All that is left, if it is not empty. -/
def textToEnd {β : Type} (k : List Char → Option β) : Reading β
  | [] => none
  | c :: s => k (c :: s)

/-- All that is left, if it is not empty and stands on one line. -/
def lineToEnd {β : Type} (k : List Char → Option β) : Reading β := fun s =>
  if s.contains '\n' then none else textToEnd k s

/-- One given character. -/
def char {β : Type} (c : Char) (k : Reading β) : Reading β
  | [] => none
  | d :: s => if d = c then k s else none

/-- A word in any letter case. -/
def keyword {β : Type} (word : String) (k : Reading β) : Reading β := fun s =>
  (afterWord word.toList s).bind fun (_, rest) => k rest

/-- The first of several words that lets the phrase go on, with its characters as they were
typed. -/
def keywordAmong {β : Type} (wordList : List String) (k : List Char → Reading β) : Reading β :=
  fun s => wordList.findSome? fun word =>
    (afterWord word.toList s).bind fun (taken, rest) => k taken rest

/-- The first of several ways to go on that succeeds. -/
def firstOf {β : Type} (ways : List (Reading β)) : Reading β := fun s =>
  ways.findSome? fun way => way s

/-- A piece that may be left out; it is left out only when the phrase cannot go on with it. -/
def optionally {β : Type} (piece : Reading β → Reading β) (k : Reading β) : Reading β := fun s =>
  piece k s <|> k s

/-- One blank or more, as many as let the phrase go on. -/
def blanks {β : Type} (k : Reading β) : Reading β
  | [] => none
  | c :: s => if isBlank c then blanks k s <|> k s else none

/-- Blanks, as many as let the phrase go on, or none. -/
def maybeBlanks {β : Type} (k : Reading β) : Reading β :=
  optionally blanks k

/-- One character or more of class `p`, as few as let the phrase end as `tail` says. What was
taken is given beside what `tail` gives. -/
def shortest {β : Type} (p : Char → Bool) (tail : Reading β) : Reading (List Char × β)
  | [] => none
  | c :: s =>
    if p c then
      match tail s with
      | some b => some ([c], b)
      | none => (shortest p tail s).map fun (taken, b) => (c :: taken, b)
    else none

/-- All characters of class `p` up to the first one outside it; `size` says which counts are
allowed. -/
def run {β : Type} (p : Char → Bool) (size : Nat → Bool) (k : List Char → Reading β) :
    Reading β := fun s =>
  if size (s.takeWhile p).length then k (s.takeWhile p) (s.dropWhile p) else none

/-- Exactly `n` characters of class `p`, whatever follows them. -/
def exactly {β : Type} (n : Nat) (p : Char → Bool) (k : List Char → Reading β) : Reading β :=
  fun s =>
    if (s.take n).length = n ∧ (s.take n).all p then k (s.take n) (s.drop n) else none

/-- Between `least` and `most` decimal digits of any script, followed by none. -/
def digits {β : Type} (least most : Nat) (k : List Char → Reading β) : Reading β :=
  run isDecimalDigit (fun n => least ≤ n && n ≤ most) k

/-- A numeral of any script: between `least` and `most` digits, and after a point more digits. -/
def numeral {β : Type} (least most : Nat) (k : List Char → Reading β) : Reading β :=
  digits least most fun whole s =>
    match s with
    | '.' :: r =>
      match r.takeWhile isDecimalDigit with
      | [] => none
      | part => k (whole ++ '.' :: part) (r.dropWhile isDecimalDigit)
    | r => k whole r

/-- Any character of a line. -/
def inLine (c : Char) : Bool :=
  c ≠ '\n'

/-- Any character. -/
def anyChar (_ : Char) : Bool :=
  true

/-! ### Numerals -/

/-- The number that ASCII digits write; other characters, also digits of other scripts, and the
empty text write none. -/
def natural? (ds : List Char) : Option Nat :=
  if ds.isEmpty || !ds.all Char.isDigit then none
  else some (ds.foldl (fun n d => 10 * n + (d.toNat - '0'.toNat)) 0)

end Composer.Text
