/-!
# Composer.Text.Blank

**Blank characters and words.** A character is *blank* when it has the Unicode property
`White_Space`. Texts are handled as lists of characters; trimming, splitting into words and
joining words are stated here once, and every reader of typed text uses them.

* `trim` removes blanks from both ends and nothing else;
* `words` are the maximal runs of non-blank characters, in order.
-/

namespace Composer.Text

/-- The property `White_Space`: the ASCII controls from tab to return, space, next line, no-break
space and the Unicode spaces and separators. Zero-width characters do not have it. -/
def isBlank (c : Char) : Bool :=
  let n := c.toNat
  (0x09 ≤ n && n ≤ 0x0D) || n == 0x20 || n == 0x85 || n == 0xA0 || n == 0x1680 ||
    (0x2000 ≤ n && n ≤ 0x200A) || n == 0x2028 || n == 0x2029 || n == 0x202F || n == 0x205F ||
    n == 0x3000

/-- The text without its leading blanks. -/
def trimStart (s : List Char) : List Char :=
  s.dropWhile isBlank

/-- The text without the characters of class `p` at its end. -/
def dropEndWhile (p : Char → Bool) (s : List Char) : List Char :=
  (s.reverse.dropWhile p).reverse

/-- The text without its trailing blanks. -/
def trimEnd (s : List Char) : List Char :=
  dropEndWhile isBlank s

/-- The text without the blanks at both ends. -/
def trim (s : List Char) : List Char :=
  trimEnd (trimStart s)

/-- True of a text that has no character but blanks. -/
def allBlank (s : List Char) : Bool :=
  s.all isBlank

/-- Puts one more character in front of a list of words whose first word may still be growing:
a blank closes the word, any other character joins it. -/
def pushWord (c : Char) : List (List Char) × List Char → List (List Char) × List Char
  | (done, open_) =>
    if isBlank c then (if open_.isEmpty then done else open_ :: done, [])
    else (done, c :: open_)

/-- The maximal runs of non-blank characters, in order. -/
def words (s : List Char) : List (List Char) :=
  let (done, open_) := s.foldr pushWord ([], [])
  if open_.isEmpty then done else open_ :: done

@[simp] theorem words_nil : words [] = [] := rfl

/-- A blank in front of a text makes no word. -/
theorem words_cons_of_isBlank {c : Char} {s : List Char} (h : isBlank c = true) :
    words (c :: s) = words s := by
  simp only [words, List.foldr_cons, pushWord, h, if_true]
  split <;> simp_all

/-- The words with one `gap` between neighbours. -/
def joinWith (gap : List Char) (ws : List (List Char)) : List Char :=
  List.intercalate gap ws

/-- True when `part` occurs in the text as a run of neighbouring characters. -/
def contains (part : List Char) : List Char → Bool
  | [] => part.isEmpty
  | c :: s => part.isPrefixOf (c :: s) || contains part s

/-- Writes the arrows `->` and `=>` as the word *to* set off by spaces, the spelling that the
conversion phrases share. -/
def spellArrows : List Char → List Char
  | '-' :: '>' :: s => ' ' :: 't' :: 'o' :: ' ' :: spellArrows s
  | '=' :: '>' :: s => ' ' :: 't' :: 'o' :: ' ' :: spellArrows s
  | c :: s => c :: spellArrows s
  | [] => []

end Composer.Text
