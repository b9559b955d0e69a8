import Composer.Text.Blank
import Composer.Decimal.Reading
/-!
# Composer.Arithmetic.Token

**The tokens of an expression.** Operators have several spellings, and all spellings of one
operator give the same token. A lone letter *x* is a multiplication sign when it stands after a
number or a closing parenthesis, and a name everywhere else. A numeral may hold commas, which
count for nothing.
-/

namespace Composer.Arithmetic

/-- A binary operator. -/
inductive Operator where
  | plus
  | minus
  | times
  | over
  | modulo
  | power
deriving DecidableEq, Repr

/-- A token of an expression. -/
inductive Token where
  /-- A numeral. -/
  | number (x : Float)
  /-- An operator; plus and minus are signs too. -/
  | operator (o : Operator)
  /-- An opening parenthesis. -/
  | opening
  /-- A closing parenthesis. -/
  | closing
  /-- The factorial sign. -/
  | bang
  /-- A name in lower case. -/
  | name (w : String)
deriving DecidableEq

/-- The tokens of one character. -/
def Token.ofChar? : Char → Option Token
  | '+' => some (.operator .plus)
  | '-' => some (.operator .minus)
  | '−' => some (.operator .minus)
  | '*' => some (.operator .times)
  | '×' => some (.operator .times)
  | '/' => some (.operator .over)
  | '÷' => some (.operator .over)
  | '%' => some (.operator .modulo)
  | '^' => some (.operator .power)
  | '(' => some .opening
  | ')' => some .closing
  | '!' => some .bang
  | 'π' => some (.name "pi")
  | _ => none

/-- A character of a numeral. -/
def inNumeral (c : Char) : Bool :=
  c.isDigit || c = '.' || c = ','

/-- The token that a name gives after the token `last`. -/
def Token.ofName (last : Option Token) (w : List Char) : Token :=
  match w, last with
  | ['x'], some (.number _) => .operator .times
  | ['x'], some .closing => .operator .times
  | _, _ => .name (String.ofList w)

/-- What `dropWhile` leaves of the text after a character is shorter than the text with it. -/
theorem length_dropWhile_lt (p : Char → Bool) (c : Char) (s : List Char) :
    (s.dropWhile p).length < (c :: s).length := by
  have := (List.dropWhile_suffix (l := s) p).length_le
  simp only [List.length_cons]
  omega

/-- The tokens of a text that follows the token `last`. A text with a character that belongs to
no token, or with a numeral that is no number, has no tokens. -/
def tokensAfter (last : Option Token) : List Char → Option (List Token)
  | [] => some []
  | c :: s =>
    if Text.isBlank c then tokensAfter last s
    else if c.isDigit || c = '.' then
      match Decimal.ofText? ((c :: s.takeWhile inNumeral).filter (· ≠ ',')) with
      | none => none
      | some x =>
        have := length_dropWhile_lt inNumeral c s
        (tokensAfter (some (.number x)) (s.dropWhile inNumeral)).map (.number x :: ·)
    else if c.isAlpha then
      let w := (c :: s.takeWhile Char.isAlphanum).map Char.toLower
      let t := Token.ofName last w
      have := length_dropWhile_lt Char.isAlphanum c s
      (tokensAfter (some t) (s.dropWhile Char.isAlphanum)).map (t :: ·)
    else if c = '*' ∧ s.head? = some '*' then
      (tokensAfter (some (.operator .power)) (s.drop 1)).map (.operator .power :: ·)
    else
      match Token.ofChar? c with
      | none => none
      | some t => (tokensAfter (some t) s).map (t :: ·)
  termination_by s => s.length
  decreasing_by
    · exact Nat.lt_succ_self s.length
    · assumption
    · assumption
    · exact Nat.lt_succ_of_le (List.drop_sublist 1 s).length_le
    · exact Nat.lt_succ_self s.length

/-- The tokens of a text. -/
def tokens? (s : List Char) : Option (List Token) :=
  tokensAfter none s

end Composer.Arithmetic
