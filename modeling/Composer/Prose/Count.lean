import Composer.Text.Blank
import Composer.Text.Letter
import Composer.Text.Phrase
/-!
# Composer.Prose.Count

**Counting words.** A text has words, characters, sentences and paragraphs. A sentence is a piece
between sentence marks that holds a letter or a digit, and a paragraph ends where a run of blanks
has two line breaks or more. In typed text the count has to be asked for by a marker; in the tool
itself everything typed is counted.
-/

namespace Composer.Prose

/-- The answer to a text that is to be counted. -/
structure Count where
  /-- How many words. -/
  words : Nat
  /-- How many characters. -/
  characters : Nat
  /-- How many characters that are not blank. -/
  charactersNoSpaces : Nat
  /-- How many sentences. -/
  sentences : Nat
  /-- How many paragraphs. -/
  paragraphs : Nat
  /-- How many minutes it takes to read, rounded up. -/
  readingMinutes : Nat
  /-- What a host shows. -/
  display : String
  /-- Whether there is nothing to count yet. -/
  isPartial : Bool
deriving DecidableEq

/-- How many words are read in a minute. -/
def wordsPerMinute : Nat := 200

/-- A mark that ends a sentence. -/
def isSentenceMark (c : Char) : Bool :=
  c = '.' || c = '!' || c = '?'

/-- How many pieces between sentence marks hold a letter or a digit; `found` tells whether the
piece that goes on here has one already. -/
def sentencesFrom (found : Bool) : List Char → Nat
  | [] => found.toNat
  | c :: s =>
    if isSentenceMark c then found.toNat + sentencesFrom false s
    else sentencesFrom (found || Text.isAlphanumeric c) s

/-- How many runs of blanks between other characters have two line breaks or more; `breaks` counts
those of the run that goes on here. -/
def gapsFrom (breaks : Nat) : List Char → Nat
  | [] => 0
  | c :: s =>
    if Text.isBlank c then gapsFrom (breaks + (c = '\n' : Bool).toNat) s
    else (2 ≤ breaks : Bool).toNat + gapsFrom 0 s

/-- The word with an *s* for every number but one. -/
def plural (n : Nat) (word : String) : String :=
  toString n ++ " " ++ if n = 1 then word else word ++ "s"

/-- How long the reading takes, as a host shows it. -/
def readingText (minutes : Nat) : String :=
  (if minutes ≤ 1 then "<1" else toString minutes) ++ " min read"

/-- The answer while there is nothing to count. -/
def Count.nothing : Count :=
  ⟨0, 0, 0, 0, 0, 0, "Type text after wc: to count it", true⟩

/-- Counts a text. Blanks around it do not count. -/
def count (text : List Char) : Count :=
  let body := Text.trim text
  if body.isEmpty then Count.nothing
  else
    let words := (Text.words body).length
    let sentences := sentencesFrom false body
    let minutes := (words + wordsPerMinute - 1) / wordsPerMinute
    { words := words
      characters := body.length
      charactersNoSpaces := body.countP (!Text.isBlank ·)
      sentences := sentences
      paragraphs := gapsFrom 0 body + 1
      readingMinutes := minutes
      display :=
        plural words "word" ++ " · " ++ plural body.length "character" ++ " · " ++
          plural sentences "sentence" ++ " · " ++ readingText minutes
      isPartial := false }

/-- What follows the marker: after a colon, after blanks, or nothing. -/
def afterMarker : Text.Reading (List Char) :=
  Text.firstOf [Text.maybeBlanks <| Text.char ':' some, Text.blanks some, Text.stop []]

/-- The marker and the text that is to be counted. -/
def phrase : Text.Reading (List Char) :=
  Text.firstOf [
    Text.keyword "wc" afterMarker,
    Text.keyword "word" <| Text.maybeBlanks <| Text.keyword "count" afterMarker,
    Text.keyword "count" <| Text.blanks <| Text.keyword "words" afterMarker]

/-- The answer to a text, if a marker asks for a count. -/
def detect (input : List Char) : Option Count :=
  (phrase (Text.trim input)).map count

/-- The answer to a text typed into the tool: what follows a marker, or else everything. -/
def detectFocused (input : List Char) : Option Count :=
  if Text.allBlank input then none
  else (detect input).orElse fun _ => some (count input)

end Composer.Prose
