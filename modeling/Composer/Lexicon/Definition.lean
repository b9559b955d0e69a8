import Composer.Text.Blank
import Composer.Text.Letter
import Composer.Text.Lowercase
import Composer.Text.Phrase
/-!
# Composer.Lexicon.Definition

**Words and their meanings.** A phrase asks for the definition of a headword. The meanings are not
known here: a definition stays partial until `withDefinition` completes it or `withError` records
why there is none. In the tool itself the whole text is the headword.
-/

namespace Composer.Lexicon

/-- What a word means as one part of speech. -/
structure Meaning where
  /-- The part of speech. -/
  partOfSpeech : String
  /-- The definitions, the most usual one first. -/
  definitions : List String
  /-- An example of its use. -/
  sample : Option String
deriving DecidableEq, Repr

/-- The answer to a question about a word. -/
structure Definition where
  /-- The headword. -/
  word : String
  /-- How it is pronounced. -/
  phonetic : Option String
  /-- What it means. -/
  meanings : List Meaning
  /-- What a host shows. -/
  display : String
  /-- Whether the word or its meanings are missing. -/
  isPartial : Bool
  /-- Whether a lookup of the meanings is on its way. -/
  isLoading : Bool
  /-- Why the lookup failed. -/
  error : Option String
deriving DecidableEq

namespace Definition

/-- The question about a word. -/
def ofWord (word : String) : Definition where
  word := word
  phonetic := none
  meanings := []
  display := if word = "" then "define <word>" else "Define \"" ++ word ++ "\""
  isPartial := true
  isLoading := false
  error := none

/-- A word that waits for its meanings. -/
def needsLookup (d : Definition) : Bool :=
  d.word ≠ "" && d.meanings.isEmpty && d.error.isNone

/-- The first definition of all, with its part of speech. -/
def first? (meanings : List Meaning) : Option (String × String) :=
  meanings.findSome? fun m => m.definitions.head?.map fun d => (m.partOfSpeech, d)

/-- The word with its pronunciation and meanings. -/
def withDefinition (d : Definition) (phonetic : Option String) (meanings : List Meaning) :
    Definition :=
  { d with
    phonetic := phonetic
    meanings := meanings
    display :=
      match first? meanings with
      | some (part, text) => d.word ++ " (" ++ part ++ "): " ++ text
      | none => d.word ++ ": no definition"
    isPartial := false
    isLoading := false
    error := none }

/-- The word whose meanings could not be had. -/
def withError (d : Definition) (message : String) : Definition :=
  { d with error := some message, isLoading := false }

end Definition

/-! ### Headwords -/

/-- A longer phrase is prose and not a headword. -/
def maxWords : Nat := 4

/-- A quotation mark. -/
def isQuote (c : Char) : Bool :=
  c = '"' || c = '\'' || c = '“' || c = '”'

/-- A character of a headword. -/
def inHeadword (c : Char) : Bool :=
  Text.isAlphabetic c || c = '-' || c = '\'' || c = ' '

/-- The headword that a typed text is, without quotation marks and in lower case. -/
def headword? (s : List Char) : Option String :=
  let word := Text.trim (Text.dropEndWhile isQuote ((Text.trim s).dropWhile isQuote))
  if maxWords < (Text.words word).length then none
  else if word.all inHeadword then some (String.ofList (Text.lower word)) else none

/-! ### Phrases -/

/-- The words that ask for a definition. -/
def triggers : List String :=
  ["define", "def", "dict", "dictionary", "definition of", "meaning of", "what is the meaning of"]

/-- The end of a question, with its mark or without. -/
def questionEnd : Text.Reading Unit :=
  Text.optionally (Text.char '?') (Text.stop ())

/-- A trigger and the text that is asked about, which may be missing. -/
def triggerPhrase : Text.Reading (List Char) :=
  Text.keywordAmong triggers fun _ => Text.firstOf [
    Text.maybeBlanks <| Text.optionally (Text.char ':') <| Text.blanks fun s =>
      (Text.shortest Text.inLine questionEnd s).map (·.1),
    fun s => (questionEnd s).map fun _ => []]

/-- The question `what does <word> mean`. -/
def meanPhrase : Text.Reading (List Char) :=
  Text.keyword "what" <| Text.blanks <| Text.keyword "does" <| Text.blanks fun s =>
    (Text.shortest Text.inLine (Text.blanks <| Text.keyword "mean" questionEnd) s).map (·.1)

/-- The answer to a text, if it asks what a word means. -/
def detect (input : List Char) : Option Definition :=
  let text := Text.trim input
  ((triggerPhrase text <|> meanPhrase text).bind headword?).map Definition.ofWord

/-- The answer to a text typed into the tool. -/
def detectFocused (input : List Char) : Option Definition :=
  let text := Text.trim input
  if text.isEmpty then none
  else detect text <|> (headword? text).map Definition.ofWord

end Composer.Lexicon
