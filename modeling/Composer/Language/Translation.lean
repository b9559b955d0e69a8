import Composer.Language.Names
import Composer.Text.Phrase
/-!
# Composer.Language.Translation

**Translations.** A phrase gives a text and the language it is wanted in, and perhaps the language
it is in. The translated text is not known here: a translation stays partial until
`withTranslation` completes it or `withError` records why there is none. In the tool itself any
text is translated, into the language at its end or into the preferred one.
-/

namespace Composer.Language

/-- The answer to a request for a translation. -/
structure Translation where
  /-- The text that is translated. -/
  text : String
  /-- The code of the language it is in, if that was said. -/
  source : Option String
  /-- The code of the language it is wanted in. -/
  target : Option String
  /-- The translated text. -/
  translated : Option String
  /-- What a host shows. -/
  display : String
  /-- Whether the phrase is incomplete or the translated text is missing. -/
  isPartial : Bool
  /-- Whether a lookup of the translated text is on its way. -/
  isLoading : Bool
  /-- Why the lookup failed. -/
  error : Option String
deriving DecidableEq

/-! ### Quoted texts -/

/-- The text between two given characters at its ends. -/
def between (opening closing : Char) (s : List Char) : Option (List Char) :=
  match s with
  | c :: r =>
    if c = opening ∧ r.getLast? = some closing then some r.dropLast else none
  | [] => none

/-- The text without the quotation marks around it, if it has a pair of them. -/
def unquote (s : List Char) : List Char :=
  let s := Text.trim s
  Text.trim
    ((between '"' '"' s <|> between '\'' '\'' s <|> between '“' '”' s).getD s)

/-! ### Answers -/

namespace Translation

/-- A request that names the language of the translation. -/
def request (text : List Char) (source : Option String) (target : String) : Translation :=
  let text := String.ofList (unquote text)
  { text := text
    source := source
    target := some target
    translated := none
    display := text ++ " → " ++ nameOf target
    isPartial := true
    isLoading := false
    error := none }

/-- A request that does not name a known language yet. -/
def incomplete (text : List Char) (display : String) : Translation where
  text := String.ofList (unquote text)
  source := none
  target := none
  translated := none
  display := display
  isPartial := true
  isLoading := false
  error := none

/-- A complete request that waits for the translated text. -/
def needsLookup (t : Translation) : Bool :=
  t.target.isSome && t.text ≠ "" && t.translated.isNone && t.error.isNone

/-- The translation with its translated text. -/
def withTranslation (t : Translation) (translated : String) : Translation :=
  { t with
    translated := some translated
    display := translated ++ " (" ++ (t.target.map nameOf).getD "" ++ ")"
    isPartial := false
    isLoading := false
    error := none }

/-- The translation whose translated text could not be had. -/
def withError (t : Translation) (message : String) : Translation :=
  { t with error := some message, isLoading := false }

end Translation

/-! ### Phrases -/

/-- The word before the language of the translation. -/
def toWord {β : Type} (k : Text.Reading β) : Text.Reading β :=
  Text.keywordAmong ["to", "into", "in"] fun _ => k

/-- A word of ASCII letters, as far as it goes. -/
def word {β : Type} (k : List Char → Text.Reading β) : Text.Reading β :=
  Text.run Text.isKeywordLetter (1 ≤ ·) k

/-- The phrase `translate <text> from <language> to <language>`. -/
def fromToPhrase : Text.Reading (List Char × List Char × List Char) :=
  Text.keyword "translate" <| Text.blanks <| Text.shortest Text.anyChar <|
    Text.blanks <| Text.keyword "from" <| Text.blanks <| word fun source =>
      Text.blanks <| toWord <| Text.blanks <| word fun target => Text.stop (source, target)

/-- The phrase `<text> to <language>`. -/
def trailingPhrase : Text.Reading (List Char × List Char) :=
  Text.shortest Text.anyChar <|
    Text.blanks <| toWord <| Text.blanks <| word fun target => Text.stop target

/-- The phrase `translate <text> to <language>`. -/
def toPhrase : Text.Reading (List Char × List Char) :=
  Text.keyword "translate" <| Text.blanks trailingPhrase

/-- The phrase `<code> > <code>: <text>`. -/
def pairPhrase : Text.Reading (List Char × List Char × List Char) :=
  Text.exactly 2 Text.isKeywordLetter fun source => Text.maybeBlanks <|
    Text.keywordAmong [">", "->", "→"] fun _ => Text.maybeBlanks <|
      Text.exactly 2 Text.isKeywordLetter fun target => Text.optionally (Text.char ':') <|
        Text.blanks <| Text.textToEnd fun text => some (source, target, text)

/-- The phrase `tr <language> <text>`. -/
def shortPhrase : Text.Reading (List Char × List Char) :=
  Text.keyword "tr" <| Text.optionally (Text.char ':') <| Text.blanks <|
    Text.run Text.isKeywordLetter (2 ≤ ·) fun target =>
      Text.blanks <| Text.textToEnd fun text => some (target, text)

/-- The phrase `translate <text>`, with the word before the language or without it. -/
def barePhrase : Text.Reading (List Char) :=
  let ending := Text.optionally (fun k => Text.blanks <| toWord k) <| Text.stop ()
  Text.keyword "translate" <| Text.firstOf [
    Text.char ':' fun s => (ending s).map fun _ => [],
    Text.blanks fun s => (Text.shortest Text.anyChar ending s).map (·.1),
    fun s => (ending s).map fun _ => []]

/-- The answer to `translate <text> from <language> to <language>`. -/
def ofFromTo (input body source target : List Char) : Translation :=
  match code? source, code? target with
  | some source, some target => Translation.request body (some source) target
  | _, _ =>
    Translation.incomplete body ("Unknown language in \"" ++ String.ofList input ++ "\"")

/-- The answer to `translate <text> to <language>`. -/
def ofTo (body target : List Char) : Translation :=
  match code? target with
  | some target => Translation.request body none target
  | none => Translation.incomplete body ("Unknown language: " ++ String.ofList target)

/-- The answer to `translate <text>`. -/
def ofBare (body : List Char) : Translation :=
  Translation.incomplete body <|
    if body.isEmpty then "translate <text> to <language>"
    else String.ofList (unquote body) ++ " → …"

/-- The answer to a text, if it asks for a translation. -/
def detect (input : List Char) : Option Translation :=
  let text := Text.trim input
  match fromToPhrase text with
  | some (body, source, target) => some (ofFromTo text body source target)
  | none =>
  match toPhrase text with
  | some (body, target) => some (ofTo body target)
  | none =>
  match pairPhrase text with
  | some (source, target, body) => do
    some (Translation.request body (some (← code? source)) (← code? target))
  | none =>
  match shortPhrase text with
  | some (target, body) => do some (Translation.request body none (← code? target))
  | none => (barePhrase text).map ofBare

/-! ### The tool itself -/

/-- The language that is preferred; English if it is not known. -/
def preferred (language : String) : String :=
  (code? language.toList).getD "en"

/-- The text without the word that asks for a translation. -/
def dropTrigger (text : List Char) : List Char :=
  if "translate ".toList.isPrefixOf text || "Translate ".toList.isPrefixOf text then text.drop 10
  else text

/-- The text and the known language at its end. -/
def trailing? (text : List Char) : Option Translation := do
  let (body, target) ← trailingPhrase text
  some (Translation.request body none (← code? target))

/-- The answer to a text typed into the tool, with the preferred language. -/
def detectFocused (language : String) (input : List Char) : Option Translation :=
  let text := Text.trim input
  if text.isEmpty then none
  else
    ((detect text).filter (·.target.isSome)) <|> trailing? text <|>
      some (Translation.request (dropTrigger text) none (preferred language))

end Composer.Language
