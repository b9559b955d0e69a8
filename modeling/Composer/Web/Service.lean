import Composer.Json.Decode
import Composer.Json.Reader
import Composer.Lookup.RateCache
import Composer.Lookup.Service
import Composer.Settings.Basic
import Composer.Web.Url
/-!
# Composer.Web.Service

**The services on the web.** A question becomes a request: segments after the base address of its
service and fields of a query. The reply is a status and a JSON text, and each service has its own
shape of replies. Nothing is sent for a language that no service could know.
-/

namespace Composer.Web

/-! ### Requests -/

/-- A request to a service. -/
structure Request where
  /-- The base address of the service. -/
  base : String
  /-- The segments after it. -/
  segments : List String
  /-- The fields of the query. -/
  fields : List (String × String)
deriving DecidableEq, Repr

/-- A character of the code of a language. -/
def inLanguageCode (c : Char) : Bool :=
  c.isAlphanum || c = '-' || c = '_'

/-- True of a text that could be the code of a language. -/
def isLanguageCode (language : String) : Bool :=
  let s := Text.trim language.toList
  !s.isEmpty && s.length ≤ 12 && s.all inLanguageCode

/-- The language of a text when none is named; the service wants one. -/
def assumedSource : String := "en"

/-- The request that asks a question. -/
def requestOf (s : Settings) : Query → Except LookupError Request
  | .rate source target =>
    .ok ⟨s.endpoints.currency, ["latest"], [("from", source), ("to", target)]⟩
  | .translation text source target =>
    let source := source.getD assumedSource
    if !isLanguageCode source then .error (.unsupportedLanguage source)
    else if !isLanguageCode target then .error (.unsupportedLanguage target)
    else .ok ⟨s.endpoints.translation, ["get"],
      [("q", text), ("langpair", source ++ "|" ++ target)]⟩
  | .definition word =>
    if !isLanguageCode s.dictionaryLanguage then
      .error (.unsupportedLanguage s.dictionaryLanguage)
    else .ok ⟨s.endpoints.dictionary, ["entries", s.dictionaryLanguage, word], []⟩

/-- The number of characters that an address to send to may have. -/
def maxUrlLength : Nat := 65534

/-- True of an address that a request can carry: of a scheme of the web, not too long, and with a
host in which no character would have to be quoted. -/
def isSendable (u : Url) : Bool :=
  ["http", "https"].contains (String.ofList u.scheme) &&
    u.write.length ≤ maxUrlLength &&
    !(u.authority.getD []).any ['"', '\x60', '\x7b', '\x7d'].contains

/-- The address of a request. Only an address with a host on the web can be sent to. -/
def Request.url (r : Request) : Except LookupError Url :=
  match Url.parse (Text.dropEndWhile (· = '/') r.base.toList) with
  | .error e => .error (.request ("invalid base url '" ++ r.base ++ "': " ++ e.message))
  | .ok base =>
    if base.path.isNone then
      .error (.request ("base url '" ++ r.base ++ "' cannot have a path"))
    else
      let url := base.join r.segments
      let refused (u : Url) : Except LookupError Url :=
        .error (.request ("builder error for url (" ++ String.ofList u.write ++ ")"))
      if !url.hasHost then refused url
      else
        let url := url.withoutUser.withFields r.fields
        if isSendable url then .ok url else refused url

/-! ### Replies -/

/-- What a service sends back. -/
structure Reply where
  /-- The status. -/
  status : Nat
  /-- The text. -/
  body : String
deriving DecidableEq, Repr

mutual

/-- True of a value in which every number and every text can be taken as such. -/
def isSound : Json → Bool
  | .real x => x.isFinite
  | .garbled => false
  | .array items => areSound items
  | .object fields => fieldsSound fields
  | _ => true

/-- The same for all items of a sequence. -/
def areSound : List Json → Bool
  | [] => true
  | j :: rest => isSound j && areSound rest

/-- The same for all fields of an object. -/
def fieldsSound : List (String × Json) → Bool
  | [] => true
  | (_, j) :: rest => isSound j && fieldsSound rest

end

/-- The error for a reply of another shape. -/
def undecodable : LookupError :=
  .invalidResponse "error decoding response body"

/-- What a reply says about the question: nothing is known, something went wrong, or it has a
text to read. -/
def Reply.check (r : Reply) (key : String) : Except LookupError String :=
  if r.status = 404 then .error (.notFound key)
  else if r.status < 200 ∨ 299 < r.status then .error (.status r.status)
  else .ok r.body

/-- The value that a text has after decoding. -/
def decodeBody {α : Type} (decode : Json → Option α) (body : String) : Except LookupError α :=
  match (Json.parse? body).bind decode with
  | some a => .ok a
  | none => .error undecodable

/-! ### Rates -/

/-- Rates by the code of their currency. -/
def decodeRates? (j : Json) : Option (List (String × Float)) := do
  match ← Json.columns? ["rates"] j with
  | [rates] => Json.orElse [] (fun
      | .object fields => fields.mapM fun (code, j) => do some (code, ← j.asFloat?)
      | _ => none) rates
  | _ => none

/-- The rate of a currency, if it makes sense. -/
def rateOf (rates : List (String × Float)) (target : String) : Except LookupError Float :=
  match rates.reverse.find? (·.1 = target) with
  | some (_, rate) =>
    if rate.isFinite && 0 < rate then .ok rate
    else .error (.invalidResponse ("rate " ++ Decimal.plain.write rate ++ " for " ++ target))
  | none => .error (.notFound target)

/-! ### Translations -/

/-- What the service for translations sends. -/
structure TranslationReply where
  /-- The translated text. -/
  text : Option String
  /-- The status within the reply, a number or a text. -/
  status : Json
  /-- Why there is no translation. -/
  details : Option String

/-- Reads the translated text. -/
def decodeText? (j : Json) : Option String := do
  match ← Json.columns? ["translatedText"] j with
  | [text] => Json.required Json.asString? text
  | _ => none

/-- Reads what the service for translations sends. In a sequence the first field has to be
present. -/
def TranslationReply.decode? (j : Json) : Option TranslationReply := do
  match j, ← Json.columns? ["responseData", "responseStatus", "responseDetails"] j with
  | .array [], _ => none
  | _, [text, status, details] =>
    let status := status.getD .null
    if !isSound status then none
    else some ⟨← Json.orNone decodeText? text, status, ← Json.orNone Json.asString? details⟩
  | _, _ => none

/-- The number that a status denotes. -/
def statusNumber? : Json → Option Nat
  | .integer i => if 0 ≤ i then some i.toNat else none
  | .string s =>
    let ds := match s.toList with
      | '+' :: r => r
      | r => r
    (Text.natural? ds).filter (· < Nat.pow 2 64)
  | _ => none

/-- The translated text of a reply. -/
def TranslationReply.text? (r : TranslationReply) : Except LookupError String :=
  match (statusNumber? r.status).filter (· ≠ 200) with
  | some code =>
    match r.details.filter (· ≠ "") with
    | some details => .error (.invalidResponse details)
    | none => .error (.status (code % Nat.pow 2 16))
  | none =>
    match (r.text.map fun s => Text.trim s.toList).filter (!·.isEmpty) with
    | some text => .ok (String.ofList text)
    | none => .error (.invalidResponse "empty translation")

/-! ### Definitions -/

/-- A definition as the dictionary sends it. -/
structure SentDefinition where
  /-- The definition. -/
  definition : String
  /-- An example. -/
  sample : Option String

/-- A meaning as the dictionary sends it. -/
structure SentMeaning where
  /-- The part of speech. -/
  partOfSpeech : String
  /-- The definitions. -/
  definitions : List SentDefinition

/-- An entry as the dictionary sends it. -/
structure SentEntry where
  /-- The pronunciation. -/
  phonetic : Option String
  /-- More pronunciations, some without a text. -/
  phonetics : List (Option String)
  /-- The meanings. -/
  meanings : List SentMeaning

/-- Reads a definition. -/
def SentDefinition.decode? (j : Json) : Option SentDefinition := do
  match ← Json.columns? ["definition", "example"] j with
  | [definition, sample] =>
    some ⟨← Json.required Json.asString? definition, ← Json.orNone Json.asString? sample⟩
  | _ => none

/-- Reads a meaning. -/
def SentMeaning.decode? (j : Json) : Option SentMeaning := do
  match ← Json.columns? ["partOfSpeech", "definitions"] j with
  | [part, definitions] =>
    some ⟨← Json.orElse "" Json.asString? part,
      ← Json.orElse [] (Json.asList? SentDefinition.decode?) definitions⟩
  | _ => none

/-- Reads a pronunciation. -/
def decodePhonetic? (j : Json) : Option (Option String) := do
  match ← Json.columns? ["text"] j with
  | [text] => Json.orNone Json.asString? text
  | _ => none

/-- Reads an entry. -/
def SentEntry.decode? (j : Json) : Option SentEntry := do
  match ← Json.columns? ["phonetic", "phonetics", "meanings"] j with
  | [phonetic, phonetics, meanings] =>
    some ⟨← Json.orNone Json.asString? phonetic,
      ← Json.orElse [] (Json.asList? decodePhonetic?) phonetics,
      ← Json.orElse [] (Json.asList? SentMeaning.decode?) meanings⟩
  | _ => none

/-- The pronunciation that an entry gives first, if that is not empty. -/
def SentEntry.pronunciation? (e : SentEntry) : Option String :=
  (e.phonetic <|> e.phonetics.findSome? id).filter (· ≠ "")

/-- How many definitions of one part of speech are kept. -/
def maxDefinitions : Nat := 3

/-- A meaning with as many definitions as are kept, and the first example of all. -/
def SentMeaning.kept (m : SentMeaning) : Lexicon.Meaning where
  partOfSpeech := m.partOfSpeech
  definitions := (m.definitions.take maxDefinitions).map (·.definition)
  sample := m.definitions.findSome? (·.sample)

/-- What the entries of a word say about it. -/
def entryOf (entries : List SentEntry) (word : String) : Except LookupError Entry :=
  let meanings := (entries.flatMap (·.meanings)).filter (!·.definitions.isEmpty)
  if meanings.isEmpty then .error (.notFound word)
  else .ok ⟨entries.findSome? SentEntry.pronunciation?, meanings.map SentMeaning.kept⟩

/-! ### The services -/

/-- Sends an address to its host. -/
abbrev Transport := Url → Except LookupError Reply

/-- The reply to a question. -/
def ask (s : Settings) (send : Transport) (q : Query) : Except LookupError Reply := do
  send (← (← requestOf s q).url)

/-- The services at the addresses of the settings. -/
def services (s : Settings) (send : Transport) : Services where
  rate source target := do
    let reply ← ask s send (.rate source target)
    let body ← reply.check (RateCache.keyOf source target)
    rateOf (← decodeBody decodeRates? body) target
  translation text source target := do
    let reply ← ask s send (.translation text source target)
    (← decodeBody TranslationReply.decode? (← reply.check text)).text?
  definition word := do
    let reply ← ask s send (.definition word)
    entryOf (← decodeBody (Json.asList? SentEntry.decode?) (← reply.check word)) word

/-- The services where no host can be reached. -/
def unreachable : Transport := fun url =>
  .error (.request ("error sending request for url (" ++ String.ofList url.write ++ ")"))

/-- Why no request can be made at all, if the program presents itself in a way that no request
can carry. -/
def agentError? (userAgent : String) : Option LookupError :=
  if userAgent.toList.all fun c => c = '\t' || (0x20 ≤ c.toNat && c.toNat ≠ 0x7F) then none
  else some (.request "builder error")

end Composer.Web
