import Composer.Answer.Basic
import Composer.Lookup.Error
/-!
# Composer.Lookup.Service

**Completing answers by services.** There are three services, one for each tool that needs one.
An answer that needs a lookup asks exactly one question (`Answer.query?`), and the outcome of the
question completes the answer or records in it why there is no more. All other answers stay as
they are.
-/

namespace Composer

/-- What a dictionary says about a word. -/
structure Entry where
  /-- How it is pronounced. -/
  phonetic : Option String
  /-- What it means. -/
  meanings : List Lexicon.Meaning
deriving DecidableEq, Repr

/-- A question to a service. -/
inductive Query where
  /-- How much of the second currency one unit of the first one is worth. -/
  | rate (source target : String)
  /-- What a text is in another language. -/
  | translation (text : String) (source : Option String) (target : String)
  /-- What a word means. -/
  | definition (word : String)
deriving DecidableEq, Repr

/-- The channel on which a question is asked. -/
def Query.channel : Query → Channel
  | rate _ _ => .currency
  | translation _ _ _ => .translator
  | definition _ => .dictionary

/-- The services, each of them as the outcomes of its questions. -/
structure Services where
  /-- The outcome of the question for a rate. -/
  rate : (source target : String) → Except LookupError Float
  /-- The outcome of the question for a translation. -/
  translation : (text : String) → (source : Option String) → (target : String) →
    Except LookupError String
  /-- The outcome of the question for a definition. -/
  definition : (word : String) → Except LookupError Entry

/-! ### Outcomes -/

/-- The exchange after the outcome of its question. -/
def Money.Exchange.settle (x : Money.Exchange) : Except LookupError Float → Money.Exchange
  | .ok rate => x.withRate rate
  | .error e => x.withError ("Rate unavailable: " ++ e.message)

/-- The translation after the outcome of its question. -/
def Language.Translation.settle (t : Language.Translation) :
    Except LookupError String → Language.Translation
  | .ok translated => t.withTranslation translated
  | .error e => t.withError ("Translation failed: " ++ e.message)

/-- The definition after the outcome of its question. -/
def Lexicon.Definition.settle (d : Lexicon.Definition) :
    Except LookupError Entry → Lexicon.Definition
  | .ok entry => d.withDefinition entry.phonetic entry.meanings
  | .error (.notFound _) => d.withError ("No definition found for \"" ++ d.word ++ "\"")
  | .error e => d.withError ("Lookup failed: " ++ e.message)

namespace Answer

/-- The question that an answer waits for. -/
def query? (a : Answer) : Option Query :=
  if a.needsLookup then
    match a with
    | currency r => r.target.map fun target => .rate r.source target
    | translator r => r.target.map fun target => .translation r.text r.source target
    | dictionary r => some (.definition r.word)
    | _ => none
  else none

/-- The answer after the services were asked its question, if it has one. -/
def resolve (s : Services) (a : Answer) : Answer :=
  match a, a.query? with
  | currency r, some (.rate source target) => currency (r.settle (s.rate source target))
  | translator r, some (.translation text source target) =>
    translator (r.settle (s.translation text source target))
  | dictionary r, some (.definition word) => dictionary (r.settle (s.definition word))
  | a, _ => a

end Answer

end Composer
