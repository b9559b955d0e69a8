import Composer.Json.Decode
import Composer.Json.Reader
import Composer.Text.Blank
import Composer.Text.Letter
/-!
# Composer.Settings.Basic

**Settings.** They are read from a JSON text in which every field may be missing; a missing field
has its default. What was read is checked: the trigger of the palette must not begin ordinary
text, time has to pass between ticks, and the two languages have to be named.
-/

namespace Composer

/-- Where the services are. -/
structure Endpoints where
  /-- The address of the service for exchange rates. -/
  currency : String
  /-- The address of the service for translations. -/
  translation : String
  /-- The address of the service for definitions. -/
  dictionary : String
deriving DecidableEq, Repr

/-- What a host can choose. -/
structure Settings where
  /-- The character that opens the palette. -/
  trigger : Char
  /-- The language of translations that name none. -/
  targetLanguage : String
  /-- The language of definitions. -/
  dictionaryLanguage : String
  /-- The milliseconds between the ticks of a countdown. -/
  tickMilliseconds : Nat
  /-- For how many seconds a rate is used again. -/
  rateLifetime : Nat
  /-- How the program presents itself to the services. -/
  userAgent : String
  /-- Where the services are. -/
  endpoints : Endpoints
deriving DecidableEq, Repr

/-- For how many seconds a rate is used again when nothing else is set. -/
def defaultRateLifetime : Nat := 600

/-- The services that are used when nothing else is set. -/
def Endpoints.default : Endpoints where
  currency := "https://api.frankfurter.app"
  translation := "https://api.mymemory.translated.net"
  dictionary := "https://api.dictionaryapi.dev/api/v2"

/-- What holds when nothing is set. -/
def Settings.default : Settings where
  trigger := '/'
  targetLanguage := "en"
  dictionaryLanguage := "en"
  tickMilliseconds := 1000
  rateLifetime := defaultRateLifetime
  userAgent := "contour/0.3 (https://github.com/contour-dev/contour)"
  endpoints := .default

/-- Why there are no settings. -/
inductive SettingsError where
  /-- The file could not be read. -/
  | unreadable (path cause : String)
  /-- The text is not JSON of the right shape. -/
  | malformed
  /-- A field has a value that is not allowed. -/
  | invalid (field reason : String)
deriving DecidableEq, Repr

/-- The text of an error. -/
def SettingsError.message : SettingsError → String
  | unreadable path cause => "Failed to read config file '" ++ path ++ "': " ++ cause
  | malformed => "Invalid config JSON"
  | invalid field reason => "Invalid config value for '" ++ field ++ "': " ++ reason

/-! ### Records -/

namespace Endpoints

/-- The record of the addresses of the services. -/
def encode (e : Endpoints) : Json :=
  .object [
    ("currency_base_url", .string e.currency),
    ("translate_base_url", .string e.translation),
    ("dictionary_base_url", .string e.dictionary)]

/-- Reads the addresses of the services; a missing one is the default. -/
def decode? (j : Json) : Option Endpoints := do
  let d := Endpoints.default
  match ← Json.columns? ["currency_base_url", "translate_base_url", "dictionary_base_url"] j with
  | [currency, translation, dictionary] =>
    some ⟨← Json.orElse d.currency Json.asString? currency,
      ← Json.orElse d.translation Json.asString? translation,
      ← Json.orElse d.dictionary Json.asString? dictionary⟩
  | _ => none

end Endpoints

namespace Settings

/-- The record of the settings. -/
def encode (s : Settings) : Json :=
  .object [
    ("command_trigger", .string (String.singleton s.trigger)),
    ("default_target_lang", .string s.targetLanguage),
    ("dictionary_lang", .string s.dictionaryLanguage),
    ("timer_tick_ms", .ofNat s.tickMilliseconds),
    ("rate_cache_ttl_secs", .ofNat s.rateLifetime),
    ("user_agent", .string s.userAgent),
    ("endpoints", s.endpoints.encode)]

/-- Reads settings without checking them; a missing field is the default. -/
def decode? (j : Json) : Option Settings := do
  let d := Settings.default
  match ← Json.columns? ["command_trigger", "default_target_lang", "dictionary_lang",
      "timer_tick_ms", "rate_cache_ttl_secs", "user_agent", "endpoints"] j with
  | [trigger, target, dictionary, tick, lifetime, agent, endpoints] =>
    some ⟨← Json.orElse d.trigger Json.asChar? trigger,
      ← Json.orElse d.targetLanguage Json.asString? target,
      ← Json.orElse d.dictionaryLanguage Json.asString? dictionary,
      ← Json.orElse d.tickMilliseconds Json.asNat64? tick,
      ← Json.orElse d.rateLifetime Json.asNat64? lifetime,
      ← Json.orElse d.userAgent Json.asString? agent,
      ← Json.orElse d.endpoints Endpoints.decode? endpoints⟩
  | _ => none

/-! ### Checks -/

/-- The first thing that is wrong with the settings. -/
def fault? (s : Settings) : Option SettingsError :=
  if Text.isAlphanumeric s.trigger || Text.isBlank s.trigger then
    some (.invalid "command_trigger"
      ("'" ++ String.singleton s.trigger ++ "' would shadow ordinary input"))
  else if s.tickMilliseconds = 0 then some (.invalid "timer_tick_ms" "must be positive")
  else if Text.allBlank s.targetLanguage.toList then
    some (.invalid "default_target_lang" "language code is empty")
  else if Text.allBlank s.dictionaryLanguage.toList then
    some (.invalid "dictionary_lang" "language code is empty")
  else none

/-- The settings, if nothing is wrong with them. -/
def validate (s : Settings) : Except SettingsError Settings :=
  match s.fault? with
  | some e => .error e
  | none => .ok s

/-- The settings of a JSON value. -/
def ofJson (j : Json) : Except SettingsError Settings :=
  match decode? j with
  | some s => s.validate
  | none => .error .malformed

/-- The settings of a JSON text. -/
def ofText (text : String) : Except SettingsError Settings :=
  match Json.parse? text with
  | some j => ofJson j
  | none => .error .malformed

end Settings

end Composer
