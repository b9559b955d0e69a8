/-!
# Composer.Lookup.Error

**Why a lookup failed.**
-/

namespace Composer

/-- Why a service gave no answer. -/
inductive LookupError where
  /-- The request could not be made or was not answered. -/
  | request (cause : String)
  /-- The service answered with a status that is no success. -/
  | status (code : Nat)
  /-- The service does not know what was asked about. -/
  | notFound (key : String)
  /-- The answer of the service makes no sense. -/
  | invalidResponse (cause : String)
  /-- The language is no code that a service could know. -/
  | unsupportedLanguage (language : String)
  /-- The service broke down. -/
  | panicked
deriving DecidableEq, Repr

/-- The text of an error. -/
def LookupError.message : LookupError → String
  | request cause => "request failed: " ++ cause
  | status code => "service returned HTTP " ++ toString code
  | notFound key => "no result for '" ++ key ++ "'"
  | invalidResponse cause => "unexpected response: " ++ cause
  | unsupportedLanguage language => "unsupported language: " ++ language
  | panicked => "lookup failed unexpectedly"

end Composer
