import Composer.Text.Blank
import Composer.Text.Lowercase
/-!
# Composer.Language.Names

**Languages.** Each known language has a code of two letters and an English name. A language is
typed as either, in any letter case.
-/

namespace Composer.Language

/-- The codes of the known languages and their names. -/
def languages : List (String × String) := [
  ("en", "English"),
  ("es", "Spanish"),
  ("fr", "French"),
  ("de", "German"),
  ("it", "Italian"),
  ("pt", "Portuguese"),
  ("nl", "Dutch"),
  ("ca", "Catalan"),
  ("ru", "Russian"),
  ("uk", "Ukrainian"),
  ("pl", "Polish"),
  ("cs", "Czech"),
  ("ro", "Romanian"),
  ("hu", "Hungarian"),
  ("el", "Greek"),
  ("tr", "Turkish"),
  ("sv", "Swedish"),
  ("da", "Danish"),
  ("no", "Norwegian"),
  ("fi", "Finnish"),
  ("zh", "Chinese"),
  ("ja", "Japanese"),
  ("ko", "Korean"),
  ("ar", "Arabic"),
  ("he", "Hebrew"),
  ("hi", "Hindi"),
  ("id", "Indonesian"),
  ("vi", "Vietnamese"),
  ("th", "Thai")]

/-- The code of the language that a typed code or name means. -/
def code? (s : List Char) : Option String :=
  let key := Text.lower (Text.trim s)
  (languages.find? fun (code, name) =>
    code.toList = key || Text.lower name.toList = key).map (·.1)

/-- The name of the language with a code; an unknown code stands for itself. -/
def nameOf (code : String) : String :=
  ((languages.find? (·.1 == code)).map (·.2)).getD code

end Composer.Language
