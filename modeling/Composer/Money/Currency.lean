import Composer.Text.Phrase
/-!
# Composer.Money.Currency

**Currencies.** The codes that can be converted, with their names, and the signs that stand for
some of them. Codes are typed in any letter case and written in capitals.
-/

namespace Composer.Money

/-- The codes of the known currencies and their names. -/
def currencies : List (String × String) := [
  ("USD", "US Dollar"),
  ("EUR", "Euro"),
  ("GBP", "British Pound"),
  ("JPY", "Japanese Yen"),
  ("CNY", "Chinese Yuan"),
  ("INR", "Indian Rupee"),
  ("CAD", "Canadian Dollar"),
  ("AUD", "Australian Dollar"),
  ("NZD", "New Zealand Dollar"),
  ("CHF", "Swiss Franc"),
  ("SEK", "Swedish Krona"),
  ("NOK", "Norwegian Krone"),
  ("DKK", "Danish Krone"),
  ("PLN", "Polish Zloty"),
  ("CZK", "Czech Koruna"),
  ("HUF", "Hungarian Forint"),
  ("RON", "Romanian Leu"),
  ("TRY", "Turkish Lira"),
  ("BRL", "Brazilian Real"),
  ("MXN", "Mexican Peso"),
  ("ZAR", "South African Rand"),
  ("KRW", "South Korean Won"),
  ("SGD", "Singapore Dollar"),
  ("HKD", "Hong Kong Dollar"),
  ("THB", "Thai Baht"),
  ("IDR", "Indonesian Rupiah"),
  ("MYR", "Malaysian Ringgit"),
  ("PHP", "Philippine Peso"),
  ("ILS", "Israeli Shekel"),
  ("ISK", "Icelandic Krona"),
  ("BGN", "Bulgarian Lev")]

/-- The signs that can stand before an amount in place of a code after it. -/
def signs : List (Char × String) :=
  [('$', "USD"), ('€', "EUR"), ('£', "GBP"), ('¥', "JPY"), ('₹', "INR")]

/-- True of the code of a known currency, in any case of its ASCII letters. -/
def isKnown (code : String) : Bool :=
  currencies.any fun (known, _) => known.toList = code.toList.map Char.toUpper

/-- The capital of a letter of a code. The long s has a capital of ASCII; the Kelvin sign is a
capital itself and stays what it is. -/
def capital (c : Char) : Char :=
  if c = '\u017F' then 'S' else c.toUpper

/-- A code in capitals. -/
def capitals (s : List Char) : String :=
  String.ofList (s.map capital)

/-- The code of the currency of a sign. -/
def ofSign? (c : Char) : Option String :=
  (signs.find? (·.1 = c)).map (·.2)

end Composer.Money
