/-!
# Composer.Web.Escape

**Characters in addresses.** A character that has no place in a part of an address is written as
the bytes of its UTF-8 form, each as a percent sign and two hexadecimal digits. Which characters
have a place depends on the part. In the fields of a query a space is a plus sign.
-/

namespace Composer.Web

/-- A hexadecimal digit in capitals. -/
def hexDigit (n : Nat) : Char :=
  (Nat.digitChar n).toUpper

/-- A byte as a percent sign and two hexadecimal digits. -/
def escapeByte (b : UInt8) : List Char :=
  ['%', hexDigit (b.toNat / 16), hexDigit (b.toNat % 16)]

/-- A character as the escapes of its bytes. -/
def escapeChar (c : Char) : List Char :=
  (String.utf8EncodeChar c).flatMap escapeByte

/-- A text in which the characters outside the class `plain` are escaped. -/
def escape (plain : Char → Bool) (s : List Char) : List Char :=
  s.flatMap fun c => if plain c then [c] else escapeChar c

/-- A visible character of ASCII. -/
def isVisible (c : Char) : Bool :=
  0x20 < c.toNat && c.toNat < 0x7F

/-- A character of a fragment. -/
def inFragment (c : Char) : Bool :=
  isVisible c && !(['"', '<', '>', '`'].contains c)

/-- A character of a path. -/
def inPath (c : Char) : Bool :=
  inFragment c && !(['#', '?', '\x7B', '\x7D'].contains c)

/-- A character of one segment of a path. -/
def inSegment (c : Char) : Bool :=
  inPath c && !(['/', '%', '\\'].contains c)

/-- A character of a query. -/
def inQuery (c : Char) : Bool :=
  isVisible c && !(['"', '#', '<', '>', '\''].contains c)

/-- A character of the name or the value of a field of a query. -/
def inField (c : Char) : Bool :=
  c.isAlphanum || ['*', '-', '.', '_'].contains c

/-- A character of the name of a user or of a password. -/
def inUser (c : Char) : Bool :=
  inPath c && !(['/', ':', ';', '=', '@', '[', '\\', ']', '^', '|'].contains c)

/-- The name or the value of a field of a query. -/
def escapeField (s : List Char) : List Char :=
  s.flatMap fun c => if c = ' ' then ['+'] else if inField c then [c] else escapeChar c

/-- Fields of a query with their names. -/
def writeFields (fields : List (String × String)) : List Char :=
  ['&'].intercalate
    (fields.map fun (name, value) => escapeField name.toList ++ '=' :: escapeField value.toList)

end Composer.Web
