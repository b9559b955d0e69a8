import Composer.Color.Space
import Composer.Decimal.Layout
import Composer.Decimal.Reading
import Composer.Text.Lowercase
import Composer.Text.Phrase
/-!
# Composer.Color.Swatch

**Colors in typed text.** A color is typed as hexadecimal digits, as channels, as hue, saturation
and lightness, or by name. The answer writes it in all three notations.
-/

namespace Composer.Color

/-- The answer to a color. -/
structure Swatch where
  /-- The text that was typed. -/
  input : String
  /-- The color in hexadecimal digits. -/
  hex : String
  /-- The color as channels, with its opacity if one was typed. -/
  rgbText : String
  /-- The color as hue, saturation and lightness. -/
  hslText : String
  /-- The channels. -/
  rgb : Rgb
  /-- The opacity. -/
  alpha : Option Float
  /-- The name, if the color was typed by name. -/
  name : Option String
  /-- What a host shows. -/
  display : String
  /-- Never set: a color is complete. -/
  isPartial : Bool
deriving DecidableEq

/-- The named colors. -/
def named : List (String × Rgb) := [
  ("black", ⟨0, 0, 0⟩),
  ("white", ⟨255, 255, 255⟩),
  ("red", ⟨255, 0, 0⟩),
  ("green", ⟨0, 128, 0⟩),
  ("lime", ⟨0, 255, 0⟩),
  ("blue", ⟨0, 0, 255⟩),
  ("yellow", ⟨255, 255, 0⟩),
  ("cyan", ⟨0, 255, 255⟩),
  ("aqua", ⟨0, 255, 255⟩),
  ("magenta", ⟨255, 0, 255⟩),
  ("fuchsia", ⟨255, 0, 255⟩),
  ("silver", ⟨192, 192, 192⟩),
  ("gray", ⟨128, 128, 128⟩),
  ("grey", ⟨128, 128, 128⟩),
  ("maroon", ⟨128, 0, 0⟩),
  ("olive", ⟨128, 128, 0⟩),
  ("purple", ⟨128, 0, 128⟩),
  ("teal", ⟨0, 128, 128⟩),
  ("navy", ⟨0, 0, 128⟩),
  ("orange", ⟨255, 165, 0⟩),
  ("pink", ⟨255, 192, 203⟩),
  ("brown", ⟨165, 42, 42⟩),
  ("gold", ⟨255, 215, 0⟩),
  ("indigo", ⟨75, 0, 130⟩),
  ("violet", ⟨238, 130, 238⟩),
  ("coral", ⟨255, 127, 80⟩),
  ("salmon", ⟨250, 128, 114⟩),
  ("crimson", ⟨220, 20, 60⟩),
  ("turquoise", ⟨64, 224, 208⟩),
  ("tomato", ⟨255, 99, 71⟩),
  ("orchid", ⟨218, 112, 214⟩),
  ("khaki", ⟨240, 230, 140⟩),
  ("lavender", ⟨230, 230, 250⟩),
  ("beige", ⟨245, 245, 220⟩),
  ("ivory", ⟨255, 255, 240⟩),
  ("chocolate", ⟨210, 105, 30⟩),
  ("tan", ⟨210, 180, 140⟩),
  ("skyblue", ⟨135, 206, 235⟩),
  ("steelblue", ⟨70, 130, 180⟩),
  ("slategray", ⟨112, 128, 144⟩),
  ("rebeccapurple", ⟨102, 51, 153⟩)]

/-! ### Writing -/

/-- A byte in two hexadecimal digits. -/
def hexByte (b : UInt8) : List Char :=
  [Nat.digitChar (b.toNat / 16), Nat.digitChar (b.toNat % 16)]

/-- A color in hexadecimal digits. -/
def Rgb.hex (c : Rgb) : String :=
  String.ofList ('#' :: hexByte c.r ++ hexByte c.g ++ hexByte c.b)

/-- An opacity with two places. -/
def hundredths (x : Float) : Float :=
  (x * 100).round / 100

/-- The three channels with commas between them. -/
def Rgb.channels (c : Rgb) : String :=
  toString c.r.toNat ++ ", " ++ toString c.g.toNat ++ ", " ++ toString c.b.toNat

/-- A color as channels, with its opacity if it has one. -/
def Rgb.text (c : Rgb) : (alpha : Option Float) → String
  | none => "rgb(" ++ c.channels ++ ")"
  | some a => "rgba(" ++ c.channels ++ ", " ++ Decimal.plain.write (hundredths a) ++ ")"

/-- A color as hue, saturation and lightness. -/
def Hsl.text (c : Hsl) : String :=
  "hsl(" ++ toString c.h ++ ", " ++ toString c.s ++ "%, " ++ toString c.l ++ "%)"

/-- The answer for a color. -/
def Swatch.of (input : List Char) (c : Rgb) (alpha : Option Float) (name : Option String) :
    Swatch where
  input := String.ofList input
  hex := c.hex
  rgbText := c.text alpha
  hslText := c.toHsl.text
  rgb := c
  alpha := alpha
  name := name
  display := c.hex ++ " · " ++ c.text alpha ++ " · " ++ c.toHsl.text
  isPartial := false

/-! ### Reading -/

/-- The value of a hexadecimal digit. -/
def hexDigit? (c : Char) : Option Nat :=
  if c.isDigit then some (c.toNat - '0'.toNat)
  else if 'a' ≤ c ∧ c ≤ 'f' then some (c.toNat - 'a'.toNat + 10)
  else if 'A' ≤ c ∧ c ≤ 'F' then some (c.toNat - 'A'.toNat + 10)
  else none

/-- The byte of two hexadecimal digits. -/
def byteOf (high low : Nat) : UInt8 :=
  (16 * high + low).toUInt8

/-- A color in three, six or eight hexadecimal digits. Three digits are each taken twice, and the
last two of eight are the opacity. -/
def ofHex? : List Char → Option (Rgb × Option Float)
  | '#' :: ds => do
    match ← ds.mapM hexDigit? with
    | [r, g, b] => some (⟨byteOf r r, byteOf g g, byteOf b b⟩, none)
    | [r, r', g, g', b, b'] => some (⟨byteOf r r', byteOf g g', byteOf b b'⟩, none)
    | [r, r', g, g', b, b', a, a'] =>
      some (⟨byteOf r r', byteOf g g', byteOf b b'⟩,
        some ((byteOf a a').toNat.toFloat / 255))
    | _ => none
  | _ => none

/-- The channel that digits write. -/
def channel? (ds : List Char) : Option UInt8 := do
  let n ← Text.natural? ds
  if n ≤ 255 then some n.toUInt8 else none

/-- A comma with blanks around it. -/
def comma {β : Type} (k : Text.Reading β) : Text.Reading β :=
  Text.maybeBlanks <| Text.char ',' <| Text.maybeBlanks k

/-- An opacity: nought, one, or a fraction of one. -/
def opacity {β : Type} (k : List Char → Text.Reading β) : Text.Reading β :=
  let fraction (whole : List Char) (p : Char → Bool) : Text.Reading β :=
    Text.char '.' <| Text.run p (1 ≤ ·) fun part => k (whole ++ '.' :: part)
  Text.firstOf [
    Text.char '0' (k ['0']),
    Text.char '1' (k ['1']),
    Text.char '0' (fraction ['0'] Text.isDecimalDigit),
    fraction [] Text.isDecimalDigit,
    Text.char '1' (fraction ['1'] (· = '0'))]

/-- A closing parenthesis at the end of the text. -/
def closing {β : Type} (b : β) : Text.Reading β :=
  Text.maybeBlanks <| Text.char ')' <| Text.stop b

/-- The channels and the opacity as they were typed. -/
def channelsPhrase : Text.Reading (List (List Char) × Option (List Char)) :=
  Text.keyword "rgb" <| Text.optionally (Text.keyword "a") <| Text.char '(' <| Text.maybeBlanks <|
    Text.digits 1 3 fun r => comma <| Text.digits 1 3 fun g => comma <| Text.digits 1 3 fun b =>
      Text.firstOf [
        comma <| opacity fun a => closing ([r, g, b], some a),
        closing ([r, g, b], none)]

/-- Hue, saturation and lightness as they were typed. -/
def huePhrase : Text.Reading (List Char × List Char × List Char) :=
  let sign {β : Type} : Text.Reading β → Text.Reading β := Text.optionally (Text.char '%')
  Text.keyword "hsl" <| Text.char '(' <| Text.maybeBlanks <|
    Text.numeral 1 3 fun h => comma <| Text.numeral 1 3 fun s => sign <| comma <|
      Text.numeral 1 3 fun l => sign <| closing (h, s, l)

/-- The answer to three channels, if each of them is a byte. An opacity in digits of another script
counts as none. -/
def ofChannels? (text : List Char) : List (List Char) → Option (List Char) → Option Swatch
  | [r, g, b], a => do
    some (Swatch.of text ⟨← channel? r, ← channel? g, ← channel? b⟩ (a.bind Decimal.ofText?) none)
  | _, _ => none

/-- The answer to hue, saturation and lightness, if they are in range. -/
def ofHue? (text h s l : List Char) : Option Swatch := do
  let h ← Decimal.ofText? h
  let s ← Decimal.ofText? s
  let l ← Decimal.ofText? l
  if 360 < h || 100 < s || 100 < l then none
  else some (Swatch.of text (Rgb.ofHsl h (s / 100) (l / 100)) none none)

/-- The answer to the name of a color, in any case and with spaces anywhere. -/
def ofName? (text : List Char) : Option Swatch :=
  let key := (Text.lower text).filter (· ≠ ' ')
  (named.find? (·.1.toList = key)).map fun (name, c) => Swatch.of text c none (some name)

/-- The answer to a text, if it is a color. -/
def detect (input : List Char) : Option Swatch :=
  let text := Text.trim input
  match ofHex? text with
  | some (c, alpha) => some (Swatch.of text c alpha none)
  | none =>
    match channelsPhrase text with
    | some (channels, a) => ofChannels? text channels a
    | none =>
      match huePhrase text with
      | some (h, s, l) => ofHue? text h s l
      | none => ofName? text

end Composer.Color
