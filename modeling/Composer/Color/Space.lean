/-!
# Composer.Color.Space

**Colors as three channels, and as hue, saturation and lightness.** A channel is a byte. Hue is an
angle in degrees; saturation and lightness are fractions on the way in and whole percentages on
the way out. Rounding takes a half away from zero.
-/

namespace Composer.Color

/-- A color without transparency. -/
structure Rgb where
  /-- Red. -/
  r : UInt8
  /-- Green. -/
  g : UInt8
  /-- Blue. -/
  b : UInt8
deriving DecidableEq, Repr

/-- Hue in degrees, saturation and lightness in whole percent. -/
structure Hsl where
  /-- The hue, below 360. -/
  h : Nat
  /-- The saturation. -/
  s : Nat
  /-- The lightness. -/
  l : Nat
deriving DecidableEq, Repr

/-- The larger of two numbers. -/
def larger (x y : Float) : Float :=
  if x < y then y else x

/-- The smaller of two numbers. -/
def smaller (x y : Float) : Float :=
  if y < x then y else x

/-- Two channels that differ by less than this are the same. -/
def epsilon : Float := 2.220446049250313e-16

/-- A fraction in whole percent. -/
def percent (x : Float) : Nat :=
  (x * 100).round.toUInt8.toNat

/-- Hue, saturation and lightness of a color. -/
def Rgb.toHsl (c : Rgb) : Hsl :=
  let r := c.r.toNat.toFloat / 255
  let g := c.g.toNat.toFloat / 255
  let b := c.b.toNat.toFloat / 255
  let high := larger (larger r g) b
  let low := smaller (smaller r g) b
  let l := (high + low) / 2
  if (high - low).abs < epsilon then ⟨0, 0, percent l⟩
  else
    let d := high - low
    let s := if 0.5 < l then d / (2 - high - low) else d / (high + low)
    let h :=
      if (high - r).abs < epsilon then ((g - b) / d + if g < b then 6 else 0) * 60
      else if (high - g).abs < epsilon then ((b - r) / d + 2) * 60
      else ((r - g) / d + 4) * 60
    ⟨h.round.toUInt16.toNat % 360, percent s, percent l⟩

/-- The share of one channel: its distance `t` from the hue decides between the darkest value `p`,
the brightest value `q` and the slopes between them. -/
def hueShare (p q t : Float) : Float :=
  let t := if t < 0 then t + 1 else t
  let t := if 1 < t then t - 1 else t
  if t < 1 / 6 then p + (q - p) * 6 * t
  else if t < 0.5 then q
  else if t < 2 / 3 then p + (q - p) * (2 / 3 - t) * 6
  else p

/-- The color with a hue in degrees and a saturation and lightness as fractions. -/
def Rgb.ofHsl (h s l : Float) : Rgb :=
  if s == 0 then
    let v := (l * 255).round.toUInt8
    ⟨v, v, v⟩
  else
    let q := if l < 0.5 then l * (1 + s) else l + s - l * s
    let p := 2 * l - q
    let h := h / 360
    let channel (t : Float) : UInt8 := (hueShare p q t * 255).round.toUInt8
    ⟨channel (h + 1 / 3), channel h, channel (h - 1 / 3)⟩

end Composer.Color
