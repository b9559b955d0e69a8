import Composer.Proofs.Color.Notation
import Composer.Proofs.Detection.Names
import Mathlib.Data.List.Nodup
/-!
# Composer.Proofs.Color.Denotes

**What typed colors denote.** A text denotes a color in hexadecimal digits, as channels, as hue,
saturation and lightness, or by name (`Denotes`). The notations keep apart: they begin differently,
and a name has no parenthesis. So a text is a color exactly if it denotes one
(`detect_eq_some_iff`).
-/

namespace Composer.Color

open Text

/-! ### What texts denote -/

/-- Hexadecimal digits, with their values. -/
def HexText (t : List Char) (ns : List Nat) : Prop :=
  ∃ ds, t = '#' :: ds ∧ ds.mapM hexDigit? = some ns

/-- The color and the opacity that hexadecimal digits say. -/
inductive DigitsSay : List Nat → Rgb → Option Float → Prop
  /-- Three digits are each taken twice. -/
  | short {r g b : Nat} : DigitsSay [r, g, b] ⟨byteOf r r, byteOf g g, byteOf b b⟩ none
  /-- Six digits are three bytes. -/
  | long {r r' g g' b b' : Nat} :
      DigitsSay [r, r', g, g', b, b'] ⟨byteOf r r', byteOf g g', byteOf b b'⟩ none
  /-- The fourth byte is the opacity. -/
  | translucent {r r' g g' b b' a a' : Nat} :
      DigitsSay [r, r', g, g', b, b', a, a'] ⟨byteOf r r', byteOf g g', byteOf b b'⟩
        (some ((byteOf a a').toNat.toFloat / 255))

/-- The channel that ASCII digits say. -/
def ChannelSays (ds : List Char) (v : UInt8) : Prop :=
  natural? ds = some v.toNat

/-- **The color that a text denotes**, with its opacity and its name. -/
inductive Denotes : List Char → Rgb → Option Float → Option String → Prop
  /-- Three, six or eight hexadecimal digits. -/
  | hex {t : List Char} {ns : List Nat} {c : Rgb} {alpha : Option Float} (text : HexText t ns)
      (digits : DigitsSay ns c alpha) : Denotes t c alpha none
  /-- Channels up to 255. -/
  | channels {t r g b : List Char} {a : Option (List Char)} {c : Rgb}
      (text : ChannelsText t ([r, g, b], a)) (red : ChannelSays r c.r) (green : ChannelSays g c.g)
      (blue : ChannelSays b c.b) : Denotes t c (a.bind Decimal.ofText?) none
  /-- Hue up to 360 degrees, saturation and lightness up to 100 percent. -/
  | hue {t h s l : List Char} {x y z : Float} (text : HueText t (h, s, l))
      (hue : Decimal.ofText? h = some x) (saturation : Decimal.ofText? s = some y)
      (lightness : Decimal.ofText? l = some z) (range : ¬ 360 < x ∧ ¬ 100 < y ∧ ¬ 100 < z) :
      Denotes t (Rgb.ofHsl x (y / 100) (z / 100)) none none
  /-- A name in any case, with spaces anywhere. -/
  | name {t : List Char} {name : String} {c : Rgb} (known : (name, c) ∈ named)
      (spelled : (lower t).filter (· ≠ ' ') = name.toList) : Denotes t c none (some name)

/-! ### One notation -/

theorem ofHex?_eq_some_iff {t : List Char} {c : Rgb} {alpha : Option Float} :
    ofHex? t = some (c, alpha) ↔ ∃ ns, HexText t ns ∧ DigitsSay ns c alpha := by
  constructor
  · intro h
    unfold ofHex? at h
    split at h
    · next ds =>
        obtain ⟨ns, hns, h⟩ := Option.bind_eq_some_iff.mp h
        refine ⟨ns, ⟨ds, rfl, hns⟩, ?_⟩
        split at h
        · cases h
          exact .short
        · cases h
          exact .long
        · cases h
          exact .translucent
        · cases h
    · cases h
  · rintro ⟨ns, ⟨ds, rfl, hds⟩, h⟩
    rw [ofHex?, hds]
    cases h <;> rfl

theorem channel?_eq_some_iff {ds : List Char} {v : UInt8} :
    channel? ds = some v ↔ ChannelSays ds v := by
  unfold channel? ChannelSays
  cases natural? ds with
  | none => simp
  | some n =>
      have hv := v.toNat_lt
      rw [Option.bind_eq_bind, Option.bind_some, Option.some_inj]
      split
      · next hn =>
          rw [Option.some_inj, ← UInt8.toNat_inj, Nat.toUInt8_eq,
            UInt8.toNat_ofNat_of_lt' (Nat.lt_succ_of_le hn)]
      · next hn => exact iff_of_false nofun (by omega)

theorem ofChannels?_eq_some_iff {t r g b : List Char} {a : Option (List Char)} {x : Swatch} :
    ofChannels? t [r, g, b] a = some x ↔ ∃ c : Rgb, ChannelSays r c.r ∧ ChannelSays g c.g ∧
      ChannelSays b c.b ∧ Swatch.of t c (a.bind Decimal.ofText?) none = x := by
  simp only [ofChannels?, Option.bind_eq_bind, Option.bind_eq_some_iff, channel?_eq_some_iff,
    Option.some_inj]
  constructor
  · rintro ⟨u, hu, v, hv, w, hw, hx⟩
    exact ⟨⟨u, v, w⟩, hu, hv, hw, hx⟩
  · rintro ⟨c, hu, hv, hw, hx⟩
    exact ⟨c.r, hu, c.g, hv, c.b, hw, hx⟩

theorem ofHue?_eq_some_iff {t h s l : List Char} {x : Swatch} : ofHue? t h s l = some x ↔
    ∃ u v w, Decimal.ofText? h = some u ∧ Decimal.ofText? s = some v ∧ Decimal.ofText? l = some w ∧
      (¬ 360 < u ∧ ¬ 100 < v ∧ ¬ 100 < w) ∧
      Swatch.of t (Rgb.ofHsl u (v / 100) (w / 100)) none none = x := by
  have hrange (u v w : Float) : (if 360 < u || 100 < v || 100 < w then none
      else some (Swatch.of t (Rgb.ofHsl u (v / 100) (w / 100)) none none)) = some x ↔
        (¬ 360 < u ∧ ¬ 100 < v ∧ ¬ 100 < w) ∧
          Swatch.of t (Rgb.ofHsl u (v / 100) (w / 100)) none none = x := by
    simp [and_assoc]
  simp only [ofHue?, Option.bind_eq_bind, Option.bind_eq_some_iff, hrange]
  constructor
  · rintro ⟨u, hu, v, hv, w, hw, hx⟩
    exact ⟨u, v, w, hu, hv, hw, hx⟩
  · rintro ⟨u, v, w, hu, hv, hw, hx⟩
    exact ⟨u, hu, v, hv, w, hw, hx⟩

theorem named_nodup : (named.map Prod.fst).Nodup := by
  decide

theorem ofName?_eq_some_iff {t : List Char} {x : Swatch} : ofName? t = some x ↔
    ∃ name c, (name, c) ∈ named ∧ (lower t).filter (· ≠ ' ') = name.toList ∧
      Swatch.of t c none (some name) = x := by
  unfold ofName?
  dsimp only
  rw [Option.map_eq_some_iff]
  constructor
  · rintro ⟨⟨name, c⟩, hfind, hx⟩
    have hname : name.toList = (lower t).filter (· ≠ ' ') := by simpa using List.find?_some hfind
    exact ⟨name, c, List.mem_of_find?_eq_some hfind, hname.symm, hx⟩
  · rintro ⟨name, c, hmem, hname, hx⟩
    refine ⟨(name, c), ?_, hx⟩
    cases hfind : named.find? (·.1.toList = (lower t).filter (· ≠ ' ')) with
    | none =>
        have hnone := List.find?_eq_none.mp hfind _ hmem
        exact absurd (decide_eq_true hname.symm) hnone
    | some found =>
        -- No two colors have the same name.
        have hsame : found.1.toList = (lower t).filter (· ≠ ' ') := by
          simpa using List.find?_some hfind
        rw [hname] at hsame
        have hfound := List.inj_on_of_nodup_map named_nodup (List.mem_of_find?_eq_some hfind) hmem
          (String.toList_inj.mp hsame)
        rw [hfound]

theorem ofHex?_of_head?_ne {t : List Char} (h : t.head? ≠ some '#') : ofHex? t = none := by
  unfold ofHex?
  split
  · exact absurd rfl h
  · rfl

theorem head?_ne_of_spelled {l : List String} {u : List Char} (hu : Spelled l u)
    (hl : ∀ w ∈ l, w.toList.head?.any Char.isLower = true) (r : List Char) :
    (u ++ r).head? ≠ some '#' := by
  obtain ⟨c, v, rfl, hc⟩ := hu.exists_cons hl
  intro h
  obtain rfl := Option.some.inj h
  cases hc

theorem ChannelsText.exists_channels {t : List Char} {l : List (List Char)}
    {a : Option (List Char)} (h : ChannelsText t (l, a)) : ∃ r g b, l = [r, g, b] := by
  cases h with
  | mk => exact ⟨_, _, _, rfl⟩

theorem ofHex?_of_channelsText {t : List Char} {x : List (List Char) × Option (List Char)}
    (h : ChannelsText t x) : ofHex? t = none := by
  cases h with
  | mk hlead =>
      obtain ⟨u, v, rfl, hu, -⟩ := hlead
      rw [List.append_assoc]
      exact ofHex?_of_head?_ne (head?_ne_of_spelled hu (by decide) _)

theorem ofHex?_of_hueText {t : List Char} {x : List Char × List Char × List Char}
    (h : HueText t x) : ofHex? t = none := by
  cases h with
  | mk hlead => exact ofHex?_of_head?_ne (head?_ne_of_spelled hlead (by decide) _)

/-- No text has two words in front of its parenthesis. -/
theorem channelsPhrase_of_hueText {t : List Char} {x : List Char × List Char × List Char}
    (h : HueText t x) : channelsPhrase t = none := by
  rw [Option.eq_none_iff_forall_ne_some]
  intro y hy
  have hbegins : Begins ["hsl"] t := by
    cases h with
    | mk hlead => exact ⟨_, _, rfl, hlead⟩
  cases channelsPhrase_eq_some_iff.mp hy with
  | mk hlead =>
      obtain ⟨u, v, rfl, hu, -⟩ := hlead
      exact hbegins.not_begins (by decide) ⟨u, _, List.append_assoc u v _, hu⟩

/-- The name of a color has no sign of the other notations. -/
theorem notations_of_name {t : List Char} {x : Swatch} (h : ofName? t = some x) :
    ofHex? t = none ∧ channelsPhrase t = none ∧ huePhrase t = none := by
  have hchars := (Detection.isColorName_of_ofName? h).chars
  have hnot {c : Char} (hc : isKeywordLetter c = false) (hspace : c ≠ ' ') : c ∉ t := by
    intro hmem
    rcases hchars c hmem with hletter | hblank
    · rw [hc] at hletter
      cases hletter
    · exact hspace hblank
  have hparenthesis : '(' ∉ t := hnot rfl (by decide)
  refine ⟨ofHex?_of_head?_ne fun hhead => ?_, ?_, ?_⟩
  · exact hnot (c := '#') rfl (by decide) (List.mem_of_head? hhead)
  · rw [Option.eq_none_iff_forall_ne_some]
    intro y hy
    cases channelsPhrase_eq_some_iff.mp hy with
    | mk => simp at hparenthesis
  · rw [Option.eq_none_iff_forall_ne_some]
    intro y hy
    cases huePhrase_eq_some_iff.mp hy with
    | mk => simp at hparenthesis

/-! ### Reading -/

theorem denotes_of_detect {input : List Char} {s : Swatch} (h : detect input = some s) :
    ∃ c alpha name, Denotes (trim input) c alpha name ∧
      Swatch.of (trim input) c alpha name = s := by
  unfold detect at h
  dsimp only at h
  split at h
  · next c alpha hhex =>
      obtain ⟨ns, htext, hdigits⟩ := ofHex?_eq_some_iff.mp hhex
      exact ⟨c, alpha, none, .hex htext hdigits, Option.some.inj h⟩
  split at h
  · next channels a hchannels =>
      have htext := channelsPhrase_eq_some_iff.mp hchannels
      obtain ⟨r, g, b, rfl⟩ := htext.exists_channels
      obtain ⟨c, hr, hg, hb, hs⟩ := ofChannels?_eq_some_iff.mp h
      exact ⟨c, _, none, .channels htext hr hg hb, hs⟩
  split at h
  · next hue saturation lightness hhue =>
      have htext := huePhrase_eq_some_iff.mp hhue
      obtain ⟨u, v, w, hu, hv, hw, hrange, hs⟩ := ofHue?_eq_some_iff.mp h
      exact ⟨_, none, none, .hue htext hu hv hw hrange, hs⟩
  · obtain ⟨name, c, hmem, hname, hs⟩ := ofName?_eq_some_iff.mp h
    exact ⟨c, none, some name, .name hmem hname, hs⟩

theorem detect_of_denotes {input : List Char} {c : Rgb} {alpha : Option Float}
    {name : Option String} (h : Denotes (trim input) c alpha name) :
    detect input = some (Swatch.of (trim input) c alpha name) := by
  unfold detect
  dsimp only
  cases h with
  | hex htext hdigits => rw [ofHex?_eq_some_iff.mpr ⟨_, htext, hdigits⟩]
  | channels htext hred hgreen hblue =>
      rw [ofHex?_of_channelsText htext, channelsPhrase_eq_some_iff.mpr htext]
      exact ofChannels?_eq_some_iff.mpr ⟨c, hred, hgreen, hblue, rfl⟩
  | hue htext hu hv hw hrange =>
      rw [ofHex?_of_hueText htext, channelsPhrase_of_hueText htext,
        huePhrase_eq_some_iff.mpr htext]
      exact ofHue?_eq_some_iff.mpr ⟨_, _, _, hu, hv, hw, hrange, rfl⟩
  | name hmem hname =>
      have hread := ofName?_eq_some_iff.mpr ⟨_, _, hmem, hname, rfl⟩
      obtain ⟨hhex, hchannels, hhue⟩ := notations_of_name hread
      rw [hhex, hchannels, hhue]
      exact hread

/-- **A text is a color if and only if it denotes one.** -/
theorem detect_eq_some_iff {input : List Char} {s : Swatch} : detect input = some s ↔
    ∃ c alpha name, Denotes (trim input) c alpha name ∧ Swatch.of (trim input) c alpha name = s := by
  refine ⟨denotes_of_detect, ?_⟩
  rintro ⟨c, alpha, name, h, rfl⟩
  exact detect_of_denotes h

/-- A text denotes one color at most. -/
theorem Denotes.unique {input : List Char} {c c' : Rgb} {alpha alpha' : Option Float}
    {name name' : Option String} (h : Denotes (trim input) c alpha name)
    (h' : Denotes (trim input) c' alpha' name') : c = c' ∧ alpha = alpha' ∧ name = name' := by
  have hsame : Swatch.of (trim input) c alpha name = Swatch.of (trim input) c' alpha' name' :=
    Option.some.inj ((detect_of_denotes h).symm.trans (detect_of_denotes h'))
  exact ⟨congrArg Swatch.rgb hsame, congrArg Swatch.alpha hsame, congrArg Swatch.name hsame⟩

end Composer.Color
