import Composer.Proofs.Color.Denotes
import Composer.Proofs.Decimal.Digits
/-!
# Composer.Proofs.Color.Copy

**The notations offered for copying denote the color that was typed.** A byte in two hexadecimal
digits, and a byte in decimal digits, is read back as the byte. So whatever notation a color was typed
in, the answers to its hexadecimal digits and to its channels are about the same color
(`detect_copied`).
-/

namespace Composer.Color

open Text

/-! ### Bytes -/

theorem hexDigit?_digitChar {n : Nat} (h : n < 16) : hexDigit? (Nat.digitChar n) = some n := by
  have hdigits : ∀ n < 16, hexDigit? (Nat.digitChar n) = some n := by decide
  exact hdigits n h

theorem byteOf_halves (b : UInt8) : byteOf (b.toNat / 16) (b.toNat % 16) = b := by
  rw [byteOf, Nat.div_add_mod]
  exact UInt8.ofNat_toNat

theorem halves_lt (b : UInt8) : b.toNat / 16 < 16 ∧ b.toNat % 16 < 16 := by
  have hb := b.toNat_lt
  omega

theorem not_isBlank_of_mem_hexByte {b : UInt8} {c : Char} (h : c ∈ hexByte b) :
    isBlank c = false := by
  have hdigits : ∀ n < 16, isBlank (Nat.digitChar n) = false := by decide
  rw [hexByte, List.mem_cons, List.mem_singleton] at h
  rcases h with rfl | rfl
  · exact hdigits _ (halves_lt b).1
  · exact hdigits _ (halves_lt b).2

theorem channelText_digitsOf (b : UInt8) : ChannelText (Decimal.digitsOf b.toNat) := by
  have hb := b.toNat_lt
  refine ⟨⟨List.length_pos_iff.mpr (Decimal.digitsOf_ne_nil _), ?_⟩, fun c hc => ?_⟩
  · exact (Nat.length_toDigits_le_iff (by decide) (by decide)).mpr (by omega)
  · rw [isDecimalDigit, Decimal.isDigit_of_mem_digitsOf hc, Bool.true_or]

/-! ### Answers -/

section

variable (t : List Char) (c : Rgb) (alpha : Option Float) (name : Option String)

@[simp] theorem Swatch.of_rgb : (Swatch.of t c alpha name).rgb = c := rfl

@[simp] theorem Swatch.of_hex : (Swatch.of t c alpha name).hex = c.hex := rfl

@[simp] theorem Swatch.of_rgbText : (Swatch.of t c alpha name).rgbText = c.text alpha := rfl

@[simp] theorem Swatch.of_alpha : (Swatch.of t c alpha name).alpha = alpha := rfl

@[simp] theorem Swatch.of_name : (Swatch.of t c alpha name).name = name := rfl

end

/-! ### Hexadecimal digits -/

theorem toList_hex (c : Rgb) :
    c.hex.toList = '#' :: (hexByte c.r ++ hexByte c.g ++ hexByte c.b) :=
  String.toList_ofList

theorem denotes_hex (c : Rgb) : Denotes c.hex.toList c none none := by
  have htext : HexText c.hex.toList [c.r.toNat / 16, c.r.toNat % 16, c.g.toNat / 16,
      c.g.toNat % 16, c.b.toNat / 16, c.b.toNat % 16] := by
    refine ⟨_, toList_hex c, ?_⟩
    simp [hexByte, hexDigit?_digitChar (halves_lt _).1, hexDigit?_digitChar (halves_lt _).2]
  refine .hex htext ?_
  have hsay := @DigitsSay.long (c.r.toNat / 16) (c.r.toNat % 16) (c.g.toNat / 16)
    (c.g.toNat % 16) (c.b.toNat / 16) (c.b.toNat % 16)
  rwa [byteOf_halves, byteOf_halves, byteOf_halves] at hsay

theorem trim_hex (c : Rgb) : trim c.hex.toList = c.hex.toList := by
  refine trim_eq_self fun d hd => ?_
  simp only [toList_hex, List.mem_cons, List.mem_append] at hd
  rcases hd with rfl | (hd | hd) | hd
  · rfl
  · exact not_isBlank_of_mem_hexByte hd
  · exact not_isBlank_of_mem_hexByte hd
  · exact not_isBlank_of_mem_hexByte hd

theorem detect_hex (c : Rgb) :
    detect c.hex.toList = some (Swatch.of c.hex.toList c none none) := by
  have hdenotes := denotes_hex c
  rw [← trim_hex] at hdenotes
  rw [detect_of_denotes hdenotes, trim_hex]

/-! ### Channels -/

theorem toList_text (c : Rgb) : (c.text none).toList =
    ['r', 'g', 'b'] ++ '(' :: ([] ++ (Decimal.digitsOf c.r.toNat ++ ([',', ' '] ++
      (Decimal.digitsOf c.g.toNat ++ ([',', ' '] ++ (Decimal.digitsOf c.b.toNat ++ [')'])))))) := by
  simp [Rgb.text, Rgb.channels, Decimal.digitsOf]

theorem commaText_space : CommaText [',', ' '] :=
  ⟨[], [',', ' '], rfl, List.forall_mem_nil _, [','], [' '], rfl, rfl, isBlank_of_mem_space⟩

theorem denotes_text (c : Rgb) : Denotes (c.text none).toList c none none := by
  have htext : ChannelsText (c.text none).toList
      ([Decimal.digitsOf c.r.toNat, Decimal.digitsOf c.g.toNat, Decimal.digitsOf c.b.toNat], none) := by
    rw [toList_text]
    have hword : Spelled ["rgb"] ['r', 'g', 'b'] := ⟨"rgb", List.mem_singleton_self _, by decide⟩
    exact .mk ⟨['r', 'g', 'b'], [], rfl, hword, Or.inl rfl⟩ (List.forall_mem_nil _)
      (channelText_digitsOf _) commaText_space (channelText_digitsOf _)
      commaText_space (channelText_digitsOf _) (.solid ⟨[], [')'], rfl, List.forall_mem_nil _, rfl⟩)
  exact .channels htext (Decimal.natural?_digitsOf _) (Decimal.natural?_digitsOf _)
    (Decimal.natural?_digitsOf _)

theorem trim_text (c : Rgb) : trim (c.text none).toList = (c.text none).toList := by
  refine trim_of_ends (c := 'r') (d := ')') ?_ rfl ?_ rfl
  · rw [toList_text]
    rfl
  · simp [toList_text, List.getLast?_cons, List.getLast?_append]

theorem detect_text (c : Rgb) :
    detect (c.text none).toList = some (Swatch.of (c.text none).toList c none none) := by
  have hdenotes := denotes_text c
  rw [← trim_text] at hdenotes
  rw [detect_of_denotes hdenotes, trim_text]

/-- **The notations offered for copying denote the color that was typed.** -/
theorem detect_copied (input : List Char) (s : Swatch) (h : detect input = some s) :
    (∀ c alpha name, Denotes (trim input) c alpha name ↔
      c = s.rgb ∧ alpha = s.alpha ∧ name = s.name) ∧
    (∃ t, detect s.hex.toList = some t ∧ t.rgb = s.rgb ∧ t.hex = s.hex) ∧
    (s.alpha = none → ∃ t, detect s.rgbText.toList = some t ∧ t.rgb = s.rgb ∧ t.hex = s.hex ∧
      t.rgbText = s.rgbText) := by
  obtain ⟨c, alpha, name, hdenotes, rfl⟩ := detect_eq_some_iff.mp h
  simp only [Swatch.of_rgb, Swatch.of_hex, Swatch.of_rgbText, Swatch.of_alpha, Swatch.of_name]
  refine ⟨fun c' alpha' name' => ⟨fun hdenotes' => hdenotes'.unique hdenotes, ?_⟩, ?_, ?_⟩
  · rintro ⟨rfl, rfl, rfl⟩
    exact hdenotes
  · exact ⟨_, detect_hex c, Swatch.of_rgb .., Swatch.of_hex ..⟩
  · rintro rfl
    exact ⟨_, detect_text c, Swatch.of_rgb .., Swatch.of_hex .., Swatch.of_rgbText ..⟩

/-- Orange in three digits, in six, and as channels. -/
theorem detect_copied_orange : ∃ s, detect "#F80".toList = some s ∧ s.hex = "#ff8800" ∧
    s.rgbText = "rgb(255, 136, 0)" ∧
    (∃ t, detect s.hex.toList = some t ∧ t.rgb = s.rgb ∧ t.hex = s.hex) ∧
    ∃ t, detect s.rgbText.toList = some t ∧ t.rgb = s.rgb ∧ t.hex = s.hex ∧
      t.rgbText = s.rgbText := by
  have hhex : ofHex? (trim "#F80".toList) = some (⟨255, 136, 0⟩, none) := by rfl
  obtain ⟨ns, htext, hdigits⟩ := ofHex?_eq_some_iff.mp hhex
  have hread := detect_of_denotes (.hex htext hdigits)
  obtain ⟨-, hcopied, hchannels⟩ := detect_copied "#F80".toList _ hread
  exact ⟨_, hread, by decide, by decide, hcopied, hchannels rfl⟩

end Composer.Color
