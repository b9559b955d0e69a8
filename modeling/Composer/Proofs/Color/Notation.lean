import Composer.Color.Swatch
import Composer.Proofs.Text.Piece
/-!
# Composer.Proofs.Color.Notation

**How colors are typed.** Channels and hue, saturation and lightness stand in parentheses, with commas
between them. Each phrase reads exactly the texts that are written like this, and takes the numbers
out of them (`channelsPhrase_eq_some_iff`, `huePhrase_eq_some_iff`).
-/

namespace Composer.Color

open Text

variable {β : Type} {s : List Char}

/-! ### Texts -/

/-- A comma with blanks around it. -/
def CommaText : List Char → Prop :=
  Joined AllBlank (Joined (· = [',']) AllBlank)

/-- A closing parenthesis with blanks in front of it. -/
def ClosingText : List Char → Prop :=
  Joined AllBlank (· = [')'])

/-- A channel: up to three digits. -/
def ChannelText (ds : List Char) : Prop :=
  (1 ≤ ds.length ∧ ds.length ≤ 3) ∧ ∀ c ∈ ds, isDecimalDigit c = true

/-- An opacity: nought, one, or a fraction of one. -/
inductive OpacityText : List Char → Prop
  | nought : OpacityText ['0']
  | one : OpacityText ['1']
  | fraction {part : List Char} (whole : part ≠ [] ∧ ∀ c ∈ part, isDecimalDigit c = true)
      (zero : Bool) : OpacityText ((if zero then ['0'] else []) ++ '.' :: part)
  | unit {part : List Char} (zeros : part ≠ [] ∧ ∀ c ∈ part, c = '0') :
      OpacityText ('1' :: '.' :: part)

/-- What follows the channels: an opacity perhaps, and the closing parenthesis. -/
inductive ChannelsEnd : List Char → Option (List Char) → Prop
  | solid {e : List Char} (closing : ClosingText e) : ChannelsEnd e none
  | translucent {c a e : List Char} (comma : CommaText c) (opacity : OpacityText a)
      (closing : ClosingText e) : ChannelsEnd (c ++ (a ++ e)) (some a)

/-- Channels in parentheses. -/
inductive ChannelsText : List Char → List (List Char) × Option (List Char) → Prop
  | mk {lead ws r c g c' b e : List Char} {a : Option (List Char)}
      (lead_ : Joined (Spelled ["rgb"]) (Maybe (Spelled ["a"])) lead) (blanks : AllBlank ws)
      (red : ChannelText r) (comma : CommaText c) (green : ChannelText g) (comma' : CommaText c')
      (blue : ChannelText b) (end_ : ChannelsEnd e a) :
      ChannelsText (lead ++ '(' :: (ws ++ (r ++ (c ++ (g ++ (c' ++ (b ++ e))))))) ([r, g, b], a)

/-- Hue, saturation and lightness in parentheses. -/
inductive HueText : List Char → List Char × List Char × List Char → Prop
  | mk {lead ws h c s p c' l p' e : List Char} (lead_ : Spelled ["hsl"] lead)
      (blanks : AllBlank ws) (hue : IsNumeral 1 3 h) (comma : CommaText c)
      (saturation : IsNumeral 1 3 s) (percent : Maybe (· = ['%']) p) (comma' : CommaText c')
      (lightness : IsNumeral 1 3 l) (percent' : Maybe (· = ['%']) p') (closing : ClosingText e) :
      HueText (lead ++ '(' :: (ws ++ (h ++ (c ++ (s ++ (p ++ (c' ++ (l ++ (p' ++ e)))))))))
        (h, s, l)

/-! ### Signs between numbers -/

/-- The character ends what is between two commas. -/
def endsPart (c : Char) : Bool :=
  isBlank c || c = ',' || c = ')'

/-- The character ends a number. -/
def endsNumber (c : Char) : Bool :=
  endsPart c || c = '%'

theorem endsNumber_of_endsPart {c : Char} (h : endsPart c = true) : endsNumber c = true := by
  rw [endsNumber, h, Bool.true_or]

theorem of_endsNumber {c : Char} (h : endsNumber c = true) : isDecimalDigit c = false ∧ c ≠ '.' := by
  simp only [endsNumber, endsPart, Bool.or_eq_true, decide_eq_true_eq] at h
  rcases h with ((h | rfl) | rfl) | rfl
  · refine ⟨isDecimalDigit_of_isBlank h, ?_⟩
    rintro rfl
    cases h
  · exact ⟨rfl, by decide⟩
  · exact ⟨rfl, by decide⟩
  · exact ⟨rfl, by decide⟩

theorem endsPart_of_isBlank {c : Char} (h : isBlank c = true) : endsPart c = true := by
  rw [endsPart, h, Bool.true_or, Bool.true_or]

theorem beginsWithin_comma (k : Reading β) : BeginsWithin endsPart (comma k) :=
  beginsWithin_maybeBlanks ((beginsWithin_char ',' _).mono (by simp [endsPart]))
    fun _ => endsPart_of_isBlank

theorem beginsWithin_closing (b : β) : BeginsWithin endsPart (closing b) :=
  beginsWithin_maybeBlanks ((beginsWithin_char ')' _).mono (by simp [endsPart]))
    fun _ => endsPart_of_isBlank

theorem beginsOutside_digits {k : Reading β} (h : BeginsWithin endsPart k) :
    BeginsOutside isDecimalDigit k :=
  h.beginsOutside fun _ hc => (of_endsNumber (endsNumber_of_endsPart hc)).1

theorem reads_comma : Reads (comma : Reading β → Reading β) CommaText :=
  Reads.maybeBlanks.andThen ((Reads.char ',').andThen .maybeBlanks)

theorem comma_eq_some_iff {k : Reading β} (hk : SkipsNoBlank k) {b : β} :
    comma k s = some b ↔ ∃ u r, s = u ++ r ∧ CommaText u ∧ k r = some b := by
  refine ⟨reads_comma.sound, ?_⟩
  rintro ⟨_, r, rfl, ⟨ws, _, rfl, hws, _, ws', rfl, rfl, hws'⟩, hr⟩
  refine (maybeBlanks_eq_some_iff (skipsNoBlank_char rfl _)).mpr ⟨ws, ',' :: (ws' ++ r), ?_, hws, ?_⟩
  · simp
  · exact char_eq_some_iff.mpr ⟨_, rfl, (maybeBlanks_eq_some_iff hk).mpr ⟨ws', r, rfl, hws', hr⟩⟩

theorem closing_eq_some_iff {b b' : β} : closing b s = some b' ↔ ClosingText s ∧ b = b' := by
  have hskips : SkipsNoBlank (char ')' (stop b)) := skipsNoBlank_char rfl _
  simp only [closing, maybeBlanks_eq_some_iff hskips, char_eq_some_iff, stop_eq_some_iff]
  constructor
  · rintro ⟨ws, _, rfl, hws, _, rfl, rfl, rfl⟩
    exact ⟨⟨ws, _, rfl, hws, rfl⟩, rfl⟩
  · rintro ⟨⟨ws, _, rfl, hws, rfl⟩, rfl⟩
    exact ⟨ws, _, rfl, hws, [], rfl, rfl, rfl⟩

/-- No text goes on with a comma and is closed. -/
theorem not_closingText_comma {u r : List Char} (h : CommaText u) : ¬ ClosingText (u ++ r) := by
  rintro ⟨ws', _, hs, hws', rfl⟩
  obtain ⟨ws, _, rfl, hws, _, ws'', rfl, rfl, -⟩ := h
  have hstop {c : Char} {r : List Char} (hc : isBlank c = false) :
      ∀ d ∈ (c :: r).head?, isBlank d = false := by
    intro d hd
    obtain rfl := Option.some.inj hd
    exact hc
  simp only [List.append_assoc, List.cons_append, List.nil_append] at hs
  have hsame := append_eq_append_of_stop hws hws' (hstop rfl) (hstop rfl) hs
  cases hsame.2

/-! ### Opacities -/

/-- A point and a run of digits. -/
theorem fraction_eq_some_iff {f : Char → Bool} {k : List Char → Reading β}
    (hk : ∀ part, BeginsOutside f (k part)) {b : β} :
    char '.' (run f (1 ≤ ·) k) s = some b ↔ ∃ part r, s = '.' :: (part ++ r) ∧
      (part ≠ [] ∧ ∀ c ∈ part, f c = true) ∧ k part r = some b := by
  simp only [char_eq_some_iff, run_eq_some_iff hk, decide_eq_true_eq]
  constructor
  · rintro ⟨_, rfl, part, r, rfl, hsize, hpart, hr⟩
    exact ⟨part, r, rfl, ⟨List.ne_nil_of_length_pos hsize, hpart⟩, hr⟩
  · rintro ⟨part, r, rfl, ⟨hne, hpart⟩, hr⟩
    exact ⟨_, rfl, part, r, rfl, List.length_pos_iff.mpr hne, hpart, hr⟩

/-- The character stands in an opacity. -/
def inOpacity (c : Char) : Bool :=
  isDecimalDigit c || c = '.'

theorem inOpacity_of_isDecimalDigit {c : Char} (h : isDecimalDigit c = true) :
    inOpacity c = true := by
  rw [inOpacity, h, Bool.true_or]

theorem OpacityText.within : Within inOpacity OpacityText := by
  intro a h
  cases h with
  | nought => simp [inOpacity, isDecimalDigit]
  | one => simp [inOpacity, isDecimalDigit]
  | fraction whole zero =>
      refine List.forall_mem_append.mpr ⟨?_, List.forall_mem_cons.mpr ⟨rfl, ?_⟩⟩
      · cases zero <;> simp [inOpacity, isDecimalDigit]
      · exact fun c hc => inOpacity_of_isDecimalDigit (whole.2 c hc)
  | unit zeros =>
      refine List.forall_mem_cons.mpr ⟨rfl, List.forall_mem_cons.mpr ⟨rfl, fun c hc => ?_⟩⟩
      rw [zeros.2 c hc]
      rfl

section

variable {k : List Char → Reading β} (hk : ∀ a, BeginsOutside inOpacity (k a)) {b : β}
include hk

theorem opacity_eq_some (h : opacity k s = some b) :
    ∃ a r, s = a ++ r ∧ OpacityText a ∧ k a r = some b := by
  have hdigit (whole : List Char) (part : List Char) :
      BeginsOutside isDecimalDigit (k (whole ++ '.' :: part)) := fun r b hr c hc => by
    have hout := hk _ r b hr c hc
    rw [inOpacity, Bool.or_eq_false_iff] at hout
    exact hout.1
  have hzero (part : List Char) :
      BeginsOutside (· = '0') (k (['1'] ++ '.' :: part)) := fun r b hr c hc => by
    refine decide_eq_false ?_
    rintro rfl
    cases hk _ r b hr _ hc
  obtain ⟨way, hway, h⟩ := firstOf_eq_some h
  simp only [List.mem_cons, List.not_mem_nil, or_false] at hway
  rcases hway with rfl | rfl | rfl | rfl | rfl
  · obtain ⟨r, rfl, hr⟩ := char_eq_some_iff.mp h
    exact ⟨['0'], r, rfl, .nought, hr⟩
  · obtain ⟨r, rfl, hr⟩ := char_eq_some_iff.mp h
    exact ⟨['1'], r, rfl, .one, hr⟩
  · obtain ⟨r, rfl, hr⟩ := char_eq_some_iff.mp h
    obtain ⟨part, r, rfl, hpart, hr⟩ := (fraction_eq_some_iff (hdigit ['0'])).mp hr
    exact ⟨'0' :: '.' :: part, r, rfl, .fraction hpart true, hr⟩
  · obtain ⟨part, r, rfl, hpart, hr⟩ := (fraction_eq_some_iff (hdigit [])).mp h
    exact ⟨'.' :: part, r, rfl, .fraction hpart false, hr⟩
  · obtain ⟨r, rfl, hr⟩ := char_eq_some_iff.mp h
    obtain ⟨part, r, rfl, hpart, hr⟩ := (fraction_eq_some_iff hzero).mp hr
    exact ⟨'1' :: '.' :: part, r, rfl, .unit ⟨hpart.1, by simpa using hpart.2⟩, hr⟩

/-- **An opacity is taken as a whole.** -/
theorem opacity_eq_some_iff :
    opacity k s = some b ↔ ∃ a r, s = a ++ r ∧ OpacityText a ∧ k a r = some b := by
  refine ⟨opacity_eq_some hk, ?_⟩
  rintro ⟨a, r, rfl, ha, hr⟩
  have hsome : (k a r).isSome = true := Option.isSome_of_eq_some hr
  have hstop {f : Char → Bool} (hf : ∀ c, f c = true → inOpacity c = true) :
      ∀ c ∈ r.head?, f c = false := fun c hc => by
    rw [Bool.eq_false_iff]
    intro hc'
    cases (hf c hc').symm.trans (hk a r b hr c hc)
  have hread : (opacity k (a ++ r)).isSome = true := by
    cases ha with
    | nought => exact isSome_firstOf List.mem_cons_self hsome
    | one => exact isSome_firstOf (List.mem_cons_of_mem _ List.mem_cons_self) hsome
    | @fraction part hpart zero =>
        have hrun (k : List Char → Reading β) :
            run isDecimalDigit (1 ≤ ·) k (part ++ r) = k part r :=
          run_append hpart.2 (decide_eq_true (List.length_pos_iff.mpr hpart.1))
            (hstop fun _ => inOpacity_of_isDecimalDigit) k
        cases zero with
        | true =>
            refine isSome_firstOf
              (List.mem_cons_of_mem _ <| List.mem_cons_of_mem _ List.mem_cons_self) ?_
            exact (congrArg Option.isSome (hrun fun part => k (['0'] ++ '.' :: part))).trans hsome
        | false =>
            refine isSome_firstOf (List.mem_cons_of_mem _ <| List.mem_cons_of_mem _ <|
              List.mem_cons_of_mem _ List.mem_cons_self) ?_
            exact (congrArg Option.isSome (hrun fun part => k ([] ++ '.' :: part))).trans hsome
    | @unit part hpart =>
        have hrun (k : List Char → Reading β) : run (· = '0') (1 ≤ ·) k (part ++ r) = k part r :=
          run_append (by simpa using hpart.2) (decide_eq_true (List.length_pos_iff.mpr hpart.1))
            (hstop fun c hc => by rw [of_decide_eq_true hc]; rfl) k
        refine isSome_firstOf (List.mem_cons_of_mem _ <| List.mem_cons_of_mem _ <|
          List.mem_cons_of_mem _ <| List.mem_cons_of_mem _ List.mem_cons_self) ?_
        exact (congrArg Option.isSome (hrun fun part => k (['1'] ++ '.' :: part))).trans hsome
  obtain ⟨b', hb'⟩ := Option.isSome_iff_exists.mp hread
  obtain ⟨a', r', hsplit, ha', hr'⟩ := opacity_eq_some hk hb'
  obtain ⟨rfl, rfl⟩ := append_eq_append_of_stop (OpacityText.within a ha)
    (OpacityText.within a' ha') (hk a r b hr) (hk a' r' b' hr') hsplit
  rw [hb', ← hr', hr]

end

/-! ### Channels -/

theorem skipsNoBlank_opacity (k : List Char → Reading β) : SkipsNoBlank (opacity k) := by
  intro c s hc
  have hskips (d : Char) (hd : isBlank d = false) (k : Reading β) : char d k (c :: s) = none :=
    skipsNoBlank_char hd k c s hc
  rw [opacity, firstOf_of_eq_none (hskips '0' rfl _), firstOf_of_eq_none (hskips '1' rfl _),
    firstOf_of_eq_none (hskips '0' rfl _), firstOf_of_eq_none (hskips '.' rfl _),
    firstOf_of_eq_none (hskips '1' rfl _)]
  rfl

theorem beginsOutside_opacity_closing (x : β) : BeginsOutside inOpacity (closing x) :=
  (beginsWithin_closing x).beginsOutside fun c hc => by
    obtain ⟨hdigit, hpoint⟩ := of_endsNumber (endsNumber_of_endsPart hc)
    rw [inOpacity, hdigit, Bool.false_or, decide_eq_false hpoint]

/-- What follows the channels. -/
def channelsAtEnd (k : Option (List Char) → β) : Reading β :=
  firstOf [comma <| opacity fun a => closing (k (some a)), closing (k none)]

theorem channelsAtEnd_eq_some_iff {k : Option (List Char) → β} {b : β} :
    channelsAtEnd k s = some b ↔ ∃ a, ChannelsEnd s a ∧ k a = b := by
  have hcomma : (comma <| opacity fun a => closing (k (some a))) s = some b ↔
      ∃ c r, s = c ++ r ∧ CommaText c ∧ ∃ a e, r = a ++ e ∧ OpacityText a ∧ ClosingText e ∧
        k (some a) = b := by
    simp only [comma_eq_some_iff (skipsNoBlank_opacity _),
      opacity_eq_some_iff fun _ => beginsOutside_opacity_closing _, closing_eq_some_iff]
  constructor
  · intro h
    rcases firstOf_pair_eq_some h with hread | hread
    · obtain ⟨c, _, rfl, hc, a, e, rfl, ha, he, hb⟩ := hcomma.mp hread
      exact ⟨some a, .translucent hc ha he, hb⟩
    · obtain ⟨he, hb⟩ := closing_eq_some_iff.mp hread
      exact ⟨none, .solid he, hb⟩
  · rintro ⟨a, hend, hb⟩
    cases hend with
    | solid he =>
        have hnone : (comma <| opacity fun a => closing (k (some a))) s = none := by
          rw [Option.eq_none_iff_forall_ne_some]
          intro b' h
          obtain ⟨c, r, rfl, hc, -⟩ := reads_comma.sound h
          exact not_closingText_comma hc he
        exact (firstOf_of_eq_none hnone _).trans
          (firstOf_of_eq_some (closing_eq_some_iff.mpr ⟨he, hb⟩) _)
    | @translucent c a e hc ha he =>
        exact firstOf_of_eq_some (hcomma.mpr ⟨c, a ++ e, rfl, hc, a, e, rfl, ha, he, hb⟩) _

theorem beginsWithin_channelsAtEnd (k : Option (List Char) → β) :
    BeginsWithin endsPart (channelsAtEnd k) := by
  intro r b h
  rcases firstOf_pair_eq_some h with hread | hread
  · exact beginsWithin_comma _ r b hread
  · exact beginsWithin_closing _ r b hread

/-- The word in front of the parenthesis. -/
theorem lead_eq_some_iff {p : Reading β → Reading β} {P : List Char → Prop} (hp : Reads p P)
    (hP : Within isKeywordLetter P) {k : Reading β} {b : β} : p (char '(' k) s = some b ↔
      ∃ lead r, s = lead ++ '(' :: r ∧ P lead ∧ k r = some b := by
  have hparenthesis : BeginsOutside isKeywordLetter (char '(' k) :=
    (beginsWithin_char '(' k).beginsOutside fun c hc => by
      rw [of_decide_eq_true hc]
      rfl
  simp only [hp.eq_some_iff hP hparenthesis, char_eq_some_iff]
  constructor
  · rintro ⟨lead, _, rfl, hlead, r, rfl, hr⟩
    exact ⟨lead, r, rfl, hlead, hr⟩
  · rintro ⟨lead, r, rfl, hlead, hr⟩
    exact ⟨lead, _, rfl, hlead, r, rfl, hr⟩

theorem within_letters {l : List String} (h : ∀ w ∈ l, w.toList.all Char.isLower = true) :
    Within isKeywordLetter (Spelled l) :=
  .spelled fun w hw _ hc => List.all_eq_true.mp (h w hw) _ hc

theorem skipsNoBlank_channel (k : List Char → Reading β) : SkipsNoBlank (digits 1 3 k) :=
  skipsNoBlank_digits Nat.one_pos k

theorem channel_comma_eq_some_iff {k : List Char → Reading β} (hk : ∀ ds, SkipsNoBlank (k ds))
    {b : β} : digits 1 3 (fun ds => comma (k ds)) s = some b ↔
      ∃ ds c r, s = ds ++ (c ++ r) ∧ ChannelText ds ∧ CommaText c ∧ k ds r = some b := by
  simp only [digits_eq_some_iff fun ds => beginsOutside_digits (beginsWithin_comma (k ds)),
    comma_eq_some_iff (hk _)]
  constructor
  · rintro ⟨ds, _, rfl, hsize, hds, c, r, rfl, hc, hr⟩
    exact ⟨ds, c, r, rfl, ⟨hsize, hds⟩, hc, hr⟩
  · rintro ⟨ds, c, r, rfl, ⟨hsize, hds⟩, hc, hr⟩
    exact ⟨ds, _, rfl, hsize, hds, c, r, rfl, hc, hr⟩

theorem channel_end_eq_some_iff {k : List Char → Option (List Char) → β} {b : β} :
    digits 1 3 (fun ds => channelsAtEnd (k ds)) s = some b ↔
      ∃ ds e a, s = ds ++ e ∧ ChannelText ds ∧ ChannelsEnd e a ∧ k ds a = b := by
  simp only [digits_eq_some_iff fun ds => beginsOutside_digits (beginsWithin_channelsAtEnd (k ds)),
    channelsAtEnd_eq_some_iff]
  constructor
  · rintro ⟨ds, e, rfl, hsize, hds, a, he, hb⟩
    exact ⟨ds, e, a, rfl, ⟨hsize, hds⟩, he, hb⟩
  · rintro ⟨ds, e, a, rfl, ⟨hsize, hds⟩, he, hb⟩
    exact ⟨ds, e, rfl, hsize, hds, a, he, hb⟩

theorem channelsPhrase_eq : channelsPhrase =
    keyword "rgb" (optionally (keyword "a") <| char '(' <| maybeBlanks <|
      digits 1 3 fun r => comma <| digits 1 3 fun g => comma <| digits 1 3 fun b =>
        channelsAtEnd fun a => ([r, g, b], a)) :=
  rfl

/-- **Channels are read as they are written.** -/
theorem channelsPhrase_eq_some_iff {x : List (List Char) × Option (List Char)} :
    channelsPhrase s = some x ↔ ChannelsText s x := by
  have hword {k : Reading (List (List Char) × Option (List Char))} :
      keyword "rgb" (optionally (keyword "a") (char '(' k)) s = some x ↔ ∃ lead r,
        s = lead ++ '(' :: r ∧ Joined (Spelled ["rgb"]) (Maybe (Spelled ["a"])) lead ∧
          k r = some x :=
    lead_eq_some_iff ((Reads.keyword "rgb").andThen (Reads.keyword "a").optionally)
      (.joined (within_letters (by decide)) (.maybe (within_letters (by decide))))
  simp only [channelsPhrase_eq, hword, maybeBlanks_eq_some_iff (skipsNoBlank_channel _),
    channel_comma_eq_some_iff fun _ => skipsNoBlank_channel _, channel_end_eq_some_iff]
  constructor
  · rintro ⟨lead, _, rfl, hlead, ws, _, rfl, hws, r, c, _, rfl, hr, hc, g, c', _, rfl, hg, hc', b, e,
      a, rfl, hb, he, rfl⟩
    exact .mk hlead hws hr hc hg hc' hb he
  · rintro ⟨hlead, hws, hr, hc, hg, hc', hb, he⟩
    exact ⟨_, _, rfl, hlead, _, _, rfl, hws, _, _, _, rfl, hr, hc, _, _, _, rfl, hg, hc', _, _, _, rfl,
      hb, he, rfl⟩

/-! ### Hue -/

section

variable {k : Reading β} (hk : BeginsWithin endsPart k)
include hk

/-- A percent sign perhaps, and what is behind it. -/
theorem percent_eq_some_iff {b : β} : optionally (char '%') k s = some b ↔
    ∃ p r, s = p ++ r ∧ Maybe (· = ['%']) p ∧ k r = some b := by
  refine (Reads.char '%').optionally.eq_some_iff (f := (· = '%')) ?_ (hk.beginsOutside ?_)
  · exact .maybe (.char (decide_eq_true rfl))
  · intro c hc
    refine decide_eq_false ?_
    rintro rfl
    cases hc

theorem beginsWithin_percent : BeginsWithin endsNumber (optionally (char '%') k) := by
  intro r b h
  obtain ⟨p, v, rfl, hp, hv⟩ := (percent_eq_some_iff hk).mp h
  rcases hp with rfl | rfl
  · exact (hk.mono fun _ => endsNumber_of_endsPart) v b hv
  · exact ⟨'%', v, rfl, rfl⟩

end

theorem skipsNoBlank_numeral (k : List Char → Reading β) : SkipsNoBlank (numeral 1 3 k) :=
  skipsNoBlank_digits Nat.one_pos _

theorem numeral_comma_eq_some_iff {k : List Char → Reading β} (hk : ∀ ds, SkipsNoBlank (k ds))
    {b : β} : numeral 1 3 (fun ds => comma (k ds)) s = some b ↔
      ∃ ds c r, s = ds ++ (c ++ r) ∧ IsNumeral 1 3 ds ∧ CommaText c ∧ k ds r = some b := by
  have hends (ds : List Char) : BeginsWithin endsNumber (comma (k ds)) :=
    (beginsWithin_comma (k ds)).mono fun _ => endsNumber_of_endsPart
  simp only [numeral_eq_some_iff hends fun _ => of_endsNumber, comma_eq_some_iff (hk _)]
  constructor
  · rintro ⟨ds, _, rfl, hds, c, r, rfl, hc, hr⟩
    exact ⟨ds, c, r, rfl, hds, hc, hr⟩
  · rintro ⟨ds, c, r, rfl, hds, hc, hr⟩
    exact ⟨ds, _, rfl, hds, c, r, rfl, hc, hr⟩

theorem numeral_percent_eq_some_iff {k : List Char → Reading β}
    (hk : ∀ ds, BeginsWithin endsPart (k ds)) {b : β} :
    numeral 1 3 (fun ds => optionally (char '%') (k ds)) s = some b ↔
      ∃ ds p r, s = ds ++ (p ++ r) ∧ IsNumeral 1 3 ds ∧ Maybe (· = ['%']) p ∧ k ds r = some b := by
  simp only [numeral_eq_some_iff (fun ds => beginsWithin_percent (hk ds)) fun _ => of_endsNumber,
    percent_eq_some_iff (hk _)]
  constructor
  · rintro ⟨ds, _, rfl, hds, p, r, rfl, hp, hr⟩
    exact ⟨ds, p, r, rfl, hds, hp, hr⟩
  · rintro ⟨ds, p, r, rfl, hds, hp, hr⟩
    exact ⟨ds, _, rfl, hds, p, r, rfl, hp, hr⟩

/-- **Hue, saturation and lightness are read as they are written.** -/
theorem huePhrase_eq_some_iff {x : List Char × List Char × List Char} :
    huePhrase s = some x ↔ HueText s x := by
  have hword {k : Reading (List Char × List Char × List Char)} :
      keyword "hsl" (char '(' k) s = some x ↔
        ∃ lead r, s = lead ++ '(' :: r ∧ Spelled ["hsl"] lead ∧ k r = some x :=
    lead_eq_some_iff (.keyword "hsl") (within_letters (by decide))
  simp only [huePhrase, hword, maybeBlanks_eq_some_iff (skipsNoBlank_numeral _),
    numeral_comma_eq_some_iff fun _ => skipsNoBlank_numeral _,
    numeral_percent_eq_some_iff fun _ => beginsWithin_comma _,
    comma_eq_some_iff (skipsNoBlank_numeral _),
    numeral_percent_eq_some_iff fun _ => beginsWithin_closing _, closing_eq_some_iff]
  constructor
  · rintro ⟨lead, _, rfl, hlead, ws, _, rfl, hws, h, c, _, rfl, hh, hc, v, p, _, rfl, hv, hp, c', _,
      rfl, hc', l, p', e, rfl, hl, hp', he, rfl⟩
    exact .mk hlead hws hh hc hv hp hc' hl hp' he
  · rintro ⟨hlead, hws, hh, hc, hv, hp, hc', hl, hp', he⟩
    exact ⟨_, _, rfl, hlead, _, _, rfl, hws, _, _, _, rfl, hh, hc, _, _, _, rfl, hv, hp, _, _, rfl,
      hc', _, _, _, rfl, hl, hp', he, rfl⟩

end Composer.Color
