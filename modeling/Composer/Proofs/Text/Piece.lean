import Composer.Proofs.Text.Phrase
/-!
# Composer.Proofs.Text.Piece

**The texts that a piece of a phrase takes.** `Reads piece P` says that a piece of a phrase takes the
texts of `P` and no others. There is one rule for every kind of piece, so the texts of a phrase are
found by following its definition; a phrase up to the end of a text reads exactly its texts
(`Reads.isSome_stop_iff`). Where the texts of a piece stay within a class of characters that the rest
of the phrase begins outside of, there is only one way to cut a text behind the piece
(`Reads.eq_some_iff`).
-/

namespace Composer.Text

variable {β : Type}

/-! ### Texts -/

/-- One of several words in any letter case. -/
def Spelled (wordList : List String) (s : List Char) : Prop :=
  ∃ word ∈ wordList, s.map fold = word.toList

/-- A text of two parts. -/
def Joined (P Q : List Char → Prop) (s : List Char) : Prop :=
  ∃ u v, s = u ++ v ∧ P u ∧ Q v

/-- A text that may be left out. -/
def Maybe (P : List Char → Prop) (s : List Char) : Prop :=
  s = [] ∨ P s

/-- Blanks, or nothing. -/
def AllBlank (s : List Char) : Prop :=
  ∀ c ∈ s, isBlank c = true

theorem spelled_append {l l' : List String} {s : List Char} :
    Spelled (l ++ l') s ↔ Spelled l s ∨ Spelled l' s := by
  simp only [Spelled, List.mem_append, or_and_right, exists_or]

/-- A word begins with the first letter of one of the list. -/
theorem Spelled.exists_cons {l : List String} {u : List Char} (h : Spelled l u) {f : Char → Bool}
    (hl : ∀ w ∈ l, w.toList.head?.any f = true) : ∃ c v, u = c :: v ∧ f (fold c) = true := by
  obtain ⟨w, hw, hfold⟩ := h
  have hfirst := hl w hw
  rw [← hfold] at hfirst
  cases u with
  | nil => cases hfirst
  | cons c u => exact ⟨c, u, rfl, hfirst⟩

/-- Where two words begin the same text, one of them begins with the other. -/
theorem Spelled.comparable {l l' : List String} {u u' r r' : List Char} (hu : Spelled l u)
    (hu' : Spelled l' u') (h : u ++ r = u' ++ r') :
    ∃ w ∈ l, ∃ w' ∈ l', w.toList <+: w'.toList ∨ w'.toList <+: w.toList := by
  obtain ⟨w, hw, hfold⟩ := hu
  obtain ⟨w', hw', hfold'⟩ := hu'
  refine ⟨w, hw, w', hw', ?_⟩
  rw [← hfold, ← hfold']
  have hbegin : u' <+: u ++ r := ⟨r', h.symm⟩
  rcases List.prefix_or_prefix_of_prefix (List.prefix_append u r) hbegin with hfirst | hfirst
  · exact Or.inl (hfirst.map fold)
  · exact Or.inr (hfirst.map fold)

/-- A text that begins with one of several words. -/
def Begins (l : List String) (s : List Char) : Prop :=
  ∃ u r, s = u ++ r ∧ Spelled l u

theorem Begins.of_subset {l l' : List String} {s : List Char} (h : Begins l s) (hl : l ⊆ l') :
    Begins l' s := by
  obtain ⟨u, r, hs, word, hword, hfold⟩ := h
  exact ⟨u, r, hs, word, hl hword, hfold⟩

/-- No text begins with words of two lists that differ somewhere. -/
theorem Begins.not_begins {l l' : List String} {s : List Char} (h : Begins l s)
    (hl : ∀ w ∈ l, ∀ w' ∈ l', ¬ (w.toList <+: w'.toList ∨ w'.toList <+: w.toList)) :
    ¬ Begins l' s := by
  rintro ⟨u', r', hs', hu'⟩
  obtain ⟨u, r, hs, hu⟩ := h
  obtain ⟨w, hw, w', hw', hcompare⟩ := hu.comparable hu' (hs.symm.trans hs')
  exact hl w hw w' hw' hcompare

/-! ### Pieces -/

/-- The piece takes the texts of `P`, and no others, whatever the reading behind it is. -/
structure Reads (piece : Reading β → Reading β) (P : List Char → Prop) : Prop where
  /-- What is taken is a text of `P`. -/
  sound : ∀ {k : Reading β} {s : List Char} {b : β}, piece k s = some b →
    ∃ u r, s = u ++ r ∧ P u ∧ k r = some b
  /-- The phrase goes on if it can go on behind some text of `P`. -/
  complete : ∀ {k : Reading β} {u r : List Char}, P u → (k r).isSome = true →
    (piece k (u ++ r)).isSome = true

variable {p q : Reading β → Reading β} {P Q : List Char → Prop}

theorem Reads.keywordAmong (l : List String) :
    Reads (fun k : Reading β => Text.keywordAmong l fun _ => k) (Spelled l) where
  sound h := by
    obtain ⟨word, hword, taken, r, hs, hfold, hk⟩ := keywordAmong_eq_some h
    exact ⟨taken, r, hs, ⟨word, hword, hfold⟩, hk⟩
  complete hu h := by
    obtain ⟨word, hword, hfold⟩ := hu
    exact isSome_keywordAmong hword hfold h

theorem Reads.keyword (word : String) :
    Reads (Text.keyword word : Reading β → Reading β) (Spelled [word]) where
  sound h := by
    obtain ⟨taken, r, hs, hfold, hk⟩ := keyword_eq_some h
    exact ⟨taken, r, hs, ⟨word, List.mem_singleton_self word, hfold⟩, hk⟩
  complete hu h := by
    obtain ⟨word', hword, hfold⟩ := hu
    obtain rfl := List.mem_singleton.mp hword
    rw [keyword_append hfold]
    exact h

theorem Reads.char (c : Char) : Reads (Text.char c : Reading β → Reading β) (· = [c]) where
  sound h := by
    obtain ⟨r, hs, hk⟩ := char_eq_some h
    exact ⟨[c], r, hs, rfl, hk⟩
  complete hu h := by
    subst hu
    rw [List.cons_append, List.nil_append, char_cons]
    exact h

theorem Reads.blanks : Reads (Text.blanks : Reading β → Reading β) IsGap where
  sound h := by
    obtain ⟨ws, r, hws, hne, hs, hk⟩ := blanks_eq_some h
    exact ⟨ws, r, hs, ⟨hne, hws⟩, hk⟩
  complete hu h := isSome_blanks hu.2 hu.1 h

/-! ### Pieces put together -/

theorem Reads.andThen (hp : Reads p P) (hq : Reads q Q) :
    Reads (fun k => p (q k)) (Joined P Q) where
  sound h := by
    obtain ⟨u, r, rfl, hu, hqr⟩ := hp.sound h
    obtain ⟨v, r, rfl, hv, hk⟩ := hq.sound hqr
    exact ⟨u ++ v, r, (List.append_assoc u v r).symm, ⟨u, v, rfl, hu, hv⟩, hk⟩
  complete hu h := by
    obtain ⟨u, v, rfl, hu, hv⟩ := hu
    rw [List.append_assoc]
    exact hp.complete hu (hq.complete hv h)

theorem Reads.optionally (hp : Reads p P) : Reads (Text.optionally p) (Maybe P) where
  sound {k s b} h := by
    cases hpiece : p k s with
    | none =>
        rw [optionally_of_eq_none hpiece] at h
        exact ⟨[], s, rfl, Or.inl rfl, h⟩
    | some b' =>
        rw [optionally_of_eq_some hpiece] at h
        obtain ⟨u, r, hs, hu, hk⟩ := hp.sound hpiece
        exact ⟨u, r, hs, Or.inr hu, hk.trans h⟩
  complete {k u r} hu h := by
    rcases hu with rfl | hu
    · exact isSome_optionally h
    · obtain ⟨b, hb⟩ := Option.isSome_iff_exists.mp (hp.complete hu h)
      rw [optionally_of_eq_some hb]
      rfl

theorem isSome_firstOf {way : Reading β} {ways : List (Reading β)} (hway : way ∈ ways)
    {s : List Char} (h : (way s).isSome = true) : (firstOf ways s).isSome = true := by
  rw [firstOf, List.findSome?_isSome_iff]
  exact ⟨way, hway, h⟩

theorem Reads.either (hp : Reads p P) (hq : Reads q Q) :
    Reads (fun k => firstOf [p k, q k]) fun s => P s ∨ Q s where
  sound h := by
    rcases firstOf_pair_eq_some h with h | h
    · obtain ⟨u, r, hs, hu, hk⟩ := hp.sound h
      exact ⟨u, r, hs, Or.inl hu, hk⟩
    · obtain ⟨u, r, hs, hu, hk⟩ := hq.sound h
      exact ⟨u, r, hs, Or.inr hu, hk⟩
  complete {k u r} hu h := by
    rcases hu with hu | hu
    · exact isSome_firstOf List.mem_cons_self (hp.complete hu h)
    · exact isSome_firstOf (List.mem_cons_of_mem _ List.mem_cons_self) (hq.complete hu h)

theorem Reads.of_iff (hp : Reads p P) (h : ∀ s, P s ↔ Q s) : Reads p Q :=
  funext (fun s => propext (h s)) ▸ hp

/-- Words from two lists are words from one. -/
theorem Reads.eitherWord {l l' : List String} (hp : Reads p (Spelled l))
    (hq : Reads q (Spelled l')) : Reads (fun k => firstOf [p k, q k]) (Spelled (l ++ l')) :=
  (hp.either hq).of_iff fun _ => spelled_append.symm

theorem Reads.maybeBlanks : Reads (Text.maybeBlanks : Reading β → Reading β) AllBlank := by
  refine Reads.blanks.optionally.of_iff fun s => ⟨?_, fun h => ?_⟩
  · rintro (rfl | h)
    · exact isBlank_of_mem_nil
    · exact h.2
  · by_cases hne : s = []
    · exact Or.inl hne
    · exact Or.inr ⟨hne, h⟩

/-- **A phrase up to the end of a text reads its own texts.** -/
theorem Reads.isSome_stop_iff (hp : Reads p P) {b : β} {s : List Char} :
    (p (stop b) s).isSome = true ↔ P s := by
  constructor
  · intro h
    obtain ⟨b', hb'⟩ := Option.isSome_iff_exists.mp h
    obtain ⟨u, r, rfl, hu, hstop⟩ := hp.sound hb'
    cases r with
    | nil => exact (List.append_nil u).symm ▸ hu
    | cons c r => cases hstop
  · intro hs
    have hread := hp.complete (k := stop b) (r := []) hs rfl
    rwa [List.append_nil] at hread

/-! ### Where a piece ends -/

/-- All characters of the texts of `P` are of class `f`. -/
def Within (f : Char → Bool) (P : List Char → Prop) : Prop :=
  ∀ s, P s → ∀ c ∈ s, f c = true

section

variable {f : Char → Bool}

theorem Within.joined (hP : Within f P) (hQ : Within f Q) : Within f (Joined P Q) := by
  rintro _ ⟨u, v, rfl, hu, hv⟩
  exact List.forall_mem_append.mpr ⟨hP u hu, hQ v hv⟩

theorem Within.maybe (hP : Within f P) : Within f (Maybe P) := by
  rintro s (rfl | hs)
  · exact List.forall_mem_nil _
  · exact hP s hs

theorem Within.gap (h : ∀ c, isBlank c = true → f c = true) : Within f IsGap :=
  fun _ hs c hc => h c (hs.2 c hc)

theorem Within.allBlank (h : ∀ c, isBlank c = true → f c = true) : Within f AllBlank :=
  fun _ hs c hc => h c (hs c hc)

theorem Within.spelled {l : List String} (h : ∀ word ∈ l, ∀ c, fold c ∈ word.toList → f c = true) :
    Within f (Spelled l) := by
  rintro s ⟨word, hword, hfold⟩ c hc
  refine h word hword c ?_
  rw [← hfold]
  exact List.mem_map_of_mem hc

theorem Within.char {c : Char} (h : f c = true) : Within f (· = [c]) := by
  rintro _ rfl d hd
  rwa [List.mem_singleton.mp hd]

/-- A text is cut in one way only at the first character outside a class. -/
theorem append_eq_append_of_stop {u u' r r' : List Char} (hu : ∀ c ∈ u, f c = true)
    (hu' : ∀ c ∈ u', f c = true) (hr : ∀ c ∈ r.head?, f c = false)
    (hr' : ∀ c ∈ r'.head?, f c = false) (h : u ++ r = u' ++ r') : u = u' ∧ r = r' := by
  obtain ⟨htake, hdrop⟩ := takeWhile_append_of_stop hu hr
  obtain ⟨htake', hdrop'⟩ := takeWhile_append_of_stop hu' hr'
  exact ⟨by rw [← htake, h, htake'], by rw [← hdrop, h, hdrop']⟩

/-- The reading begins outside the class `f`, or at the end of the text. -/
def BeginsOutside (f : Char → Bool) (k : Reading β) : Prop :=
  ∀ r b, k r = some b → ∀ c ∈ r.head?, f c = false

/-- **A piece ends where the class of its characters does.** -/
theorem Reads.eq_some_iff (hp : Reads p P) (hP : Within f P) {k : Reading β}
    (hk : BeginsOutside f k) {s : List Char} {b : β} :
    p k s = some b ↔ ∃ u r, s = u ++ r ∧ P u ∧ k r = some b := by
  refine ⟨hp.sound, ?_⟩
  rintro ⟨u, r, rfl, hu, hr⟩
  obtain ⟨b', hb'⟩ := Option.isSome_iff_exists.mp (hp.complete hu (Option.isSome_of_eq_some hr))
  obtain ⟨u', r', hsplit, hu', hr'⟩ := hp.sound hb'
  obtain ⟨-, rfl⟩ := append_eq_append_of_stop (hP u hu) (hP u' hu') (hk r b hr) (hk r' b' hr') hsplit
  rw [hb', ← hr', hr]

end

/-- The reading begins with a character of class `f`. -/
def BeginsWithin (f : Char → Bool) (k : Reading β) : Prop :=
  ∀ r b, k r = some b → ∃ c v, r = c :: v ∧ f c = true

theorem BeginsWithin.beginsOutside {f g : Char → Bool} {k : Reading β} (h : BeginsWithin f k)
    (hf : ∀ c, f c = true → g c = false) : BeginsOutside g k := by
  intro r b hr c hc
  obtain ⟨d, v, rfl, hd⟩ := h r b hr
  obtain rfl := Option.some.inj hc
  exact hf _ hd

theorem BeginsWithin.mono {f g : Char → Bool} {k : Reading β} (h : BeginsWithin f k)
    (hf : ∀ c, f c = true → g c = true) : BeginsWithin g k := by
  intro r b hr
  obtain ⟨d, v, hs, hd⟩ := h r b hr
  exact ⟨d, v, hs, hf d hd⟩

theorem beginsWithin_char (c : Char) (k : Reading β) : BeginsWithin (· = c) (char c k) := by
  intro r b h
  obtain ⟨v, rfl, -⟩ := char_eq_some h
  exact ⟨c, v, rfl, decide_eq_true rfl⟩

theorem beginsWithin_maybeBlanks {f : Char → Bool} {k : Reading β} (hk : BeginsWithin f k)
    (hblank : ∀ c, isBlank c = true → f c = true) : BeginsWithin f (maybeBlanks k) := by
  intro r b h
  obtain ⟨ws, v, hws, rfl, hv⟩ := maybeBlanks_eq_some h
  cases ws with
  | nil => exact hk v b hv
  | cons c ws => exact ⟨c, ws ++ v, rfl, hblank c (hws c List.mem_cons_self)⟩

/-! ### Pieces that can be taken in one way only -/

theorem stop_eq_some_iff {s : List Char} {b b' : β} : stop b s = some b' ↔ s = [] ∧ b = b' := by
  cases s with
  | nil => simp [stop]
  | cons c s => simp [stop]

theorem beginsOutside_stop (f : Char → Bool) (b : β) : BeginsOutside f (stop b) := by
  intro r b' h c hc
  obtain ⟨rfl, -⟩ := stop_eq_some_iff.mp h
  cases hc

theorem char_eq_some_iff {c : Char} {k : Reading β} {s : List Char} {b : β} :
    char c k s = some b ↔ ∃ r, s = c :: r ∧ k r = some b := by
  refine ⟨char_eq_some, ?_⟩
  rintro ⟨r, rfl, hr⟩
  rw [char_cons, hr]

theorem keyword_eq_some_iff {word : String} {k : Reading β} {s : List Char} {b : β} :
    keyword word k s = some b ↔
      ∃ u r, s = u ++ r ∧ Spelled [word] u ∧ k r = some b := by
  refine ⟨(Reads.keyword word).sound, ?_⟩
  rintro ⟨u, r, rfl, ⟨word', hword, hfold⟩, hk⟩
  obtain rfl := List.mem_singleton.mp hword
  rw [keyword_append hfold, hk]

/-- Of words none of which begins another one, only one can be taken. -/
theorem keywordAmong_eq_some_iff_of_prefixFree {l : List String}
    (hl : ∀ w ∈ l, ∀ w' ∈ l, w.toList <+: w'.toList → w = w') {k : Reading β} {s : List Char}
    {b : β} : keywordAmong l (fun _ => k) s = some b ↔
      ∃ u r, s = u ++ r ∧ Spelled l u ∧ k r = some b := by
  refine ⟨(Reads.keywordAmong l).sound, ?_⟩
  rintro ⟨u, r, rfl, ⟨w, hw, hfold⟩, hr⟩
  obtain ⟨b', hb'⟩ := Option.isSome_iff_exists.mp
    ((Reads.keywordAmong l).complete ⟨w, hw, hfold⟩ (Option.isSome_of_eq_some hr))
  obtain ⟨u', r', hsplit, ⟨w', hw', hfold'⟩, hr'⟩ := (Reads.keywordAmong l).sound hb'
  have hsame : w = w' := by
    have hbegin : u' <+: u ++ r := ⟨r', hsplit.symm⟩
    rcases List.prefix_or_prefix_of_prefix (List.prefix_append u r) hbegin with hfirst | hfirst
    · exact hl w hw w' hw' (hfold ▸ hfold' ▸ hfirst.map fold)
    · exact (hl w' hw' w hw (hfold ▸ hfold' ▸ hfirst.map fold)).symm
  have hlength : u.length = u'.length := by
    rw [← List.length_map (f := fold), hfold, hsame, ← hfold', List.length_map]
  rw [hb', ← hr', ← (List.append_inj hsplit hlength).2, hr]

theorem run_eq_some_iff {f : Char → Bool} {size : Nat → Bool} {k : List Char → Reading β}
    (hk : ∀ ds, BeginsOutside f (k ds)) {s : List Char} {b : β} :
    run f size k s = some b ↔ ∃ ds r, s = ds ++ r ∧ size ds.length = true ∧
      (∀ c ∈ ds, f c = true) ∧ k ds r = some b := by
  constructor
  · intro h
    rw [run] at h
    split at h
    · next hsize =>
        exact ⟨_, _, List.takeWhile_append_dropWhile.symm, hsize,
          fun c hc => List.mem_takeWhile_imp hc, h⟩
    · cases h
  · rintro ⟨ds, r, rfl, hsize, hds, hr⟩
    rw [run_append hds hsize (hk ds r b hr), hr]

theorem digits_eq_some_iff {least most : Nat} {k : List Char → Reading β}
    (hk : ∀ ds, BeginsOutside isDecimalDigit (k ds)) {s : List Char} {b : β} :
    digits least most k s = some b ↔ ∃ ds r, s = ds ++ r ∧
      (least ≤ ds.length ∧ ds.length ≤ most) ∧ (∀ c ∈ ds, isDecimalDigit c = true) ∧
      k ds r = some b := by
  simp only [digits, run_eq_some_iff hk, Bool.and_eq_true, decide_eq_true_eq]

/-- A numeral is taken as a whole where the reading behind it begins with something else. -/
theorem numeral_eq_some_iff {least most : Nat} {f : Char → Bool} {k : List Char → Reading β}
    (hk : ∀ ds, BeginsWithin f (k ds)) (hf : ∀ c, f c = true → isDecimalDigit c = false ∧ c ≠ '.')
    {s : List Char} {b : β} : numeral least most k s = some b ↔
      ∃ ds r, s = ds ++ r ∧ IsNumeral least most ds ∧ k ds r = some b := by
  refine ⟨numeral_eq_some, ?_⟩
  rintro ⟨ds, r, rfl, hds, hr⟩
  obtain ⟨c, v, rfl, hc⟩ := hk ds r b hr
  rw [numeral_append hds (hf c hc).1 (hf c hc).2, hr]

theorem skipsNoBlank_digits {least most : Nat} (hleast : 0 < least)
    (k : List Char → Reading β) : SkipsNoBlank (digits least most k) := by
  intro c s hc
  have hstop : ∀ d ∈ (c :: s).head?, isDecimalDigit d = false := by
    intro d hd
    obtain rfl := Option.some.inj hd
    exact isDecimalDigit_of_isBlank hc
  exact digits_eq_none (List.forall_mem_nil _) hstop k (Or.inl hleast)

theorem skipsNoBlank_keywordAmong {l : List String}
    (hl : ∀ w ∈ l, w.toList.head?.any (!isBlank ·) = true) (k : Reading β) :
    SkipsNoBlank (keywordAmong l fun _ => k) := by
  intro c s hc
  rw [Option.eq_none_iff_forall_ne_some]
  intro b h
  obtain ⟨u, r, hs, hu, -⟩ := (Reads.keywordAmong l).sound h
  obtain ⟨d, u, rfl, hd⟩ := hu.exists_cons hl
  obtain ⟨rfl, -⟩ := List.cons.inj hs
  rw [fold_of_isBlank hc, hc] at hd
  cases hd

theorem maybeBlanks_eq_some_iff {k : Reading β} (hk : SkipsNoBlank k) {s : List Char} {b : β} :
    maybeBlanks k s = some b ↔ ∃ ws r, s = ws ++ r ∧ AllBlank ws ∧ k r = some b := by
  refine Reads.maybeBlanks.eq_some_iff (.allBlank fun _ hc => hc) fun r b hr c hc => ?_
  obtain ⟨r, rfl⟩ := List.head?_eq_some_iff.mp hc
  rw [Bool.eq_false_iff]
  intro hblank
  rw [hk c r hblank] at hr
  cases hr

end Composer.Text
