import Composer.Proofs.Text.Reading
import Composer.Proofs.Text.Trim
import Composer.Proofs.Text.Words
/-!
# Composer.Proofs.Text.Phrase

**Readings of texts put together.** Where a piece of a phrase is followed by a character that cannot
belong to it, the reading of the piece takes all of it and goes on behind it, whatever the rest of
the text is. There is one equation for every kind of piece.
-/

namespace Composer.Text

variable {β : Type}

/-! ### Words -/

theorem afterWord_append {word taken : List Char} (h : taken.map fold = word) (r : List Char) :
    afterWord word (taken ++ r) = some (taken, r) := by
  induction taken generalizing word with
  | nil =>
      subst h
      rfl
  | cons c taken ih =>
      subst h
      rw [List.map_cons, List.cons_append, afterWord, if_pos rfl, ih rfl]
      rfl

/-- A word is read in any letter case. -/
theorem keyword_append {word : String} {taken : List Char} (h : taken.map fold = word.toList)
    (k : Reading β) (r : List Char) : keyword word k (taken ++ r) = k r := by
  rw [keyword, afterWord_append h]
  rfl

theorem keywordAmong_append {word : String} {taken r : List Char}
    (h : taken.map fold = word.toList) {k : List Char → Reading β} {b : β}
    (hk : k taken r = some b) (wordList : List String) :
    keywordAmong (word :: wordList) k (taken ++ r) = some b := by
  rw [keywordAmong, List.findSome?_cons, afterWord_append h]
  simp only [Option.bind_some, hk]

/-- A word begins with its first letter. -/
theorem keyword_cons_of_ne {word : String} {c d : Char} (hword : word.toList.head? = some d)
    (h : fold c ≠ d) (k : Reading β) (s : List Char) : keyword word k (c :: s) = none := by
  obtain ⟨w, hw⟩ := List.head?_eq_some_iff.mp hword
  rw [keyword, hw, afterWord, if_neg h]
  rfl

theorem keyword_eq_some {word : String} {k : Reading β} {s : List Char} {b : β}
    (h : keyword word k s = some b) :
    ∃ taken r, s = taken ++ r ∧ taken.map fold = word.toList ∧ k r = some b := by
  obtain ⟨⟨taken, r⟩, hafter, hk⟩ := Option.bind_eq_some_iff.mp h
  obtain ⟨hs, hfold⟩ := afterWord_eq_some hafter
  exact ⟨taken, r, hs, hfold, hk⟩

theorem keywordAmong_eq_some {wordList : List String} {k : List Char → Reading β} {s : List Char}
    {b : β} (h : keywordAmong wordList k s = some b) :
    ∃ word ∈ wordList, ∃ taken r, s = taken ++ r ∧ taken.map fold = word.toList ∧
      k taken r = some b := by
  obtain ⟨word, hword, hread⟩ := List.exists_of_findSome?_eq_some h
  obtain ⟨⟨taken, r⟩, hafter, hk⟩ := Option.bind_eq_some_iff.mp hread
  obtain ⟨hs, hfold⟩ := afterWord_eq_some hafter
  exact ⟨word, hword, taken, r, hs, hfold, hk⟩

theorem char_eq_some {c : Char} {k : Reading β} {s : List Char} {b : β}
    (h : char c k s = some b) : ∃ r, s = c :: r ∧ k r = some b := by
  cases s with
  | nil => cases h
  | cons d s =>
      rw [char] at h
      split at h
      · next hd => exact ⟨s, congrArg (· :: s) hd, h⟩
      · cases h

theorem char_cons (c : Char) (k : Reading β) (s : List Char) : char c k (c :: s) = k s :=
  if_pos rfl

theorem char_cons_of_ne {c d : Char} (h : d ≠ c) (k : Reading β) (s : List Char) :
    char c k (d :: s) = none :=
  if_neg h

theorem char_of_head?_ne {c : Char} {s : List Char} (h : ∀ d ∈ s.head?, d ≠ c) (k : Reading β) :
    char c k s = none := by
  cases s with
  | nil => rfl
  | cons d s => exact char_cons_of_ne (h d rfl) k s

/-- A word that begins otherwise is passed over. -/
theorem keywordAmong_cons_of_ne {word : String} {c d : Char} (hword : word.toList.head? = some d)
    (h : fold c ≠ d) (k : List Char → Reading β) (wordList : List String) (s : List Char) :
    keywordAmong (word :: wordList) k (c :: s) = keywordAmong wordList k (c :: s) := by
  obtain ⟨w, hw⟩ := List.head?_eq_some_iff.mp hword
  rw [keywordAmong, List.findSome?_cons, hw, afterWord, if_neg h]
  rfl

/-- Nor is another word read that begins otherwise. -/
theorem keyword_append_of_not_prefix {word : String} {s : List Char}
    (hlonger : ¬ word.toList <+: s.map fold) (hshorter : ¬ s.map fold <+: word.toList) (k : Reading β)
    (r : List Char) : keyword word k (s ++ r) = none := by
  rw [Option.eq_none_iff_forall_ne_some]
  intro b h
  obtain ⟨taken, rest, hsplit, hfold, -⟩ := keyword_eq_some h
  have htaken : taken <+: s ++ r := ⟨rest, hsplit.symm⟩
  rcases List.prefix_or_prefix_of_prefix htaken (List.prefix_append s r) with hprefix | hprefix
  · exact hlonger (hfold ▸ hprefix.map fold)
  · exact hshorter (hfold ▸ hprefix.map fold)

/-- Nor does it begin with what is no letter. -/
theorem keyword_of_not_isKeywordLetter {word : String} {d : Char}
    (hword : word.toList.head? = some d) (hd : isKeywordLetter d = true) {s : List Char}
    (hs : ∀ c ∈ s.head?, isKeywordLetter c = false) (k : Reading β) : keyword word k s = none := by
  cases s with
  | nil =>
      obtain ⟨w, hw⟩ := List.head?_eq_some_iff.mp hword
      rw [keyword, hw]
      rfl
  | cons c s =>
      have hc : isKeywordLetter c = false := hs c rfl
      refine keyword_cons_of_ne hword ?_ k s
      rw [fold_of_not_isKeywordLetter hc]
      rintro rfl
      rw [hd] at hc
      cases hc

theorem keywordAmong_of_not_isKeywordLetter {wordList : List String}
    (hwords : ∀ word ∈ wordList, word.toList.head?.any isKeywordLetter = true) {c : Char}
    (hc : isKeywordLetter c = false) (k : List Char → Reading β) (s : List Char) :
    keywordAmong wordList k (c :: s) = none := by
  induction wordList with
  | nil => rfl
  | cons word wordList ih =>
      obtain ⟨hword, hwords⟩ := List.forall_mem_cons.mp hwords
      obtain ⟨d, hhead, hd⟩ := (Option.any_eq_true _ _).mp hword
      have hne : fold c ≠ d := by
        rw [fold_of_not_isKeywordLetter hc]
        rintro rfl
        rw [hd] at hc
        cases hc
      rw [keywordAmong_cons_of_ne hhead hne, ih hwords]

/-! ### Several ways -/

theorem firstOf_of_eq_some {way : Reading β} {s : List Char} {b : β} (h : way s = some b)
    (ways : List (Reading β)) : firstOf (way :: ways) s = some b := by
  rw [firstOf, List.findSome?_cons, h]

theorem firstOf_of_eq_none {way : Reading β} {s : List Char} (h : way s = none)
    (ways : List (Reading β)) : firstOf (way :: ways) s = firstOf ways s := by
  rw [firstOf, List.findSome?_cons, h]
  rfl

theorem firstOf_of_rest_eq_none {ways : List (Reading β)} {s : List Char}
    (h : firstOf ways s = none) (way : Reading β) : firstOf (way :: ways) s = way s := by
  cases hway : way s with
  | none => rw [firstOf_of_eq_none hway, h]
  | some b => exact firstOf_of_eq_some hway ways

theorem firstOf_eq_some {ways : List (Reading β)} {s : List Char} {b : β}
    (h : firstOf ways s = some b) : ∃ way ∈ ways, way s = some b :=
  List.exists_of_findSome?_eq_some h

theorem firstOf_pair_eq_some {way way' : Reading β} {s : List Char} {b : β}
    (h : firstOf [way, way'] s = some b) : way s = some b ∨ way' s = some b := by
  obtain ⟨taken, htaken, hread⟩ := firstOf_eq_some h
  rw [List.mem_cons, List.mem_singleton] at htaken
  rcases htaken with rfl | rfl
  · exact Or.inl hread
  · exact Or.inr hread

theorem optionally_of_eq_some {piece : Reading β → Reading β} {k : Reading β} {s : List Char} {b : β}
    (h : piece k s = some b) : optionally piece k s = some b := by
  rw [optionally, h]
  rfl

theorem optionally_of_eq_none {piece : Reading β → Reading β} {k : Reading β} {s : List Char}
    (h : piece k s = none) : optionally piece k s = k s := by
  rw [optionally, h]
  rfl

/-! ### Blanks -/

theorem fold_of_isBlank {c : Char} (h : isBlank c = true) : fold c = c :=
  fold_of_not_isKeywordLetter (not_isKeywordLetter_of_isBlank h)

/-- The reading does not begin with a blank. -/
def SkipsNoBlank (k : Reading β) : Prop :=
  ∀ c s, isBlank c = true → k (c :: s) = none

theorem skipsNoBlank_char {c : Char} (hc : isBlank c = false) (k : Reading β) :
    SkipsNoBlank (char c k) := by
  intro d s hd
  refine char_cons_of_ne ?_ k s
  rintro rfl
  rw [hc] at hd
  cases hd

theorem skipsNoBlank_keyword {word : String} {c : Char} (hword : word.toList.head? = some c)
    (hc : isBlank c = false) (k : Reading β) : SkipsNoBlank (keyword word k) := by
  intro d s hd
  refine keyword_cons_of_ne hword ?_ k s
  rw [fold_of_isBlank hd]
  rintro rfl
  rw [hc] at hd
  cases hd

theorem blanks_of_not_isBlank {c : Char} (hc : isBlank c = false) (k : Reading β) (s : List Char) :
    blanks k (c :: s) = none :=
  if_neg (by simp [hc])

/-- Blanks are taken up to where the reading behind them begins. -/
theorem blanks_append {ws r : List Char} (hws : ∀ c ∈ ws, isBlank c = true) (hne : ws ≠ [])
    (hr : ∀ c ∈ r.head?, isBlank c = false) {k : Reading β}
    (hk : SkipsNoBlank k ∨ (k r).isSome = true) : blanks k (ws ++ r) = k r := by
  induction ws with
  | nil => exact absurd rfl hne
  | cons c ws ih =>
      obtain ⟨hc, hws⟩ := List.forall_mem_cons.mp hws
      rw [List.cons_append, blanks, if_pos hc]
      cases ws with
      | nil =>
          have hstop : blanks k r = none := by
            cases r with
            | nil => rfl
            | cons d r => exact blanks_of_not_isBlank (hr d rfl) k r
          rw [List.nil_append, hstop]
          rfl
      | cons d ws =>
          rw [ih hws (List.cons_ne_nil d ws)]
          rcases hk with hk | hk
          · rw [List.cons_append, hk d _ (hws d List.mem_cons_self)]
            cases k r <;> rfl
          · obtain ⟨b, hb⟩ := Option.isSome_iff_exists.mp hk
            rw [hb]
            rfl

theorem blanks_append_word {k : Reading β} {gap s r : List Char}
    (hgap : ∀ c ∈ gap, isBlank c = true) (hne : gap ≠ []) (hs : IsWord s)
    (hk : SkipsNoBlank k ∨ (k (s ++ r)).isSome = true) : blanks k (gap ++ (s ++ r)) = k (s ++ r) :=
  blanks_append hgap hne (hs.head?_append r) hk

theorem maybeBlanks_append {ws : List Char} (hws : ∀ c ∈ ws, isBlank c = true) {k : Reading β}
    (hk : SkipsNoBlank k) {c : Char} (hc : isBlank c = false) (r : List Char) :
    maybeBlanks k (ws ++ c :: r) = k (c :: r) := by
  cases ws with
  | nil => exact optionally_of_eq_none (blanks_of_not_isBlank hc k r)
  | cons d ws =>
      have hd : k (d :: ws ++ c :: r) = none := hk d _ (hws d List.mem_cons_self)
      have hhead : ∀ e ∈ (c :: r).head?, isBlank e = false := by
        intro e he
        obtain rfl := Option.some.inj he
        exact hc
      rw [maybeBlanks, optionally, hd, blanks_append hws (List.cons_ne_nil d ws) hhead (Or.inl hk)]
      cases k (c :: r) <;> rfl

theorem maybeBlanks_append_word {ws s : List Char} (hws : ∀ c ∈ ws, isBlank c = true)
    (hs : IsWord s) {k : Reading β} (hk : SkipsNoBlank k) (r : List Char) :
    maybeBlanks k (ws ++ (s ++ r)) = k (s ++ r) := by
  obtain ⟨c, s, rfl⟩ := List.exists_cons_of_ne_nil hs.1
  exact maybeBlanks_append hws hk (hs.2 c List.mem_cons_self) (s ++ r)

theorem maybeBlanks_append_of_isSome {ws r : List Char} (hws : ∀ c ∈ ws, isBlank c = true)
    (hr : ∀ c ∈ r.head?, isBlank c = false) {k : Reading β} (hk : (k r).isSome = true) :
    maybeBlanks k (ws ++ r) = k r := by
  have hnone : blanks k r = none := by
    cases r with
    | nil => rfl
    | cons c r => exact blanks_of_not_isBlank (hr c rfl) k r
  by_cases hne : ws = []
  · subst hne
    exact optionally_of_eq_none hnone
  · obtain ⟨b, hb⟩ := Option.isSome_iff_exists.mp hk
    rw [hb]
    exact optionally_of_eq_some ((blanks_append hws hne hr (Or.inr hk)).trans hb)

theorem maybeBlanks_eq_some {k : Reading β} {s : List Char} {b : β}
    (h : maybeBlanks k s = some b) :
    ∃ ws r, (∀ c ∈ ws, isBlank c = true) ∧ s = ws ++ r ∧ k r = some b := by
  rw [maybeBlanks, optionally, Option.orElse_eq_orElse, Option.orElse_eq_or,
    Option.or_eq_some_iff] at h
  rcases h with h | ⟨-, h⟩
  · obtain ⟨ws, r, hws, -, hs, hk⟩ := blanks_eq_some h
    exact ⟨ws, r, hws, hs, hk⟩
  · exact ⟨[], s, by simp, rfl, h⟩

/-! ### Lines -/

theorem lineToEnd_of_not_mem {k : List Char → Option β} {c : Char} {r : List Char}
    (h : '\n' ∉ c :: r) : lineToEnd k (c :: r) = k (c :: r) := by
  rw [lineToEnd, if_neg (by simpa using h), textToEnd]

theorem lineToEnd_eq_some {k : List Char → Option β} {s : List Char} {b : β}
    (h : lineToEnd k s = some b) : '\n' ∉ s ∧ s ≠ [] ∧ k s = some b := by
  rw [lineToEnd] at h
  split at h
  · cases h
  · next hline =>
      cases s with
      | nil => cases h
      | cons c s => exact ⟨by simpa using hline, List.cons_ne_nil c s, h⟩

/-- Blanks before a line are all taken, unless the text ends in blanks. -/
theorem blanks_lineToEnd_eq_some {f : List Char → β} {s : List Char} {b : β}
    (h : blanks (lineToEnd fun line => some (f line)) s = some b)
    (hlast : ∀ c ∈ s.getLast?, isBlank c = false) :
    ∃ ws c r, (∀ d ∈ ws, isBlank d = true) ∧ ws ≠ [] ∧ s = ws ++ c :: r ∧ isBlank c = false ∧
      '\n' ∉ c :: r ∧ b = f (c :: r) := by
  obtain ⟨ws, line, hws, hne, rfl, hk⟩ := blanks_eq_some h
  obtain ⟨hline, -, -⟩ := lineToEnd_eq_some hk
  obtain ⟨ws', c, r, rfl, hws', hc⟩ := exists_first (not_forall_isBlank_of_append hws hne hlast)
  have hgap : ∀ d ∈ ws ++ ws', isBlank d = true := List.forall_mem_append.mpr ⟨hws, hws'⟩
  have hrest : '\n' ∉ c :: r := fun hmem => hline (List.mem_append_right ws' hmem)
  have hbase : lineToEnd (fun line => some (f line)) (c :: r) = some (f (c :: r)) :=
    lineToEnd_of_not_mem hrest
  refine ⟨ws ++ ws', c, r, hgap, by simp [hne], (List.append_assoc _ _ _).symm, hc, hrest, ?_⟩
  rw [← List.append_assoc, blanks_append hgap (by simp [hne]) (by simpa using hc)
    (Or.inr (by rw [hbase]; rfl)), hbase] at h
  exact (Option.some.inj h).symm

/-- A line behind blanks, or the end of the text. -/
def lineAtEnd : Reading (Option (List Char)) :=
  firstOf [blanks <| lineToEnd fun line => some (some line), stop none]

theorem lineAtEnd_append {ws line : List Char} (hws : ∀ c ∈ ws, isBlank c = true) (hne : ws ≠ [])
    {c : Char} (hc : line.head? = some c) (hblank : isBlank c = false) (hline : '\n' ∉ line) :
    lineAtEnd (ws ++ line) = some (some line) := by
  obtain ⟨r, rfl⟩ := List.head?_eq_some_iff.mp hc
  have hread : lineToEnd (fun line => some (some line)) (c :: r) = some (some (c :: r)) :=
    lineToEnd_of_not_mem hline
  refine firstOf_of_eq_some ?_ _
  rw [blanks_append hws hne (by simpa using hblank) (Or.inr (by rw [hread]; rfl)), hread]

/-- It begins with a blank, if there is anything. -/
theorem lineAtEnd_eq_some {s : List Char} {b : Option (List Char)} (h : lineAtEnd s = some b) :
    ∀ c ∈ s.head?, isBlank c = true := by
  intro c hc
  obtain ⟨r, rfl⟩ := List.head?_eq_some_iff.mp hc
  obtain ⟨way, hway, h⟩ := firstOf_eq_some h
  simp only [List.mem_cons, List.not_mem_nil, or_false] at hway
  by_contra hblank
  rcases hway with rfl | rfl
  · rw [blanks_of_not_isBlank (by simpa using hblank)] at h
    cases h
  · cases h

/-! ### Words before what is no letter -/

/-- The reading does not go on with a letter, so that a word before it ends there. -/
def EndsWord (k : List Char → Reading β) : Prop :=
  ∀ taken r b, k taken r = some b → ∀ c ∈ r.head?, isKeywordLetter c = false

theorem endsWord_lineAtEnd : EndsWord fun _ => lineAtEnd :=
  fun _ _ _ h c hc => not_isKeywordLetter_of_isBlank (lineAtEnd_eq_some h c hc)

theorem endsWord_blanks (k : Reading β) : EndsWord fun _ => blanks k := by
  intro _ r b h c hc
  obtain ⟨ws, rest, hws, hne, rfl, -⟩ := blanks_eq_some h
  obtain ⟨d, ws, rfl⟩ := List.exists_cons_of_ne_nil hne
  obtain rfl := Option.some.inj hc
  exact not_isKeywordLetter_of_isBlank (hws _ List.mem_cons_self)

/-- All letters up to the next other character are the word. -/
theorem keywordAmong_eq_some_iff {wordList : List String}
    (hwords : ∀ word ∈ wordList, ∀ c ∈ word.toList, c.isLower = true)
    {k : List Char → Reading β} (hk : EndsWord k) {letters r : List Char}
    (hletters : ∀ c ∈ letters, isKeywordLetter c = true)
    (hr : ∀ c ∈ r.head?, isKeywordLetter c = false) {b : β} :
    keywordAmong wordList k (letters ++ r) = some b ↔
      (∃ word ∈ wordList, letters.map fold = word.toList) ∧ k letters r = some b := by
  have hread {b : β} (h : keywordAmong wordList k (letters ++ r) = some b) :
      (∃ word ∈ wordList, letters.map fold = word.toList) ∧ k letters r = some b := by
    obtain ⟨word, hword, taken, rest, hsplit, hfold, hgoes⟩ := keywordAmong_eq_some h
    have htaken : ∀ c ∈ taken, isKeywordLetter c = true := by
      intro c hc
      refine hwords word hword (fold c) ?_
      rw [← hfold]
      exact List.mem_map_of_mem hc
    obtain ⟨hfirst, hrest⟩ := takeWhile_append_of_stop hletters hr
    obtain ⟨hfirst', hrest'⟩ := takeWhile_append_of_stop htaken (hk taken rest b hgoes)
    rw [hsplit, hfirst'] at hfirst
    rw [hsplit, hrest'] at hrest
    subst hfirst hrest
    exact ⟨⟨word, hword, hfold⟩, hgoes⟩
  refine ⟨hread, ?_⟩
  rintro ⟨⟨word, hword, hfold⟩, hgoes⟩
  cases hfound : keywordAmong wordList k (letters ++ r) with
  | none =>
      have hnone := List.findSome?_eq_none_iff.mp hfound word hword
      rw [afterWord_append hfold] at hnone
      cases hnone.symm.trans hgoes
  | some b' =>
      -- Whichever word was found first, the reading behind it is the same.
      rw [← (hread hfound).2, hgoes]

/-! ### Arrows -/

theorem spellArrows_cons {c : Char} {s : List Char} (h : s.head? ≠ some '>') :
    spellArrows (c :: s) = c :: spellArrows s := by
  refine spellArrows.eq_3 c s ?_ ?_
  · intro r _ hs
    exact h (by rw [hs]; rfl)
  · intro r _ hs
    exact h (by rw [hs]; rfl)

theorem spellArrows_eq_self {s : List Char} (h : '>' ∉ s) : spellArrows s = s := by
  induction s with
  | nil => rfl
  | cons c s ih =>
      rw [List.mem_cons, not_or] at h
      rw [spellArrows_cons fun hhead => h.2 (List.mem_of_mem_head? hhead), ih h.2]

theorem spellArrows_append {s arrow : List Char} (h : '>' ∉ s)
    (harrow : arrow = "->".toList ∨ arrow = "=>".toList) (r : List Char) :
    spellArrows (s ++ (arrow ++ r)) = s ++ (" to ".toList ++ spellArrows r) := by
  induction s with
  | nil => rcases harrow with rfl | rfl <;> rfl
  | cons c s ih =>
      rw [List.mem_cons, not_or] at h
      have hhead : (s ++ (arrow ++ r)).head? ≠ some '>' := by
        cases s with
        | nil => rcases harrow with rfl | rfl <;> simp
        | cons d s =>
            intro hd
            obtain rfl := Option.some.inj hd
            exact h.2 List.mem_cons_self
      rw [List.cons_append, spellArrows_cons hhead, ih h.2, List.cons_append]

/-! ### Counted characters -/

theorem exactly_append {n : Nat} {p : Char → Bool} {taken : List Char} (hlength : taken.length = n)
    (htaken : ∀ c ∈ taken, p c = true) (k : List Char → Reading β) (r : List Char) :
    exactly n p k (taken ++ r) = k taken r := by
  rw [exactly, List.take_left' hlength, List.drop_left' hlength,
    if_pos ⟨hlength, List.all_eq_true.mpr htaken⟩]

theorem exactly_eq_some {n : Nat} {p : Char → Bool} {k : List Char → Reading β} {s : List Char}
    {b : β} (h : exactly n p k s = some b) :
    ∃ taken r, s = taken ++ r ∧ taken.length = n ∧ (∀ c ∈ taken, p c = true) ∧
      k taken r = some b := by
  rw [exactly] at h
  split at h
  · next htaken =>
      exact ⟨_, _, (List.take_append_drop n s).symm, htaken.1, List.all_eq_true.mp htaken.2, h⟩
  · cases h

/-- As few characters are taken as let the phrase go on. -/
theorem shortest_append {γ : Type} {p : Char → Bool} {tail : Reading γ} {taken r : List Char} {b : γ}
    (htaken : ∀ c ∈ taken, p c = true) (hne : taken ≠ [])
    (hfewer : ∀ u v, taken = u ++ v → u ≠ [] → v ≠ [] → tail (v ++ r) = none)
    (htail : tail r = some b) : shortest p tail (taken ++ r) = some (taken, b) := by
  induction taken with
  | nil => exact absurd rfl hne
  | cons c taken ih =>
      obtain ⟨hc, htaken⟩ := List.forall_mem_cons.mp htaken
      rw [List.cons_append, shortest, if_pos hc]
      by_cases hlast : taken = []
      · subst hlast
        rw [List.nil_append, htail]
      · have hmore : shortest p tail (taken ++ r) = some (taken, b) :=
          ih htaken hlast fun u v huv _ hv =>
            hfewer (c :: u) v (congrArg (c :: ·) huv) (List.cons_ne_nil c u) hv
        rw [hfewer [c] taken rfl (List.cons_ne_nil c []) hlast, hmore]
        rfl

/-- A character at least is taken. -/
theorem ne_nil_of_shortest {γ : Type} {p : Char → Bool} {tail : Reading γ} {s taken : List Char}
    {b : γ} (h : shortest p tail s = some (taken, b)) : taken ≠ [] := by
  cases s with
  | nil => cases h
  | cons c s =>
      rw [shortest] at h
      split at h
      · split at h
        · obtain ⟨rfl, -⟩ := Prod.mk.inj (Option.some.inj h)
          exact List.cons_ne_nil c []
        · obtain ⟨⟨taken', b'⟩, -, heq⟩ := Option.map_eq_some_iff.mp h
          obtain ⟨rfl, -⟩ := Prod.mk.inj heq
          exact List.cons_ne_nil c taken'
      · cases h

/-! ### Some way to go on

A phrase is read if there is any way to take its pieces, whichever way is tried first. -/

theorem isSome_keywordAmong {wordList : List String} {word : String} (hword : word ∈ wordList)
    {taken r : List Char} (htaken : taken.map fold = word.toList) {k : List Char → Reading β}
    (h : (k taken r).isSome = true) : (keywordAmong wordList k (taken ++ r)).isSome = true := by
  rw [keywordAmong, List.findSome?_isSome_iff]
  exact ⟨word, hword, by rw [afterWord_append htaken]; exact h⟩

theorem isSome_optionally {piece : Reading β → Reading β} {k : Reading β} {s : List Char}
    (h : (k s).isSome = true) : (optionally piece k s).isSome = true := by
  rw [optionally, Option.orElse_eq_orElse, Option.orElse_eq_or, Option.isSome_or, h, Bool.or_true]

theorem isSome_blanks {k : Reading β} {ws r : List Char} (hws : ∀ c ∈ ws, isBlank c = true)
    (hne : ws ≠ []) (h : (k r).isSome = true) : (blanks k (ws ++ r)).isSome = true := by
  induction ws with
  | nil => exact absurd rfl hne
  | cons c ws ih =>
      obtain ⟨hc, hws⟩ := List.forall_mem_cons.mp hws
      rw [List.cons_append, blanks, if_pos hc, Option.orElse_eq_orElse, Option.orElse_eq_or,
        Option.isSome_or]
      by_cases hlast : ws = []
      · rw [hlast, List.nil_append, h, Bool.or_true]
      · rw [ih hws hlast, Bool.true_or]

theorem isSome_shortest {γ : Type} {p : Char → Bool} {tail : Reading γ} {taken r : List Char}
    (htaken : ∀ c ∈ taken, p c = true) (hne : taken ≠ []) (h : (tail r).isSome = true) :
    (shortest p tail (taken ++ r)).isSome = true := by
  induction taken with
  | nil => exact absurd rfl hne
  | cons c taken ih =>
      obtain ⟨hc, htaken⟩ := List.forall_mem_cons.mp htaken
      rw [List.cons_append, shortest, if_pos hc]
      split
      · rfl
      · next hnone =>
          rw [Option.isSome_map]
          refine ih htaken fun hlast => ?_
          rw [hlast, List.nil_append] at hnone
          rw [hnone] at h
          cases h

/-! ### Digits -/

theorem run_append {p : Char → Bool} {size : Nat → Bool} {ds r : List Char}
    (hds : ∀ c ∈ ds, p c = true) (hsize : size ds.length = true) (hr : ∀ c ∈ r.head?, p c = false)
    (k : List Char → Reading β) : run p size k (ds ++ r) = k ds r := by
  obtain ⟨htake, hdrop⟩ := takeWhile_append_of_stop hds hr
  rw [run, htake, hdrop, if_pos hsize]

theorem digits_eq_some {least most : Nat} {k : List Char → Reading β} {s : List Char} {b : β}
    (h : digits least most k s = some b) :
    ∃ ds r, s = ds ++ r ∧ (least ≤ ds.length ∧ ds.length ≤ most) ∧
      (∀ c ∈ ds, isDecimalDigit c = true) ∧ k ds r = some b := by
  rw [digits, run] at h
  split at h
  · next hsize =>
      rw [Bool.and_eq_true, decide_eq_true_eq, decide_eq_true_eq] at hsize
      exact ⟨_, _, List.takeWhile_append_dropWhile.symm, hsize, fun c hc =>
        List.mem_takeWhile_imp hc, h⟩
  · cases h

section

variable {least most : Nat} {ds r : List Char} (hds : ∀ c ∈ ds, isDecimalDigit c = true)
  (hr : ∀ c ∈ r.head?, isDecimalDigit c = false) (k : List Char → Reading β)
include hds hr

theorem digits_append (hsize : least ≤ ds.length ∧ ds.length ≤ most) :
    digits least most k (ds ++ r) = k ds r :=
  run_append hds (by simp [hsize]) hr k

/-- Nothing is read if there are too few digits or too many. -/
theorem digits_eq_none (hsize : ds.length < least ∨ most < ds.length) :
    digits least most k (ds ++ r) = none := by
  obtain ⟨htake, -⟩ := takeWhile_append_of_stop hds hr
  rw [digits, run, htake, if_neg]
  rw [Bool.and_eq_true, decide_eq_true_eq, decide_eq_true_eq]
  omega

end

/-- No letter is a digit of any script, -/
theorem not_isDecimalDigit_of_isKeywordLetter {c : Char} (h : isKeywordLetter c = true) :
    isDecimalDigit c = false := by
  rw [Bool.eq_false_iff]
  intro hdigit
  have hnumber := (of_isKeywordLetter h).2.2
  rw [inNumber_of_isDecimalDigit hdigit] at hnumber
  cases hnumber

theorem not_isKeywordLetter_of_isDecimalDigit {c : Char} (h : isDecimalDigit c = true) :
    isKeywordLetter c = false := by
  rw [Bool.eq_false_iff]
  intro hletter
  rw [not_isDecimalDigit_of_isKeywordLetter hletter] at h
  cases h

/-- and no digit is a blank. -/
theorem not_isBlank_of_isDecimalDigit {c : Char} (h : isDecimalDigit c = true) :
    isBlank c = false := by
  rw [Bool.eq_false_iff]
  intro hblank
  rw [isDecimalDigit_of_isBlank hblank] at h
  cases h

theorem isDigit_of_natural? {ds : List Char} {n : Nat} (h : natural? ds = some n) :
    ds ≠ [] ∧ ∀ c ∈ ds, c.isDigit = true := by
  rw [natural?] at h
  split at h
  · cases h
  · next hdigits =>
      rw [Bool.or_eq_true, not_or, Bool.not_eq_true, Bool.not_eq_true, Bool.not_eq_eq_eq_not,
        Bool.not_false, List.all_eq_true] at hdigits
      exact ⟨fun hnil => by simp [hnil] at hdigits, hdigits.2⟩

theorem natural?_eq_some {ds : List Char} {n : Nat} (h : natural? ds = some n) :
    ds ≠ [] ∧ ∀ c ∈ ds, isDecimalDigit c = true := by
  obtain ⟨hne, hdigits⟩ := isDigit_of_natural? h
  refine ⟨hne, fun c hc => ?_⟩
  rw [isDecimalDigit, hdigits c hc, Bool.true_or]

/-- What a numeral looks like. -/
inductive IsNumeral (least most : Nat) : List Char → Prop where
  /-- Digits alone. -/
  | whole {ds : List Char} (digits : ∀ c ∈ ds, isDecimalDigit c = true)
      (size : least ≤ ds.length ∧ ds.length ≤ most) : IsNumeral least most ds
  /-- Digits, a point and more digits. -/
  | point {ds part : List Char} (digits : ∀ c ∈ ds, isDecimalDigit c = true)
      (size : least ≤ ds.length ∧ ds.length ≤ most)
      (behind : ∀ c ∈ part, isDecimalDigit c = true) (some_ : part ≠ []) :
      IsNumeral least most (ds ++ '.' :: part)

/-- Only the length limits how many digits there are. -/
theorem IsNumeral.of_length_le {least most most' : Nat} {ds : List Char}
    (h : IsNumeral least most ds) (hmost : ds.length ≤ most') : IsNumeral least most' ds := by
  cases h with
  | whole hds hsize => exact .whole hds ⟨hsize.1, hmost⟩
  | point hds hsize hpart hne =>
      rw [List.length_append] at hmost
      exact .point hds ⟨hsize.1, by omega⟩ hpart hne

theorem IsNumeral.exists_cons {least most : Nat} (hleast : 0 < least) {ds : List Char}
    (h : IsNumeral least most ds) : ∃ d r, ds = d :: r ∧ isDecimalDigit d = true := by
  have hcons {ds : List Char} (hds : ∀ c ∈ ds, isDecimalDigit c = true)
      (hlength : least ≤ ds.length) : ∃ d r, ds = d :: r ∧ isDecimalDigit d = true := by
    obtain ⟨d, r, rfl⟩ := List.exists_cons_of_length_pos (hleast.trans_le hlength)
    exact ⟨d, r, rfl, hds d List.mem_cons_self⟩
  cases h with
  | whole hds hsize => exact hcons hds hsize.1
  | point hds hsize =>
      obtain ⟨d, r, rfl, hd⟩ := hcons hds hsize.1
      exact ⟨d, _, rfl, hd⟩

theorem IsNumeral.inNumber {least most : Nat} {ds : List Char} (h : IsNumeral least most ds) :
    ∀ c ∈ ds, inNumber c = true := by
  cases h with
  | whole hds => exact fun c hc => inNumber_of_isDecimalDigit (hds c hc)
  | point hds _ hpart =>
      intro c hc
      rcases List.mem_append.mp hc with hc | hc
      · exact inNumber_of_isDecimalDigit (hds c hc)
      · rcases List.mem_cons.mp hc with rfl | hc
        · rfl
        · exact inNumber_of_isDecimalDigit (hpart c hc)

theorem numeral_eq_some {least most : Nat} {k : List Char → Reading β} {s : List Char} {b : β}
    (h : numeral least most k s = some b) :
    ∃ ds r, s = ds ++ r ∧ IsNumeral least most ds ∧ k ds r = some b := by
  rw [numeral, digits, run] at h
  split at h
  · next hsize =>
    rw [Bool.and_eq_true, decide_eq_true_eq, decide_eq_true_eq] at hsize
    have hwhole : ∀ c ∈ s.takeWhile isDecimalDigit, isDecimalDigit c = true := fun c hc =>
      List.mem_takeWhile_imp hc
    have hsplit := List.takeWhile_append_dropWhile (p := isDecimalDigit) (l := s)
    split at h
    · next r hpoint =>
      split at h
      · cases h
      · next hne =>
        have hpart : ∀ c ∈ r.takeWhile isDecimalDigit, isDecimalDigit c = true := fun c hc =>
          List.mem_takeWhile_imp hc
        refine ⟨_, r.dropWhile isDecimalDigit, ?_, .point hwhole hsize hpart hne, h⟩
        rw [List.append_assoc, List.cons_append, List.takeWhile_append_dropWhile, ← hpoint, hsplit]
    · exact ⟨_, _, hsplit.symm, .whole hwhole hsize, h⟩
  · cases h

/-- A numeral ends where something else follows. -/
theorem numeral_append {least most : Nat} {ds : List Char} (h : IsNumeral least most ds) {c : Char}
    (hdigit : isDecimalDigit c = false) (hpoint : c ≠ '.') (k : List Char → Reading β)
    (r : List Char) : numeral least most k (ds ++ c :: r) = k ds (c :: r) := by
  have hstop : ∀ d ∈ (c :: r).head?, isDecimalDigit d = false := by
    intro d hd
    obtain rfl := Option.some.inj hd
    exact hdigit
  cases h with
  | whole hds hsize =>
      rw [numeral, digits_append hds hstop _ hsize]
      split
      · next heq => exact absurd (List.cons.inj heq).1 hpoint
      · rfl
  | @point ds part hds hsize hpart hne =>
      obtain ⟨htake, hdrop⟩ := takeWhile_append_of_stop hpart hstop
      have hdot : ∀ d ∈ ('.' :: (part ++ c :: r)).head?, isDecimalDigit d = false := by
        intro d hd
        obtain rfl := Option.some.inj hd
        rfl
      rw [List.append_assoc, List.cons_append, numeral, digits_append hds hdot _ hsize]
      simp only [htake, hdrop]

end Composer.Text
