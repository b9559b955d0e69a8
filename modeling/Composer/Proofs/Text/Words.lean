import Composer.Proofs.Text.Lowercase
import Composer.Proofs.Text.Trim
/-!
# Composer.Proofs.Text.Words

**Words and blanks.** Words end at blanks, so texts with blanks between them keep their words apart
(`words_append`), and words that are put in a row again have blanks between them only. A character
may become several in lower case, but a blank stays what it is and no other character becomes blank.
So a text has as many words in lower case as it has when it is typed.
-/

namespace Composer.Text

/-! ### What words are -/

/-- A word has a character, and none of its characters is a blank. -/
def IsWord (w : List Char) : Prop :=
  w ≠ [] ∧ ∀ c ∈ w, isBlank c = false

theorem IsWord.head?_append {s : List Char} (h : IsWord s) (r : List Char) :
    ∀ c ∈ (s ++ r).head?, isBlank c = false := by
  intro c hc
  rw [List.head?_append, List.head?_eq_some_head h.1] at hc
  obtain rfl := Option.some.inj hc
  exact h.2 _ (List.head_mem h.1)

/-- A gap between words has a blank, and all of its characters are blanks. -/
def IsGap (ws : List Char) : Prop :=
  ws ≠ [] ∧ ∀ c ∈ ws, isBlank c = true

theorem IsGap.append_left {ws r : List Char} (h : IsGap ws) (hr : ∀ c ∈ r, isBlank c = true) :
    IsGap (r ++ ws) :=
  ⟨List.append_ne_nil_of_right_ne_nil r h.1, List.forall_mem_append.mpr ⟨hr, h.2⟩⟩

theorem IsGap.append_right {ws r : List Char} (h : IsGap ws) (hr : ∀ c ∈ r, isBlank c = true) :
    IsGap (ws ++ r) :=
  ⟨List.append_ne_nil_of_left_ne_nil h.1 r, List.forall_mem_append.mpr ⟨h.2, hr⟩⟩

theorem isGap_space : IsGap [' '] :=
  ⟨List.cons_ne_nil _ _, isBlank_of_mem_space⟩

/-- A word of ASCII letters. -/
def IsLetters (s : List Char) : Prop :=
  s ≠ [] ∧ ∀ c ∈ s, isKeywordLetter c = true

theorem IsLetters.isWord {s : List Char} (h : IsLetters s) : IsWord s :=
  ⟨h.1, fun c hc => (of_isKeywordLetter (h.2 c hc)).2.1⟩

/-- A word of a phrase is typed in letters. -/
theorem isLetters_of_map_fold {s : List Char} {word : String} (h : s.map fold = word.toList)
    (hne : word.toList ≠ []) (hword : word.toList.all Char.isLower = true) : IsLetters s := by
  refine ⟨?_, fun c hc => List.all_eq_true.mp hword (fold c) ?_⟩
  · rintro rfl
    exact hne h.symm
  · rw [← h]
    exact List.mem_map_of_mem hc

theorem isWord_of_mem_words {s w : List Char} (h : w ∈ words s) : IsWord w := by
  -- The word that may still be growing has no blank either.
  have hfold : (∀ v ∈ (s.foldr pushWord ([], [])).1, IsWord v) ∧
      ∀ c ∈ (s.foldr pushWord ([], [])).2, isBlank c = false := by
    clear h
    induction s with
    | nil => exact ⟨by simp, by simp⟩
    | cons c s ih =>
        obtain ⟨hdone, hopen⟩ := ih
        rw [List.foldr_cons, pushWord]
        generalize s.foldr pushWord ([], []) = p at hdone hopen
        split
        · refine ⟨?_, by simp⟩
          split
          · exact hdone
          · next hne => exact List.forall_mem_cons.mpr ⟨⟨by simpa using hne, hopen⟩, hdone⟩
        · next hc => exact ⟨hdone, List.forall_mem_cons.mpr ⟨by simpa using hc, hopen⟩⟩
  obtain ⟨hdone, hopen⟩ := hfold
  rw [words] at h
  generalize s.foldr pushWord ([], []) = p at h hdone hopen
  dsimp only at h
  split at h
  · exact hdone w h
  · next hne =>
      rcases List.mem_cons.mp h with rfl | h
      · exact ⟨by simpa using hne, hopen⟩
      · exact hdone w h

/-- Characters that are not blank join the word behind them. -/
theorem foldr_pushWord {here : List Char} (h : ∀ d ∈ here, isBlank d = false)
    (p : List (List Char) × List Char) : here.foldr pushWord p = (p.1, here ++ p.2) := by
  induction here with
  | nil => rfl
  | cons d here ih =>
      obtain ⟨hd, hhere⟩ := List.forall_mem_cons.mp h
      rw [List.foldr_cons, ih hhere, pushWord, hd]
      rfl

/-- A word is all the words that it has. -/
theorem words_of_isWord {w : List Char} (h : IsWord w) : words w = [w] := by
  have hfull : w.isEmpty = false := by simpa using h.1
  simp [words, foldr_pushWord h.2, hfull]

theorem IsLetters.words_eq {s : List Char} (h : IsLetters s) : words s = [s] :=
  words_of_isWord h.isWord

/-! ### Words of texts put together -/

/-- The word that is open at the beginning of a text is its first one. -/
theorem words_eq (s : List Char) : words s =
    if (s.foldr pushWord ([], [])).2.isEmpty then (s.foldr pushWord ([], [])).1
    else (s.foldr pushWord ([], [])).2 :: (s.foldr pushWord ([], [])).1 :=
  rfl

/-- Words that are closed already are not touched any more. -/
theorem foldr_pushWord_closed (s : List Char) (done : List (List Char)) :
    s.foldr pushWord (done, []) =
      ((s.foldr pushWord ([], [])).1 ++ done, (s.foldr pushWord ([], [])).2) := by
  induction s with
  | nil => rfl
  | cons c s ih =>
      rw [List.foldr_cons, List.foldr_cons, ih]
      simp only [pushWord]
      split
      · split <;> rfl
      · rfl

/-- **Words end at a blank.** -/
theorem words_append_cons {c : Char} (hc : isBlank c = true) (s r : List Char) :
    words (s ++ c :: r) = words s ++ words r := by
  have hrest : (c :: r).foldr pushWord ([], []) = (words r, []) := by
    rw [List.foldr_cons, pushWord, if_pos hc]
    rfl
  rw [words_eq (s ++ c :: r), List.foldr_append, hrest, foldr_pushWord_closed, words_eq s]
  split <;> rfl

theorem words_blanks_append {ws : List Char} (h : ∀ c ∈ ws, isBlank c = true) (s : List Char) :
    words (ws ++ s) = words s := by
  induction ws with
  | nil => rfl
  | cons c ws ih =>
      obtain ⟨hc, hws⟩ := List.forall_mem_cons.mp h
      rw [List.cons_append, words_cons_of_isBlank hc, ih hws]

/-- Any blanks between two texts keep their words apart. -/
theorem words_append {ws : List Char} (h : ∀ c ∈ ws, isBlank c = true) (hne : ws ≠ [])
    (s r : List Char) : words (s ++ (ws ++ r)) = words s ++ words r := by
  obtain ⟨c, ws, rfl⟩ := List.exists_cons_of_ne_nil hne
  obtain ⟨hc, hws⟩ := List.forall_mem_cons.mp h
  rw [List.cons_append, words_append_cons hc, words_blanks_append hws]

theorem words_append_blanks {ws : List Char} (h : ∀ c ∈ ws, isBlank c = true) (s : List Char) :
    words (s ++ ws) = words s := by
  by_cases hne : ws = []
  · rw [hne, List.append_nil]
  · have hwords := words_append h hne s []
    rwa [List.append_nil, words_nil, List.append_nil] at hwords

theorem words_trim (s : List Char) : words (trim s) = words s := by
  obtain ⟨ws, ws', hws, hws', hs⟩ := trim_eq s
  calc words (trim s) = words (ws ++ trim s ++ ws') := by
        rw [words_append_blanks hws', words_blanks_append hws]
    _ = words s := by rw [← hs]

/-- A text with another character than blanks has a word. -/
theorem words_ne_nil {s : List Char} (h : ¬ ∀ c ∈ s, isBlank c = true) : words s ≠ [] := by
  obtain ⟨ws, c, r, rfl, hws, hc⟩ := exists_first h
  rw [words_blanks_append hws, words_eq, List.foldr_cons, pushWord, if_neg (by simp [hc])]
  exact List.cons_ne_nil _ _

/-- One more character in front does not make the words fewer, -/
theorem length_words_le_cons (c : Char) (s : List Char) :
    (words s).length ≤ (words (c :: s)).length := by
  by_cases hc : isBlank c = true
  · rw [words_cons_of_isBlank hc]
  · rw [words_eq (c :: s), List.foldr_cons, pushWord, if_neg hc, words_eq s]
    split <;> simp

/-- and it makes at most one more. -/
theorem length_words_cons_le (c : Char) (s : List Char) :
    (words (c :: s)).length ≤ (words s).length + 1 := by
  by_cases hc : isBlank c = true
  · rw [words_cons_of_isBlank hc]
    exact Nat.le_succ _
  · have hclosed : (s.foldr pushWord ([], [])).1.length ≤ (words s).length := by
      rw [words_eq s]
      split <;> simp
    rw [words_eq (c :: s), List.foldr_cons, pushWord, if_neg hc, if_neg (by simp)]
    exact Nat.succ_le_succ hclosed

theorem length_words_le_append_left (u s : List Char) :
    (words s).length ≤ (words (u ++ s)).length := by
  induction u with
  | nil => exact Nat.le_refl _
  | cons c u ih => exact ih.trans (length_words_le_cons c (u ++ s))

/-- Nor do more characters at the end. -/
theorem length_words_le_append_right (s r : List Char) :
    (words s).length ≤ (words (s ++ r)).length := by
  -- Read from the end, as many words have been closed, and one is open if one was.
  have hfold : ∀ p : List (List Char) × List Char,
      (s.foldr pushWord ([], [])).1.length ≤ (s.foldr pushWord p).1.length ∧
        ((s.foldr pushWord p).2.isEmpty = true → (s.foldr pushWord ([], [])).2.isEmpty = true) := by
    intro p
    induction s with
    | nil => exact ⟨Nat.zero_le _, fun _ => rfl⟩
    | cons c s ih =>
        obtain ⟨hclosed, hopen⟩ := ih
        rw [List.foldr_cons, List.foldr_cons, pushWord, pushWord]
        split
        · refine ⟨?_, fun _ => rfl⟩
          dsimp only
          split
          · split
            · exact hclosed
            · exact Nat.le_succ_of_le hclosed
          · next hfull =>
              rw [if_neg (fun hempty => hfull (hopen hempty))]
              exact Nat.succ_le_succ hclosed
        · exact ⟨hclosed, fun hempty => by cases hempty⟩
  obtain ⟨hclosed, hopen⟩ := hfold (r.foldr pushWord ([], []))
  rw [words_eq s, words_eq (s ++ r), List.foldr_append]
  split
  · split
    · exact hclosed
    · exact Nat.le_succ_of_le hclosed
  · next hfull =>
      rw [if_neg (fun hempty => hfull (hopen hempty))]
      exact Nat.succ_le_succ hclosed

/-! ### Words in a row -/

theorem joinWith_cons_cons (gap w v : List Char) (ws : List (List Char)) :
    joinWith gap (w :: v :: ws) = w ++ (gap ++ joinWith gap (v :: ws)) := by
  simp [joinWith, List.intercalate_cons_cons]

/-- One more word at the end. -/
theorem joinWith_concat (gap : List Char) {ws : List (List Char)} (hne : ws ≠ []) (w : List Char) :
    joinWith gap (ws ++ [w]) = joinWith gap ws ++ (gap ++ w) := by
  induction ws with
  | nil => exact absurd rfl hne
  | cons v ws ih =>
      cases ws with
      | nil => simp [joinWith]
      | cons u ws =>
          have hrest := ih (List.cons_ne_nil u ws)
          rw [List.cons_append, List.cons_append, joinWith_cons_cons, ← List.cons_append, hrest,
            joinWith_cons_cons, List.append_assoc, List.append_assoc]

/-- Words in a row neither begin nor end with a blank. -/
theorem trim_joinWith {gap : List Char} {ws : List (List Char)} (hws : ∀ w ∈ ws, IsWord w) :
    trim (joinWith gap ws) = joinWith gap ws := by
  have hends : ws ≠ [] → ∃ c d, (joinWith gap ws).head? = some c ∧ isBlank c = false ∧
      (joinWith gap ws).getLast? = some d ∧ isBlank d = false := by
    induction ws with
    | nil => exact fun hne => absurd rfl hne
    | cons w ws ih =>
        obtain ⟨⟨hne, hw⟩, hws⟩ := List.forall_mem_cons.mp hws
        intro _
        cases ws with
        | nil =>
            have hone : joinWith gap [w] = w := by simp [joinWith]
            rw [hone]
            exact ⟨w.head hne, w.getLast hne, List.head?_eq_some_head hne, hw _ (List.head_mem hne),
              List.getLast?_eq_some_getLast hne, hw _ (List.getLast_mem hne)⟩
        | cons v ws =>
            obtain ⟨_, d, -, -, hlast, hd⟩ := ih hws (List.cons_ne_nil v ws)
            refine ⟨w.head hne, d, ?_, hw _ (List.head_mem hne), ?_, hd⟩
            · rw [joinWith_cons_cons, List.head?_append, List.head?_eq_some_head hne]
              rfl
            · rw [joinWith_cons_cons, List.getLast?_append, List.getLast?_append, hlast]
              rfl
  by_cases hne : ws = []
  · subst hne
    rfl
  · obtain ⟨c, d, hhead, hc, hlast, hd⟩ := hends hne
    exact trim_of_ends hhead hc hlast hd

/-! ### Lower case -/

theorem lowerChar_of_isBlank {c : Char} (h : isBlank c = true) : lowerChar c = [c] := by
  have hupper : c.isUpper = false := by
    rw [Bool.eq_false_iff]
    intro hupper
    have hletter : isKeywordLetter c = true :=
      forall_upper (P := fun c => isKeywordLetter c = true) (by decide) hupper
    rw [not_isKeywordLetter_of_isBlank h] at hletter
    cases hletter
  rw [lowerChar_eq_toLower (isPlain_of_isBlank h), toLower_eq_self hupper]

/-- Only one character becomes more than one. -/
theorem lowerChar_eq_singleton {c : Char} (h : c ≠ '\u0130') : ∃ d, lowerChar c = [d] := by
  by_cases hascii : c.toNat < 0x80
  · exact ⟨_, by rw [lowerChar, if_pos hascii]⟩
  · exact ⟨_, by rw [lowerChar, if_neg hascii, if_neg h]⟩

/-- A capital with a dot becomes a letter and a dot. -/
theorem lowerChar_dotted : lowerChar '\u0130' = ['i', '\u0307'] := rfl

theorem lowerChar_ne_nil (c : Char) : lowerChar c ≠ [] := by
  by_cases h : c = '\u0130'
  · rw [h, lowerChar_dotted]
    exact List.cons_ne_nil _ _
  · obtain ⟨d, hd⟩ := lowerChar_eq_singleton h
    simp [hd]

/-- No other character becomes a blank. -/
theorem not_isBlank_of_mem_lowerChar {c d : Char} (h : isBlank c = false)
    (hd : d ∈ lowerChar c) : isBlank d = false := by
  by_cases hdot : c = '\u0130'
  · rw [hdot, lowerChar_dotted, List.mem_cons, List.mem_singleton] at hd
    rcases hd with rfl | rfl <;> rfl
  · obtain ⟨e, he⟩ := lowerChar_eq_singleton hdot
    rw [he, List.mem_singleton] at hd
    subst hd
    rw [Bool.eq_false_iff]
    intro hblank
    -- A blank is plain, so it would be the folded character, and folding makes only letters.
    have hfold : d = fold c := by
      have hplain : lowerChar c = [fold c] := lowerChar_of_isPlain fun e he' => by
        rw [he, List.mem_singleton] at he'
        simp [isPlain, he', hblank]
      exact List.singleton_inj.mp (he.symm.trans hplain)
    have hletter : isKeywordLetter c = false := by
      rw [← isKeywordLetter_fold, ← hfold]
      exact not_isKeywordLetter_of_isBlank hblank
    rw [hfold, fold_of_not_isKeywordLetter hletter, h] at hblank
    cases hblank

/-- The lower case of a text begins with that of its first character: a blank itself, or else
characters that are not blank. -/
theorem lowerAfter_cons (before : List Char) (c : Char) (s : List Char) :
    ∃ here, lowerAfter before (c :: s) = here ++ lowerAfter (c :: before) s ∧
      (isBlank c = true ∧ here = [c] ∨
        isBlank c = false ∧ here ≠ [] ∧ ∀ d ∈ here, isBlank d = false) := by
  refine ⟨_, rfl, ?_⟩
  split
  · next hsigma =>
    refine Or.inr ⟨by rw [hsigma]; rfl, ?_⟩
    split
    · exact ⟨List.cons_ne_nil _ _, List.forall_mem_singleton.mpr rfl⟩
    · exact ⟨List.cons_ne_nil _ _, List.forall_mem_singleton.mpr rfl⟩
  · cases hblank : isBlank c with
    | true => exact Or.inl ⟨rfl, lowerChar_of_isBlank hblank⟩
    | false =>
        exact Or.inr ⟨rfl, lowerChar_ne_nil c, fun d hd => not_isBlank_of_mem_lowerChar hblank hd⟩

/-! ### Counting words -/

/-- Read from their ends, a text and its lower case have closed equally many words, and in both of
them a word is open, or in none. -/
theorem pushWord_lowerAfter (before s : List Char) :
    let p := s.foldr pushWord ([], [])
    let q := (lowerAfter before s).foldr pushWord ([], [])
    q.1.length = p.1.length ∧ q.2.isEmpty = p.2.isEmpty := by
  induction s generalizing before with
  | nil => exact ⟨rfl, rfl⟩
  | cons c s ih =>
      obtain ⟨hclosed, hopen⟩ := ih (c :: before)
      obtain ⟨here, heq, ⟨hblank, rfl⟩ | ⟨hblank, hne, hhere⟩⟩ := lowerAfter_cons before c s
      · simp only [heq, List.foldr_append, List.foldr_cons, List.foldr_nil, pushWord, hblank,
          hopen, if_true]
        refine ⟨?_, trivial⟩
        split
        · exact hclosed
        · simp [hclosed]
      · simp only [heq, List.foldr_append, foldr_pushWord hhere, List.foldr_cons, pushWord, hblank]
        exact ⟨hclosed, by simp [hne]⟩

/-- **Lower case has as many words.** -/
theorem length_words_lower (s : List Char) : (words (lower s)).length = (words s).length := by
  obtain ⟨hclosed, hopen⟩ := pushWord_lowerAfter [] s
  simp only [words, lower, hopen]
  split
  · exact hclosed
  · simp [hclosed]

end Composer.Text
