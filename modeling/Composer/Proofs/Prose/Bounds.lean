import Composer.Proofs.Prose.Count
/-!
# Composer.Proofs.Prose.Bounds

**Counts of one text against each other.** What a text is counted in gets smaller and smaller: a
paragraph has a word, a word has a character that is no blank, and a sentence has one as well. Each of
these is found on a reading of its own, so each of them is an induction over the text in which the
two readings go side by side. A text of blanks alone has nothing to count, and no other text is
answered in that way (`count_bounds`).
-/

namespace Composer.Prose

open Text

/-! ### Words, sentences and paragraphs -/

/-- A word has a character that is no blank. -/
theorem length_words_le_countP (s : List Char) : (words s).length ≤ s.countP (!isBlank ·) := by
  induction s with
  | nil => exact Nat.le_refl _
  | cons c s ih =>
      rw [List.countP_cons]
      by_cases hc : isBlank c = true
      · rw [words_cons_of_isBlank hc]
        exact ih.trans (Nat.le_add_right _ _)
      · have hcons := length_words_cons_le c s
        simp only [hc, Bool.not_false, if_true]
        omega

/-- A sentence has a letter or a digit, which is no blank. The piece that goes on may have one
already. -/
theorem sentencesFrom_le (found : Bool) (s : List Char) :
    sentencesFrom found s ≤ found.toNat + s.countP (!isBlank ·) := by
  induction s generalizing found with
  | nil => simp [sentencesFrom]
  | cons c s ih =>
      rw [sentencesFrom, List.countP_cons]
      split
      · have hrest := ih false
        rw [Bool.toNat_false] at hrest
        omega
      · have hrest := ih (found || isAlphanumeric c)
        have hfound : (found || isAlphanumeric c).toNat ≤
            found.toNat + if (!isBlank c) = true then 1 else 0 := by
          by_cases hc : isBlank c = true
          · rw [not_isAlphanumeric_of_isBlank hc, Bool.or_false]
            exact Nat.le_add_right _ _
          · have hone := Bool.toNat_le (found || isAlphanumeric c)
            simp only [hc, Bool.not_false, if_true]
            omega
        omega

/-- Behind a gap between paragraphs a word begins. -/
theorem gapsFrom_le (breaks : Nat) (s : List Char) : gapsFrom breaks s ≤ (words s).length := by
  induction s generalizing breaks with
  | nil => exact Nat.le_refl _
  | cons c s ih =>
      rw [gapsFrom]
      split
      · next hc =>
          rw [words_cons_of_isBlank hc]
          exact ih _
      · next hc =>
          have hgap := Bool.toNat_le (2 ≤ breaks : Bool)
          cases s with
          | nil =>
              have hword : words [c] = [[c]] := words_of_isWord (by simp [IsWord, hc])
              rw [hword]
              exact hgap
          | cons d s =>
              by_cases hd : isBlank d = true
              · -- The word ends here, and the rest has its words for itself.
                have hword : words [c] = [[c]] := words_of_isWord (by simp [IsWord, hc])
                have hsplit : words (c :: d :: s) = [c] :: words (d :: s) := by
                  rw [words_cons_of_isBlank hd, ← List.singleton_append, words_append_cons hd, hword]
                  rfl
                have hrest := ih 0
                rw [hsplit, List.length_cons]
                omega
              · -- The word goes on, so the gap could as well be counted at its next character.
                have hrest := ih breaks
                have hcons := length_words_le_cons c (d :: s)
                rw [gapsFrom, if_neg hd] at hrest ⊢
                rw [decide_eq_false (show ¬ 2 ≤ 0 by omega), Bool.toNat_false, Nat.zero_add]
                exact hrest.trans hcons

/-- A text that does not begin with a blank has a word before all of its gaps. -/
theorem gapsFrom_lt {s : List Char} (hs : ∀ c ∈ s.head?, isBlank c = false) (hne : s ≠ []) :
    gapsFrom 0 s < (words s).length := by
  obtain ⟨c, s, rfl⟩ := List.exists_cons_of_ne_nil hne
  have hc : ¬ isBlank c = true := by simp [hs c rfl]
  have hle := gapsFrom_le 2 (c :: s)
  rw [gapsFrom, if_neg hc, decide_eq_true (Nat.le_refl 2), Bool.toNat_true] at hle
  rw [gapsFrom, if_neg hc, decide_eq_false (show ¬ 2 ≤ 0 by omega), Bool.toNat_false]
  omega

/-! ### Counts -/

/-- What else is told of a text that has another character than blanks. -/
theorem count_rest {text : List Char} (h : ¬ ∀ c ∈ text, isBlank c = true) :
    (count text).characters = (trim text).length ∧
      (count text).readingMinutes = ((words text).length + wordsPerMinute - 1) / wordsPerMinute ∧
      (count text).isPartial = false := by
  have hfull : (trim text).isEmpty = false := by simpa using trim_ne_nil h
  rw [count]
  simp only [hfull, words_trim]
  exact ⟨rfl, rfl, rfl⟩

theorem count_of_isBlank {text : List Char} (h : ∀ c ∈ text, isBlank c = true) :
    count text = Count.nothing := by
  rw [count, trim_of_isBlank h]
  rfl

/-- **Each count bounds the next one.** A text with another character than blanks has a paragraph,
at least as many words as paragraphs, and so on, and the minutes are the words divided by two
hundred, rounded up. Such a text is counted for good, and only a text of blanks has nothing to
count. -/
theorem count_bounds (text : List Char) :
    ((¬ ∀ c ∈ text, isBlank c = true) →
      (1 ≤ (count text).paragraphs ∧ (count text).paragraphs ≤ (count text).words ∧
        (count text).words ≤ (count text).charactersNoSpaces ∧
        (count text).charactersNoSpaces ≤ (count text).characters) ∧
      (count text).sentences ≤ (count text).charactersNoSpaces ∧
      (((count text).readingMinutes : Int) - 1) * 200 < (count text).words ∧
      (count text).words ≤ (count text).readingMinutes * 200 ∧
      (count text).isPartial = false) ∧
    ((∀ c ∈ text, isBlank c = true) ↔
      (count text).isPartial = true ∧ (count text).words = 0 ∧ (count text).characters = 0 ∧
        (count text).charactersNoSpaces = 0 ∧ (count text).sentences = 0 ∧
        (count text).paragraphs = 0 ∧ (count text).readingMinutes = 0) := by
  constructor
  · intro h
    obtain ⟨hwords, hletters, hsentences, hparagraphs⟩ := count_eq h
    obtain ⟨hcharacters, hminutes, hpartial⟩ := count_rest h
    have hgaps : gapsFrom 0 (trim text) < (words text).length := by
      rw [← words_trim]
      exact gapsFrom_lt not_isBlank_of_head?_trim (trim_ne_nil h)
    have hpieces := sentencesFrom_le false (trim text)
    rw [countP_trim, Bool.toNat_false] at hpieces
    have hall : text.countP (!isBlank ·) ≤ (trim text).length := by
      rw [← countP_trim]
      exact List.countP_le_length
    rw [hwords, hletters, hsentences, hparagraphs, hcharacters, hminutes, wordsPerMinute]
    refine ⟨⟨?_, hgaps, length_words_le_countP text, hall⟩, ?_, ?_, ?_, hpartial⟩
    · exact Nat.le_add_left _ _
    · omega
    · omega
    · omega
  · constructor
    · intro h
      rw [count_of_isBlank h]
      exact ⟨rfl, rfl, rfl, rfl, rfl, rfl, rfl⟩
    · intro h
      by_contra hblank
      rw [(count_rest hblank).2.2] at h
      cases h.1

/-- Two paragraphs with signs that are words without letters, between blanks of several kinds. -/
theorem count_bounds_signs :
    (count "\u3000One — two!\n \n…\u00A0".toList).paragraphs = 2 ∧
      (count "\u3000One — two!\n \n…\u00A0".toList).paragraphs ≤
        (count "\u3000One — two!\n \n…\u00A0".toList).words ∧
      (count "\u3000One — two!\n \n…\u00A0".toList).words ≤
        (count "\u3000One — two!\n \n…\u00A0".toList).charactersNoSpaces := by
  have h : ¬ ∀ c ∈ "\u3000One — two!\n \n…\u00A0".toList, isBlank c = true :=
    allBlank_eq_false_iff.mp (by decide)
  obtain ⟨⟨-, hparagraphs, hwords, -⟩, -⟩ := (count_bounds "\u3000One — two!\n \n…\u00A0".toList).1 h
  exact ⟨by decide, hparagraphs, hwords⟩

end Composer.Prose
