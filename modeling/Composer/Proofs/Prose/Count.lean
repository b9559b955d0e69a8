import Composer.Proofs.Text.Phrase
import Composer.Proofs.Text.Words
import Composer.Prose.Count
/-!
# Composer.Proofs.Prose.Count

**Counts of two paragraphs add up.** A text is read once from its beginning to its end, and what is
remembered on the way is small: how many line breaks the run of blanks has that goes on, and whether
the piece between two sentence marks has a letter or a digit yet. Behind a character that is no
blank the first is forgotten. So where two texts are joined by an empty line, words, characters and
paragraphs are counted apart; only a sentence without a mark at its end may go on behind the line
(`count_paragraphs`).
-/

namespace Composer.Prose

open Text

/-! ### Blanks -/

/-- No range of letters or numbers has a blank. -/
theorem blankCodes_apart : ((alphabeticRanges.toList ++ numericRanges.toList).all fun r =>
    blankCodes.all fun n => n.blt r.1 || r.2.blt n) = true := by
  decide +kernel

theorem not_inRanges_of_isBlank {ranges : Array (Nat × Nat)}
    (hranges : ∀ r ∈ ranges, r ∈ alphabeticRanges.toList ++ numericRanges.toList) {c : Char}
    (h : isBlank c = true) (hc : 0x80 ≤ c.toNat) : inRanges ranges c = false := by
  rw [inRanges, Bool.eq_false_iff]
  intro hany
  obtain ⟨r, hr, hin⟩ := Array.any_eq_true'.mp hany
  have hapart := List.all_eq_true.mp (List.all_eq_true.mp blankCodes_apart r (hranges r hr)) _
    (mem_blankCodes h hc)
  simp only [Bool.or_eq_true, Nat.blt_eq] at hapart
  simp only [Bool.and_eq_true, decide_eq_true_eq] at hin
  omega

theorem not_isAlphanumeric_of_isBlank {c : Char} (h : isBlank c = true) :
    isAlphanumeric c = false := by
  have hdigit : c.isDigit = false := by
    rw [Bool.eq_false_iff]
    intro hdigit
    have hblank := isDecimalDigit_of_isBlank h
    rw [isDecimalDigit, hdigit, Bool.true_or] at hblank
    cases hblank
  have halpha : c.isAlpha = false := by
    rw [Bool.eq_false_iff]
    intro halpha
    have hletter : isKeywordLetter c = true :=
      forall_alpha (P := fun c => isKeywordLetter c = true) (by decide) (by decide) halpha
    rw [not_isKeywordLetter_of_isBlank h] at hletter
    cases hletter
  rw [isAlphanumeric, Char.isAlphanum, halpha, hdigit, Bool.false_or, Bool.false_or,
    Bool.and_eq_false_imp]
  intro hc
  have hbound : 0x80 ≤ c.toNat := of_decide_eq_true hc
  rw [not_inRanges_of_isBlank (fun r hr => List.mem_append_left _ hr.val) h hbound,
    not_inRanges_of_isBlank (fun r hr => List.mem_append_right _ hr.val) h hbound]
  rfl

theorem not_isSentenceMark_of_isBlank {c : Char} (h : isBlank c = true) :
    isSentenceMark c = false := by
  rw [Bool.eq_false_iff]
  intro hmark
  simp only [isSentenceMark, Bool.or_eq_true, decide_eq_true_eq] at hmark
  rcases hmark with (rfl | rfl) | rfl <;> cases h

/-! ### Sentences -/

/-- Whether the piece that is open behind a text has a letter or a digit; `found` tells the same of
the piece that is open before it. -/
def openPiece (found : Bool) : List Char → Bool
  | [] => found
  | c :: s =>
    if isSentenceMark c then openPiece false s else openPiece (found || isAlphanumeric c) s

/-- The piece that is open between two texts is counted once. -/
theorem sentencesFrom_append (found : Bool) (s r : List Char) :
    sentencesFrom found (s ++ r) + (openPiece found s).toNat =
      sentencesFrom found s + sentencesFrom (openPiece found s) r := by
  induction s generalizing found with
  | nil => exact Nat.add_comm _ _
  | cons c s ih =>
      rw [List.cons_append, sentencesFrom, sentencesFrom, openPiece]
      split
      · rw [Nat.add_assoc, ih, Nat.add_assoc]
      · exact ih _

/-- What stands before a text makes at most one more sentence. -/
theorem sentencesFrom_true (s : List Char) :
    sentencesFrom false s ≤ sentencesFrom true s ∧
      sentencesFrom true s ≤ sentencesFrom false s + 1 := by
  induction s with
  | nil => exact ⟨Nat.zero_le _, Nat.le_refl _⟩
  | cons c s ih =>
      rw [sentencesFrom, sentencesFrom]
      split
      · rw [Bool.toNat_false, Bool.toNat_true]
        omega
      · rw [Bool.true_or, Bool.false_or]
        cases isAlphanumeric c with
        | false => exact ih
        | true => exact ⟨Nat.le_refl _, Nat.le_succ _⟩

/-- Blanks belong to any sentence. -/
theorem sentencesFrom_blanks {ws : List Char} (h : ∀ c ∈ ws, isBlank c = true) (found : Bool)
    (s : List Char) : sentencesFrom found (ws ++ s) = sentencesFrom found s := by
  induction ws with
  | nil => rfl
  | cons c ws ih =>
      obtain ⟨hc, hws⟩ := List.forall_mem_cons.mp h
      rw [List.cons_append, sentencesFrom, not_isSentenceMark_of_isBlank hc,
        not_isAlphanumeric_of_isBlank hc, Bool.or_false]
      exact ih hws

/-! ### Paragraphs -/

/-- Behind a character that is no blank the line breaks before it do not count. -/
theorem gapsFrom_append_cons {c : Char} (hc : isBlank c = false) (breaks : Nat) (s r : List Char) :
    gapsFrom breaks (s ++ c :: r) = gapsFrom breaks (s ++ [c]) + gapsFrom 0 r := by
  induction s generalizing breaks with
  | nil => simp [gapsFrom, hc]
  | cons d s ih =>
      rw [List.cons_append, List.cons_append, gapsFrom, gapsFrom]
      split
      · exact ih _
      · rw [ih, Nat.add_assoc]

theorem gapsFrom_blanks {ws : List Char} (h : ∀ c ∈ ws, isBlank c = true) (breaks : Nat)
    (s : List Char) : gapsFrom breaks (ws ++ s) = gapsFrom (breaks + ws.count '\n') s := by
  induction ws generalizing breaks with
  | nil => rfl
  | cons c ws ih =>
      obtain ⟨hc, hws⟩ := List.forall_mem_cons.mp h
      rw [List.cons_append, gapsFrom, if_pos hc, ih hws, List.count_cons, Nat.add_assoc,
        Nat.add_comm (ws.count '\n')]
      congr 2
      by_cases hbreak : c = '\n' <;> simp [hbreak]

/-- Two line breaks or more among the blanks between two texts end a paragraph. -/
theorem gapsFrom_append {s ws r : List Char} (hs : ∀ c ∈ s.getLast?, isBlank c = false)
    (hne : s ≠ []) (hws : ∀ c ∈ ws, isBlank c = true) (hbreaks : 2 ≤ ws.count '\n')
    (hr : ∀ c ∈ r.head?, isBlank c = false) (hne' : r ≠ []) :
    gapsFrom 0 (s ++ (ws ++ r)) = gapsFrom 0 s + 1 + gapsFrom 0 r := by
  obtain ⟨s, d, rfl⟩ : ∃ t d, s = t ++ [d] := ⟨_, _, (List.dropLast_concat_getLast hne).symm⟩
  obtain ⟨c, r, rfl⟩ := List.exists_cons_of_ne_nil hne'
  have hd : isBlank d = false := hs d (List.getLast?_concat ..)
  have hc : isBlank c = false := hr c rfl
  have hfirst : ∀ breaks, gapsFrom breaks (c :: r) = (2 ≤ breaks : Bool).toNat + gapsFrom 0 r :=
    fun breaks => by rw [gapsFrom, if_neg (by simp [hc])]
  rw [List.append_assoc, List.singleton_append, gapsFrom_append_cons hd, gapsFrom_blanks hws,
    hfirst, hfirst, decide_eq_true (show 2 ≤ 0 + ws.count '\n' by omega),
    decide_eq_false (show ¬ 2 ≤ 0 by omega), Bool.toNat_true, Bool.toNat_false, Nat.zero_add,
    Nat.add_assoc]

/-! ### Counts -/

theorem countP_blanks {ws : List Char} (h : ∀ c ∈ ws, isBlank c = true) :
    ws.countP (!isBlank ·) = 0 := by
  rw [List.countP_eq_zero]
  intro c hc
  simp [h c hc]

theorem countP_trim (text : List Char) :
    (trim text).countP (!isBlank ·) = text.countP (!isBlank ·) := by
  obtain ⟨ws, ws', hws, hws', hs⟩ := trim_eq text
  calc (trim text).countP (!isBlank ·) = (ws ++ trim text ++ ws').countP (!isBlank ·) := by
        rw [List.countP_append, List.countP_append, countP_blanks hws, countP_blanks hws',
          Nat.zero_add, Nat.add_zero]
    _ = text.countP (!isBlank ·) := by rw [← hs]

/-- What is counted in a text that has another character than blanks. -/
theorem count_eq {text : List Char} (h : ¬ ∀ c ∈ text, isBlank c = true) :
    (count text).words = (words text).length ∧
      (count text).charactersNoSpaces = text.countP (!isBlank ·) ∧
      (count text).sentences = sentencesFrom false (trim text) ∧
      (count text).paragraphs = gapsFrom 0 (trim text) + 1 := by
  have hfull : (trim text).isEmpty = false := by simpa using trim_ne_nil h
  rw [count]
  simp only [hfull, words_trim, countP_trim]
  exact ⟨rfl, rfl, rfl, rfl⟩

/-- With an empty line between them two texts are trimmed apart: what is left between them are
blanks with two line breaks or more. -/
theorem trim_append_emptyLine {a b : List Char} (ha : ¬ ∀ c ∈ a, isBlank c = true)
    (hb : ¬ ∀ c ∈ b, isBlank c = true) :
    ∃ gap, (∀ d ∈ gap, isBlank d = true) ∧ 2 ≤ gap.count '\n' ∧
      trim (a ++ ("\n\n".toList ++ b)) = trim a ++ (gap ++ trim b) := by
  obtain ⟨before, left, hbefore, hleft, htrimA⟩ := trim_eq a
  obtain ⟨right, behind, hright, hbehind, htrimB⟩ := trim_eq b
  have hline : ∀ c ∈ "\n\n".toList, isBlank c = true := allBlank_eq_true_iff.mp (by decide)
  have hgap : ∀ d ∈ left ++ ("\n\n".toList ++ right), isBlank d = true := by
    intro d hd
    rcases List.mem_append.mp hd with hd | hd
    · exact hleft d hd
    · exact (List.mem_append.mp hd).elim (hline d) (hright d)
  have hsplit : a ++ ("\n\n".toList ++ b) =
      before ++ (trim a ++ ((left ++ ("\n\n".toList ++ right)) ++ trim b) ++ behind) :=
    calc a ++ ("\n\n".toList ++ b) = before ++ trim a ++ left ++
          ("\n\n".toList ++ (right ++ trim b ++ behind)) := by rw [← htrimA, ← htrimB]
      _ = before ++ (trim a ++ ((left ++ ("\n\n".toList ++ right)) ++ trim b) ++ behind) := by
        simp only [List.append_assoc]
  refine ⟨left ++ ("\n\n".toList ++ right), hgap, ?_, ?_⟩
  · have htwo : "\n\n".toList.count '\n' = 2 := by decide
    rw [List.count_append, List.count_append, htwo]
    omega
  · -- The text begins as the first one does and ends as the second one does.
    have hhead := List.head?_eq_some_head (trim_ne_nil ha)
    have hlast := List.getLast?_eq_some_getLast (trim_ne_nil hb)
    rw [hsplit, trim_blanks_append hbefore, trim_append_blanks hbehind]
    refine trim_of_ends ?_ (not_isBlank_of_head?_trim _ hhead) ?_
      (not_isBlank_of_getLast?_trim _ hlast)
    · rw [List.head?_append, hhead]
      rfl
    · rw [List.getLast?_append, List.getLast?_append, hlast]
      rfl

/-- **Counts of two paragraphs add up.** Whatever blanks there are at the ends of two texts, an empty
line between them keeps their words, their characters and their paragraphs apart. Of their
sentences the last one and the first one may become one. -/
theorem count_paragraphs {a b : List Char} (ha : ¬ ∀ c ∈ a, isBlank c = true)
    (hb : ¬ ∀ c ∈ b, isBlank c = true) :
    (count (a ++ ("\n\n".toList ++ b))).words = (count a).words + (count b).words ∧
      (count (a ++ ("\n\n".toList ++ b))).paragraphs =
        (count a).paragraphs + (count b).paragraphs ∧
      (count (a ++ ("\n\n".toList ++ b))).charactersNoSpaces =
        (count a).charactersNoSpaces + (count b).charactersNoSpaces ∧
      ((count (a ++ ("\n\n".toList ++ b))).sentences = (count a).sentences + (count b).sentences ∨
        (count (a ++ ("\n\n".toList ++ b))).sentences + 1 =
          (count a).sentences + (count b).sentences) := by
  have hline : ∀ c ∈ "\n\n".toList, isBlank c = true := allBlank_eq_true_iff.mp (by decide)
  have hboth : ¬ ∀ c ∈ a ++ ("\n\n".toList ++ b), isBlank c = true := fun h =>
    ha fun c hc => h c (List.mem_append_left _ hc)
  obtain ⟨hwords, hletters, hsentences, hparagraphs⟩ := count_eq hboth
  obtain ⟨hwordsA, hlettersA, hsentencesA, hparagraphsA⟩ := count_eq ha
  obtain ⟨hwordsB, hlettersB, hsentencesB, hparagraphsB⟩ := count_eq hb
  obtain ⟨gap, hgap, hbreaks, htrim⟩ := trim_append_emptyLine ha hb
  refine ⟨?_, ?_, ?_, ?_⟩
  · rw [hwords, hwordsA, hwordsB, words_append hline (by decide), List.length_append]
  · rw [hparagraphs, hparagraphsA, hparagraphsB, htrim,
      gapsFrom_append not_isBlank_of_getLast?_trim (trim_ne_nil ha) hgap hbreaks
        not_isBlank_of_head?_trim (trim_ne_nil hb)]
    omega
  · rw [hletters, hlettersA, hlettersB, List.countP_append, List.countP_append,
      countP_blanks hline, Nat.zero_add]
  · have hjoin := sentencesFrom_append false (trim a) (gap ++ trim b)
    rw [sentencesFrom_blanks hgap] at hjoin
    rw [hsentences, hsentencesA, hsentencesB, htrim]
    cases hopen : openPiece false (trim a) with
    | false =>
        rw [hopen, Bool.toNat_false] at hjoin
        omega
    | true =>
        have hmore := sentencesFrom_true (trim b)
        rw [hopen, Bool.toNat_true] at hjoin
        omega

/-- A sentence that goes on behind an empty line, between blanks of several kinds. -/
theorem count_paragraphs_open :
    (count ("One. Two \u00A0".toList ++ ("\n\n".toList ++ "\u3000\tthree! Four".toList))).words = 4 ∧
      (count ("One. Two \u00A0".toList ++
        ("\n\n".toList ++ "\u3000\tthree! Four".toList))).paragraphs = 2 ∧
      (count ("One. Two \u00A0".toList ++
        ("\n\n".toList ++ "\u3000\tthree! Four".toList))).charactersNoSpaces = 17 ∧
      (count ("One. Two \u00A0".toList ++
        ("\n\n".toList ++ "\u3000\tthree! Four".toList))).sentences = 3 := by
  have ha : ¬ ∀ c ∈ "One. Two \u00A0".toList, isBlank c = true :=
    allBlank_eq_false_iff.mp (by decide)
  have hb : ¬ ∀ c ∈ "\u3000\tthree! Four".toList, isBlank c = true :=
    allBlank_eq_false_iff.mp (by decide)
  have hopen : (count "One. Two \u00A0".toList).sentences = 2 ∧
      (count "\u3000\tthree! Four".toList).sentences = 2 := by decide
  obtain ⟨hwords, hparagraphs, hletters, hsentences⟩ := count_paragraphs ha hb
  refine ⟨hwords.trans (by decide), hparagraphs.trans (by decide), hletters.trans (by decide), ?_⟩
  rw [hopen.1, hopen.2] at hsentences
  exact hsentences.elim (fun hsum => absurd hsum (by decide)) fun hless => Nat.succ.inj hless

end Composer.Prose
