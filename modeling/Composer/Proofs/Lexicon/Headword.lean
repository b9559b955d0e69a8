import Composer.Lexicon.Definition
import Composer.Proofs.Text.Words
/-!
# Composer.Proofs.Lexicon.Headword

**Headwords.** A headword is what is left of a text without the blanks and the quotation marks around
it (`stripped`), if it is short and has no other characters than those of words. A question about a
word is longer than the word. So if the question itself is a headword, then the word is one too, and
it is another one (`exists_headword?_of_within`).
-/

namespace Composer.Lexicon

open Text

/-! ### What is left of a text -/

/-- The text without the blanks and the quotation marks around it. -/
def stripped (s : List Char) : List Char :=
  trim (dropEndWhile isQuote ((trim s).dropWhile isQuote))

theorem headword?_eq_some_iff {s : List Char} {w : String} : headword? s = some w ↔
    (words (stripped s)).length ≤ maxWords ∧ (∀ c ∈ stripped s, inHeadword c = true) ∧
      w = String.ofList (lower (stripped s)) := by
  have hdef : headword? s = if maxWords < (words (stripped s)).length then none
      else if (stripped s).all inHeadword then some (String.ofList (lower (stripped s)))
      else none := rfl
  rw [hdef, ← List.all_eq_true]
  split
  · next hmany => simp [Nat.not_le.mpr hmany]
  · next hfew =>
      split
      · next hall => simp [Nat.not_lt.mp hfew, hall, eq_comm]
      · next hall => simp [hall]

/-- Blanks around a text do not matter. -/
theorem headword?_congr {s r : List Char} (h : trim s = trim r) : headword? s = headword? r := by
  rw [headword?, headword?, h]

/-! ### One end after the other -/

/-- What is left behind the blanks and the quotation marks at the beginning. -/
def strippedStart (s : List Char) : List Char :=
  trimStart ((trimStart s).dropWhile isQuote)

/-- What is left before those at the end. -/
def strippedEnd (s : List Char) : List Char :=
  trimEnd (dropEndWhile isQuote (trimEnd s))

theorem stripped_eq (s : List Char) : stripped s = strippedStart (strippedEnd s) := by
  simp only [stripped, strippedStart, strippedEnd, trim, trimStart, trimEnd, dropEndWhile_dropWhile]

theorem strippedStart_isSuffix (s : List Char) : strippedStart s <:+ s :=
  (List.dropWhile_suffix _).trans ((List.dropWhile_suffix _).trans (List.dropWhile_suffix _))

theorem dropEndWhile_isPrefix (p : Char → Bool) (s : List Char) : dropEndWhile p s <+: s := by
  obtain ⟨r, -, hr⟩ := dropEndWhile_eq p s
  exact ⟨r, hr.symm⟩

theorem strippedEnd_isPrefix (s : List Char) : strippedEnd s <+: s :=
  (dropEndWhile_isPrefix _ _).trans ((dropEndWhile_isPrefix _ _).trans (dropEndWhile_isPrefix _ _))

theorem stripped_isInfix (s : List Char) : stripped s <:+: s := by
  rw [stripped_eq]
  exact (strippedStart_isSuffix _).isInfix.trans (strippedEnd_isPrefix s).isInfix

/-- If something is left before the end of a text, then what stands before that text is left too. -/
theorem strippedEnd_append {s : List Char} (h : strippedEnd s ≠ []) (r : List Char) :
    strippedEnd (r ++ s) = r ++ strippedEnd s := by
  have hquotes : dropEndWhile isQuote (trimEnd s) ≠ [] := by
    intro hnil
    rw [strippedEnd, hnil] at h
    exact h rfl
  have hblanks : trimEnd s ≠ [] := by
    intro hnil
    rw [hnil] at hquotes
    exact hquotes rfl
  calc strippedEnd (r ++ s) = trimEnd (dropEndWhile isQuote (r ++ trimEnd s)) :=
        congrArg (fun t => trimEnd (dropEndWhile isQuote t)) (dropEndWhile_append hblanks r)
    _ = trimEnd (r ++ dropEndWhile isQuote (trimEnd s)) :=
        congrArg trimEnd (dropEndWhile_append hquotes r)
    _ = r ++ strippedEnd s := dropEndWhile_append h r

/-- A character that is never taken off. -/
def Stays (c : Char) : Prop :=
  isBlank c = false ∧ isQuote c = false

theorem strippedStart_append_cons {c : Char} (h : Stays c) (s r : List Char) :
    strippedStart (s ++ c :: r) = strippedStart s ++ c :: r := by
  simp only [strippedStart, trimStart, dropWhile_append_cons_of_neg (Or.inl h.1),
    dropWhile_append_cons_of_neg (Or.inl h.2)]

theorem strippedEnd_append_cons {c : Char} (h : Stays c) (s r : List Char) :
    strippedEnd (s ++ c :: r) = s ++ c :: strippedEnd r := by
  have hcons {p : Char → Bool} (hp : p c = false) (s r : List Char) :
      dropEndWhile p (s ++ c :: r) = s ++ c :: dropEndWhile p r := by
    rw [dropEndWhile, List.reverse_append, List.reverse_cons, List.append_assoc,
      List.singleton_append, dropWhile_append_cons_of_neg (Or.inl hp)]
    simp [dropEndWhile]
  simp only [strippedEnd, trimEnd, hcons h.1, hcons h.2]

theorem mem_stripped {c : Char} (h : Stays c) {s : List Char} (hc : c ∈ s) : c ∈ stripped s := by
  obtain ⟨u, v, rfl⟩ := List.append_of_mem hc
  rw [stripped_eq, strippedEnd_append_cons h, strippedStart_append_cons h]
  exact List.mem_append_right _ List.mem_cons_self

theorem Stays.words_ne_nil {c : Char} (h : Stays c) {s : List Char} (hc : c ∈ s) :
    words s ≠ [] := by
  refine Text.words_ne_nil fun hall => ?_
  have hblank := h.1
  rw [hall c hc] at hblank
  cases hblank

/-- A letter is not taken off. -/
theorem stays_of_isKeywordLetter {c : Char} (h : isKeywordLetter c = true) : Stays c := by
  refine ⟨(of_isKeywordLetter h).2.1, ?_⟩
  rw [Bool.eq_false_iff]
  intro hquote
  simp only [isQuote, Bool.or_eq_true, decide_eq_true_eq] at hquote
  rcases hquote with ((rfl | rfl) | rfl) | rfl <;> cases h

/-! ### Texts within other texts -/

/-- What is left of a text is left within a longer one, unless nothing is. -/
theorem stripped_within {front gap back : List Char} {c : Char} (hc : c ∈ front) (hstays : Stays c)
    {s : List Char} (hback : back = [] ∨ ∃ d ∈ back, Stays d) (hs : stripped s ≠ []) :
    ∃ u v r, stripped (front ++ (gap ++ (s ++ back))) = u ++ (gap ++ (v ++ (stripped s ++ r))) ∧
      c ∈ u := by
  obtain ⟨f, f', rfl⟩ := List.append_of_mem hc
  have hend : ∃ v r, strippedEnd (s ++ back) = v ++ (stripped s ++ r) ∧
      strippedEnd (s ++ back) ≠ [] := by
    rcases hback with rfl | ⟨d, hd, hdstays⟩
    · obtain ⟨v, hv⟩ := strippedStart_isSuffix (strippedEnd s)
      rw [← stripped_eq] at hv
      rw [List.append_nil]
      refine ⟨v, [], by rw [List.append_nil, hv], fun hnil => hs ?_⟩
      rw [stripped_eq, hnil]
      rfl
    · obtain ⟨v, r, hv⟩ := stripped_isInfix s
      obtain ⟨b, b', rfl⟩ := List.append_of_mem hd
      have hall : strippedEnd (s ++ (b ++ d :: b')) = s ++ (b ++ d :: strippedEnd b') := by
        rw [← List.append_assoc, strippedEnd_append_cons hdstays, List.append_assoc]
      rw [hall]
      refine ⟨v, r ++ (b ++ d :: strippedEnd b'), ?_, by simp⟩
      calc s ++ (b ++ d :: strippedEnd b')
          = v ++ stripped s ++ r ++ (b ++ d :: strippedEnd b') := by rw [hv]
        _ = v ++ (stripped s ++ (r ++ (b ++ d :: strippedEnd b'))) := by
            simp only [List.append_assoc]
  obtain ⟨v, r, hend, hne⟩ := hend
  refine ⟨strippedStart f ++ c :: f', v, r, ?_, by simp⟩
  rw [stripped_eq, List.append_assoc, List.cons_append, strippedEnd_append_cons hstays,
    strippedStart_append_cons hstays, ← List.append_assoc f', strippedEnd_append hne, hend]
  simp only [List.append_assoc, List.cons_append]

/-- There are fewer words within a text than in it all. -/
theorem length_words_within {front gap back : List Char} {c : Char} (hc : c ∈ front)
    (hstays : Stays c) (hgap : IsGap gap) {s : List Char}
    (hback : back = [] ∨ ∃ d ∈ back, Stays d) :
    (words (stripped s)).length < (words (stripped (front ++ (gap ++ (s ++ back))))).length := by
  have hpos {u : List Char} (hu : c ∈ u) : 0 < (words u).length :=
    List.length_pos_iff.mpr (hstays.words_ne_nil hu)
  by_cases hs : stripped s = []
  · rw [hs, words_nil]
    exact hpos (mem_stripped hstays (List.mem_append_left _ hc))
  · obtain ⟨u, v, r, heq, hu⟩ := @stripped_within front gap back c hc hstays s hback hs
    calc (words (stripped s)).length
        ≤ (words (stripped s ++ r)).length := length_words_le_append_right _ _
      _ ≤ (words (v ++ (stripped s ++ r))).length := length_words_le_append_left _ _
      _ < (words u).length + (words (v ++ (stripped s ++ r))).length :=
          Nat.lt_add_of_pos_left (hpos hu)
      _ = (words (stripped (front ++ (gap ++ (s ++ back))))).length := by
          rw [heq, words_append hgap.2 hgap.1, List.length_append]

/-- **A text within a headword** is another headword, if blanks and a letter stand before it. -/
theorem exists_headword?_of_within {front gap back : List Char} {c : Char} (hc : c ∈ front)
    (hstays : Stays c) (hgap : IsGap gap) {s : List Char}
    (hback : back = [] ∨ ∃ d ∈ back, Stays d) {w : String}
    (h : headword? (front ++ (gap ++ (s ++ back))) = some w) :
    ∃ v, headword? s = some v ∧ v ≠ w := by
  obtain ⟨hfew, hall, rfl⟩ := headword?_eq_some_iff.mp h
  have hfewer := length_words_within hc hstays hgap hback (s := s)
  have hmem : ∀ d ∈ stripped s, inHeadword d = true := by
    intro d hd
    obtain ⟨u, v, r, heq, -⟩ :=
      @stripped_within front gap back c hc hstays s hback (List.ne_nil_of_mem hd)
    exact hall d (by rw [heq]; simp [hd])
  refine ⟨_, headword?_eq_some_iff.mpr ⟨hfewer.le.trans hfew, hmem, rfl⟩, fun hsame => ?_⟩
  have hlength := congrArg (fun s => (words s).length) (String.ofList_injective hsame)
  simp only [length_words_lower] at hlength
  omega

end Composer.Lexicon
