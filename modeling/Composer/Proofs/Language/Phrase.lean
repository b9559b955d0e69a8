import Composer.Language.Translation
import Composer.Proofs.Text.Phrase
import Composer.Proofs.Text.Words
/-!
# Composer.Proofs.Language.Phrase

**The last words of a request.** The language of a translation is the last word of a phrase, and the
word before it connects it to the text; with the language of the text there are two words more.
Whatever connecting words and languages the text holds itself, a reading of these last words takes
the same number of words each time (`TakesWords`). So of all ways to cut a phrase there is one that
leaves the whole text (`blanks_shortest_append`).
-/

namespace Composer.Language

open Text

/-! ### Connecting words -/

/-- The words before the language of a translation. -/
def connectors : List String := ["to", "into", "in"]

/-- A connecting word in any letter case. -/
def IsConnector (s : List Char) : Prop :=
  ∃ word ∈ connectors, s.map fold = word.toList

theorem isLower_of_mem_connectors : ∀ word ∈ connectors, ∀ c ∈ word.toList, c.isLower = true := by
  simp [connectors]

theorem IsConnector.isLetters {s : List Char} (h : IsConnector s) : IsLetters s := by
  obtain ⟨word, hword, hs⟩ := h
  have hfull : ∀ word ∈ connectors, word.toList ≠ [] := by decide
  exact isLetters_of_map_fold hs (hfull word hword)
    (List.all_eq_true.mpr (isLower_of_mem_connectors word hword))

/-! ### Words at the end -/

theorem word_append {β : Type} {s : List Char} (h : IsLetters s) {r : List Char}
    (hr : ∀ c ∈ r.head?, isKeywordLetter c = false) (k : List Char → Reading β) :
    word k (s ++ r) = k s r :=
  run_append h.2 (decide_eq_true (List.length_pos_iff.mpr h.1)) hr k

theorem word_eq_some {β : Type} {k : List Char → Reading β} {s : List Char} {b : β}
    (h : word k s = some b) : ∃ taken r, s = taken ++ r ∧ IsLetters taken ∧ k taken r = some b := by
  rw [word, run] at h
  split at h
  · next hsize =>
      have hne : s.takeWhile isKeywordLetter ≠ [] :=
        List.length_pos_iff.mp (of_decide_eq_true hsize)
      exact ⟨_, _, List.takeWhile_append_dropWhile.symm,
        ⟨hne, fun c hc => List.mem_takeWhile_imp hc⟩, h⟩
  · cases h

/-- The connecting word and the language at the end of a phrase. -/
def targetAtEnd {β : Type} (f : List Char → β) : Reading β :=
  blanks <| toWord <| blanks <| word fun target => stop (f target)

/-- The language that the text is in, and behind it the language of the translation. -/
def pairAtEnd : Reading (List Char × List Char) :=
  blanks <| keyword "from" <| blanks <| word fun source => targetAtEnd (source, ·)

theorem trailingPhrase_eq : trailingPhrase = shortest anyChar (targetAtEnd id) := rfl

theorem fromToPhrase_eq :
    fromToPhrase = keyword "translate" (blanks (shortest anyChar pairAtEnd)) := rfl

/-- The last two words are the connecting word and the language. -/
theorem targetAtEnd_eq_some {β : Type} {f : List Char → β} {s : List Char} {b : β}
    (h : targetAtEnd f s = some b) :
    ∃ taken target, IsConnector taken ∧ IsLetters target ∧ b = f target ∧
      ∀ u, words (u ++ s) = words u ++ [taken, target] := by
  obtain ⟨ws, _, hws, hne, rfl, hword⟩ := blanks_eq_some h
  obtain ⟨word, hmem, taken, _, rfl, hfold, hbehind⟩ := keywordAmong_eq_some hword
  obtain ⟨gap, _, hgap, hne', rfl, hlanguage⟩ := blanks_eq_some hbehind
  obtain ⟨target, r, rfl, htarget, hstop⟩ := word_eq_some hlanguage
  have hconnector : IsConnector taken := ⟨word, hmem, hfold⟩
  cases r with
  | cons c r => cases hstop
  | nil =>
      refine ⟨taken, target, hconnector, htarget, (Option.some.inj hstop).symm, fun u => ?_⟩
      rw [List.append_nil, words_append hws hne, words_append hgap hne',
        hconnector.isLetters.words_eq, htarget.words_eq]
      rfl

/-- The last four words are *from*, a language, the connecting word and the other language. -/
theorem pairAtEnd_eq_some {s source target : List Char} (h : pairAtEnd s = some (source, target)) :
    ∃ taken connector, taken.map fold = "from".toList ∧ IsLetters source ∧ IsConnector connector ∧
      ∀ u, words (u ++ s) = words u ++ [taken, source, connector, target] := by
  obtain ⟨ws, _, hws, hne, rfl, hword⟩ := blanks_eq_some h
  obtain ⟨taken, _, rfl, hfold, hbehind⟩ := keyword_eq_some hword
  obtain ⟨gap, _, hgap, hne', rfl, hlanguage⟩ := blanks_eq_some hbehind
  obtain ⟨source', r, rfl, hsource, hend⟩ := word_eq_some hlanguage
  obtain ⟨connector, target', hconnector, -, hb, hwords⟩ := targetAtEnd_eq_some hend
  obtain ⟨rfl, rfl⟩ := Prod.mk.inj hb
  have htaken : IsLetters taken := isLetters_of_map_fold hfold (by decide) (by decide)
  refine ⟨taken, connector, hfold, hsource, hconnector, fun u => ?_⟩
  rw [words_append hws hne, words_append hgap hne', hwords, htaken.words_eq, hsource.words_eq]
  rfl

/-- The reading does not go on with a letter. -/
theorem targetAtEnd_of_head? {β : Type} {f : List Char → β} {s : List Char} {b : β}
    (h : targetAtEnd f s = some b) : ∀ c ∈ s.head?, isKeywordLetter c = false :=
  endsWord_blanks _ [] s b h

section

variable {before taken gap target : List Char} (hbefore : ∀ c ∈ before, isBlank c = true)
  (hbefore_ne : before ≠ []) (htaken : IsConnector taken) (hgap : ∀ c ∈ gap, isBlank c = true)
  (hgap_ne : gap ≠ []) (htarget : IsLetters target)
include hbefore hbefore_ne htaken hgap hgap_ne htarget

theorem targetAtEnd_append {β : Type} (f : List Char → β) :
    targetAtEnd f (before ++ (taken ++ (gap ++ target))) = some (f target) := by
  have hlanguage : word (fun target => stop (f target)) (target ++ []) = some (f target) :=
    word_append htarget (by simp) _
  have hbehind := (blanks_append_word hgap hgap_ne htarget.isWord
    (Or.inr (by rw [hlanguage]; rfl))).trans hlanguage
  rw [List.append_nil] at hbehind
  have hword : toWord (blanks (word fun target => stop (f target))) (taken ++ (gap ++ target)) =
      some (f target) :=
    (keywordAmong_eq_some_iff isLower_of_mem_connectors (endsWord_blanks _) htaken.isLetters.2
      (endsWord_blanks _ [] _ _ hbehind)).mpr ⟨htaken, hbehind⟩
  exact (blanks_append_word hbefore hbefore_ne htaken.isLetters.isWord
    (Or.inr (by rw [hword]; rfl))).trans hword

theorem pairAtEnd_append {before' taken' gap' source : List Char}
    (hbefore' : ∀ c ∈ before', isBlank c = true) (hbefore_ne' : before' ≠ [])
    (htaken' : taken'.map fold = "from".toList) (hgap' : ∀ c ∈ gap', isBlank c = true)
    (hgap_ne' : gap' ≠ []) (hsource : IsLetters source) :
    pairAtEnd (before' ++ (taken' ++ (gap' ++ (source ++
      (before ++ (taken ++ (gap ++ target))))))) = some (source, target) := by
  have hend := targetAtEnd_append hbefore hbefore_ne htaken hgap hgap_ne htarget (source, ·)
  have hlanguage : word (fun source => targetAtEnd (source, ·))
      (source ++ (before ++ (taken ++ (gap ++ target)))) = some (source, target) := by
    rw [word_append hsource (targetAtEnd_of_head? hend), hend]
  have htaken_letters := isLetters_of_map_fold htaken' (by decide) (by decide)
  rw [pairAtEnd, blanks_append_word hbefore' hbefore_ne' htaken_letters.isWord
      (Or.inl (skipsNoBlank_keyword (c := 'f') rfl rfl _)), keyword_append htaken',
    blanks_append_word hgap' hgap_ne' hsource.isWord (Or.inr (by rw [hlanguage]; rfl)), hlanguage]

end

/-! ### The text before them -/

/-- The reading takes the last `n` words. -/
def TakesWords {β : Type} (n : Nat) (tail : Reading β) : Prop :=
  ∀ s b, tail s = some b → ∃ taken, taken.length = n ∧ ∀ u, words (u ++ s) = words u ++ taken

theorem takesWords_targetAtEnd {β : Type} (f : List Char → β) : TakesWords 2 (targetAtEnd f) := by
  intro s b h
  obtain ⟨taken, target, -, -, -, hwords⟩ := targetAtEnd_eq_some h
  exact ⟨[taken, target], rfl, hwords⟩

theorem takesWords_pairAtEnd : TakesWords 4 pairAtEnd := by
  intro s b h
  obtain ⟨taken, connector, -, -, -, hwords⟩ := pairAtEnd_eq_some h
  exact ⟨[taken, b.1, connector, b.2], rfl, hwords⟩

/-- **Of all ways to cut a phrase there is one that leaves the whole text.** Where the last words have
been read, the text before them is all that there is between the blanks. -/
theorem blanks_shortest_append {β : Type} {n : Nat} {tail : Reading β} (hn : TakesWords n tail)
    {lead text r : List Char} {b : β} (hlead : ∀ c ∈ lead, isBlank c = true) (hne : lead ≠ [])
    (htext : ¬ ∀ c ∈ text, isBlank c = true)
    (htail : ∀ ws, (∀ c ∈ ws, isBlank c = true) → tail (ws ++ r) = some b) :
    blanks (shortest anyChar tail) (lead ++ (text ++ r)) = some (trim text, b) := by
  obtain ⟨ws, ws', hws, hws', hsplit⟩ := trim_eq text
  have hfull := trim_ne_nil htext
  have hend := htail ws' hws'
  -- A cut before the last word of the text would leave too many words.
  have hfewer : ∀ u v, trim text = u ++ v → u ≠ [] → v ≠ [] → tail (v ++ (ws' ++ r)) = none := by
    intro u v huv _ hv
    rw [Option.eq_none_iff_forall_ne_some]
    intro b' hb'
    obtain ⟨taken, hlength, hwords⟩ := hn _ _ hend
    obtain ⟨taken', hlength', hwords'⟩ := hn _ _ hb'
    have hsame : words v ++ taken = taken' := (hwords v).symm.trans (hwords' [])
    have hnone : words v = [] := by
      rw [← List.length_eq_zero_iff]
      have hsum := congrArg List.length hsame
      rw [List.length_append] at hsum
      omega
    refine words_ne_nil (fun hblank => ?_) hnone
    have hlast : (trim text).getLast? = some (v.getLast hv) := by
      rw [huv, List.getLast?_append, List.getLast?_eq_some_getLast hv]
      rfl
    have hletter := not_isBlank_of_getLast?_trim _ hlast
    rw [hblank _ (List.getLast_mem hv)] at hletter
    cases hletter
  have hbody : shortest anyChar tail (trim text ++ (ws' ++ r)) = some (trim text, b) :=
    shortest_append (fun _ _ => rfl) hfull hfewer hend
  have hgap : ∀ c ∈ lead ++ ws, isBlank c = true := fun c hc =>
    (List.mem_append.mp hc).elim (hlead c) (hws c)
  have hhead : ∀ c ∈ (trim text ++ (ws' ++ r)).head?, isBlank c = false := by
    intro c hc
    rw [List.head?_append, List.head?_eq_some_head hfull] at hc
    obtain rfl := Option.some.inj hc
    exact not_isBlank_of_head?_trim _ (List.head?_eq_some_head hfull)
  have hwhole : lead ++ (text ++ r) = (lead ++ ws) ++ (trim text ++ (ws' ++ r)) := by
    calc lead ++ (text ++ r) = lead ++ ((ws ++ trim text ++ ws') ++ r) := by rw [← hsplit]
      _ = (lead ++ ws) ++ (trim text ++ (ws' ++ r)) := by simp only [List.append_assoc]
  rw [hwhole, blanks_append hgap (by simp [hne]) hhead (Or.inr (by rw [hbody]; rfl)), hbody]

end Composer.Language
