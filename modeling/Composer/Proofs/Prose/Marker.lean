import Composer.Proofs.Prose.Count
/-!
# Composer.Proofs.Prose.Marker

**Texts that ask to be counted.** A text may begin with a marker, and then it is the rest that is
counted (`Marked`). That holds in the tool itself as well: a text is counted as a whole there unless
it begins with a marker, and behind a marker the count is always another one
(`detectFocused_of_marked`, `detectFocused_of_not_marked`).
-/

namespace Composer.Prose

open Text

/-! ### Markers -/

/-- The words that ask for a count, in any letter case. -/
inductive IsMarker : List Char → Prop where
  /-- The short form. -/
  | wc {s : List Char} (eq : s.map fold = "wc".toList) : IsMarker s
  /-- *word count*, also in one word. -/
  | wordCount {s ws r : List Char} (word : s.map fold = "word".toList)
      (blank : ∀ c ∈ ws, isBlank c = true) (count : r.map fold = "count".toList) :
      IsMarker (s ++ (ws ++ r))
  /-- *count words*. -/
  | countWords {s gap r : List Char} (count : s.map fold = "count".toList) (gap_ok : IsGap gap)
      (words : r.map fold = "words".toList) : IsMarker (s ++ (gap ++ r))

/-- A text that begins with a marker, and the text behind it. -/
inductive Marked : List Char → List Char → Prop where
  /-- A colon sets off the text. -/
  | colon {marker ws body : List Char} (marker_ok : IsMarker marker)
      (blank : ∀ c ∈ ws, isBlank c = true) : Marked (marker ++ (ws ++ ':' :: body)) body
  /-- Blanks set off the text. -/
  | blank {marker gap body : List Char} {c : Char} (marker_ok : IsMarker marker)
      (gap_ok : IsGap gap) (first : isBlank c = false) (first_ne : c ≠ ':') :
      Marked (marker ++ (gap ++ c :: body)) (c :: body)
  /-- There is no text yet. -/
  | alone {marker : List Char} (marker_ok : IsMarker marker) : Marked marker []

/-- Behind a marker nothing else is read than what may follow it. -/
theorem phrase_append {marker : List Char} (h : IsMarker marker) (r : List Char) :
    phrase (marker ++ r) = afterMarker r := by
  rw [phrase]
  cases h with
  | wc hwc =>
      have hword {way : Reading (List Char)} : keyword "word" way (marker ++ r) = none :=
        keyword_append_of_not_prefix (by rw [hwc]; decide) (by rw [hwc]; decide) _ _
      have hcount {way : Reading (List Char)} : keyword "count" way (marker ++ r) = none :=
        keyword_append_of_not_prefix (by rw [hwc]; decide) (by rw [hwc]; decide) _ _
      rw [firstOf_of_rest_eq_none ((firstOf_of_eq_none hword _).trans (firstOf_of_eq_none hcount _)),
        keyword_append hwc]
  | @wordCount s ws t hs hws ht =>
      have hwc {way : Reading (List Char)} : keyword "wc" way (s ++ (ws ++ (t ++ r))) = none :=
        keyword_append_of_not_prefix (by rw [hs]; decide) (by rw [hs]; decide) _ _
      have hcount {way : Reading (List Char)} : keyword "count" way (s ++ (ws ++ (t ++ r))) = none :=
        keyword_append_of_not_prefix (by rw [hs]; decide) (by rw [hs]; decide) _ _
      have hword : IsWord t := (isLetters_of_map_fold ht (by decide) (by decide)).isWord
      rw [List.append_assoc, List.append_assoc, firstOf_of_eq_none hwc,
        firstOf_of_rest_eq_none (firstOf_of_eq_none hcount _), keyword_append hs,
        maybeBlanks_append_word hws hword (skipsNoBlank_keyword (c := 'c') rfl rfl _),
        keyword_append ht]
  | @countWords s gap t hs hgap ht =>
      have hwc {way : Reading (List Char)} : keyword "wc" way (s ++ (gap ++ (t ++ r))) = none :=
        keyword_append_of_not_prefix (by rw [hs]; decide) (by rw [hs]; decide) _ _
      have hword {way : Reading (List Char)} : keyword "word" way (s ++ (gap ++ (t ++ r))) = none :=
        keyword_append_of_not_prefix (by rw [hs]; decide) (by rw [hs]; decide) _ _
      have hword' : IsWord t := (isLetters_of_map_fold ht (by decide) (by decide)).isWord
      rw [List.append_assoc, List.append_assoc, firstOf_of_eq_none hwc, firstOf_of_eq_none hword,
        firstOf_of_rest_eq_none rfl, keyword_append hs,
        blanks_append_word hgap.2 hgap.1 hword' (Or.inl (skipsNoBlank_keyword (c := 'w') rfl rfl _)),
        keyword_append ht]

theorem phrase_of_marked {s body : List Char} (h : Marked s body) : phrase s = some body := by
  cases h with
  | @colon marker ws body hmarker hws =>
      rw [phrase_append hmarker, afterMarker]
      refine firstOf_of_eq_some ?_ _
      rw [maybeBlanks_append hws (skipsNoBlank_char (by decide) some) (by decide), char_cons]
  | @blank marker gap body c hmarker hgap hc hcolon =>
      have hnone : maybeBlanks (Text.char ':' some) (gap ++ c :: body) = none := by
        rw [maybeBlanks_append hgap.2 (skipsNoBlank_char (by decide) some) hc,
          char_cons_of_ne hcolon]
      rw [phrase_append hmarker, afterMarker, firstOf_of_eq_none hnone]
      refine firstOf_of_eq_some ?_ _
      exact blanks_append hgap.2 hgap.1 (by simpa using hc) (Or.inr rfl)
  | alone hmarker =>
      have happend := phrase_append hmarker []
      rw [List.append_nil] at happend
      exact happend

/-- What is read as a phrase begins with a marker. -/
theorem exists_marker_of_phrase {s body : List Char} (h : phrase s = some body) :
    ∃ marker r, s = marker ++ r ∧ IsMarker marker ∧ afterMarker r = some body := by
  obtain ⟨way, hway, hread⟩ := firstOf_eq_some h
  simp only [List.mem_cons, List.not_mem_nil, or_false] at hway
  rcases hway with rfl | rfl | rfl
  · obtain ⟨marker, r, rfl, hwc, hafter⟩ := keyword_eq_some hread
    exact ⟨marker, r, rfl, .wc hwc, hafter⟩
  · obtain ⟨s, _, rfl, hs, hgap⟩ := keyword_eq_some hread
    obtain ⟨ws, _, hws, rfl, hcount⟩ := maybeBlanks_eq_some hgap
    obtain ⟨t, r, rfl, ht, hafter⟩ := keyword_eq_some hcount
    exact ⟨s ++ (ws ++ t), r, by simp only [List.append_assoc], .wordCount hs hws ht, hafter⟩
  · obtain ⟨s, _, rfl, hs, hgap⟩ := keyword_eq_some hread
    obtain ⟨ws, _, hws, hne, rfl, hwords⟩ := blanks_eq_some hgap
    obtain ⟨t, r, rfl, ht, hafter⟩ := keyword_eq_some hwords
    have hgap : IsGap ws := ⟨hne, hws⟩
    exact ⟨s ++ (ws ++ t), r, by simp only [List.append_assoc], .countWords hs hgap ht, hafter⟩

/-- A text without blanks at its end that is read as a phrase is one that asks to be counted. -/
theorem marked_of_phrase {s body : List Char} (hs : ∀ c ∈ s.getLast?, isBlank c = false)
    (h : phrase s = some body) : ∃ body', Marked s body' := by
  obtain ⟨marker, r, rfl, hmarker, hafter⟩ := exists_marker_of_phrase h
  obtain ⟨way, hway, hread⟩ := firstOf_eq_some hafter
  simp only [List.mem_cons, List.not_mem_nil, or_false] at hway
  rcases hway with rfl | rfl | rfl
  · obtain ⟨ws, _, hws, rfl, hcolon⟩ := maybeBlanks_eq_some hread
    obtain ⟨body', rfl, -⟩ := char_eq_some hcolon
    exact ⟨body', .colon hmarker hws⟩
  · obtain ⟨ws, rest, hws, hne, rfl, -⟩ := blanks_eq_some hread
    have hlast : ∀ c ∈ (ws ++ rest).getLast?, isBlank c = false := by
      intro c hc
      rw [List.getLast?_append, hc] at hs
      exact hs c rfl
    have hword := not_forall_isBlank_of_append hws hne hlast
    obtain ⟨ws', c, body', rfl, hws', hc⟩ := exists_first hword
    have hgap : IsGap (ws ++ ws') := IsGap.append_right ⟨hne, hws⟩ hws'
    rw [← List.append_assoc ws]
    by_cases hcolon : c = ':'
    · subst hcolon
      exact ⟨body', .colon hmarker hgap.2⟩
    · exact ⟨c :: body', .blank hmarker hgap hc hcolon⟩
  · cases r with
    | cons c r => cases hread
    | nil =>
        rw [List.append_nil]
        exact ⟨[], .alone hmarker⟩

/-! ### Counts in the tool itself -/

theorem charactersNoSpaces_count (text : List Char) :
    (count text).charactersNoSpaces = text.countP (!isBlank ·) := by
  by_cases h : ∀ c ∈ text, isBlank c = true
  · rw [count, trim_of_isBlank h, countP_blanks h]
    rfl
  · exact (count_eq h).2.1

theorem IsMarker.countP_pos {marker : List Char} (h : IsMarker marker) :
    0 < marker.countP (!isBlank ·) := by
  have hpos {s r : List Char} (hs : IsWord s) : 0 < (s ++ r).countP (!isBlank ·) := by
    rw [List.countP_pos_iff]
    exact ⟨_, List.mem_append_left r (List.head_mem hs.1), by simp [hs.2 _ (List.head_mem hs.1)]⟩
  cases h with
  | wc hwc =>
      have hletters := isLetters_of_map_fold hwc (by decide) (by decide)
      simpa using hpos (r := []) hletters.isWord
  | wordCount hs => exact hpos (isLetters_of_map_fold hs (by decide) (by decide)).isWord
  | countWords hs => exact hpos (isLetters_of_map_fold hs (by decide) (by decide)).isWord

/-- The marker has characters of its own. -/
theorem Marked.countP_lt {s body : List Char} (h : Marked s body) :
    body.countP (!isBlank ·) < s.countP (!isBlank ·) := by
  cases h with
  | colon hmarker =>
      have hpos := hmarker.countP_pos
      rw [List.countP_append, List.countP_append, List.countP_cons]
      omega
  | blank hmarker =>
      have hpos := hmarker.countP_pos
      rw [List.countP_append, List.countP_append]
      omega
  | alone hmarker => exact hmarker.countP_pos

theorem detectFocused_eq {text : List Char} (h : ¬ ∀ c ∈ text, isBlank c = true) :
    detectFocused text = some (((phrase (trim text)).map count).getD (count text)) := by
  rw [detectFocused, allBlank_eq_false_iff.mpr h, detect]
  cases phrase (trim text) <;> rfl

/-- Behind a marker the rest is counted, and never with the same result. -/
theorem detectFocused_of_marked {text body : List Char} (h : Marked (trim text) body) :
    detectFocused text = some (count body) ∧ count body ≠ count text := by
  have hfewer := h.countP_lt
  rw [countP_trim] at hfewer
  have htext : ¬ ∀ c ∈ text, isBlank c = true := by
    intro hblank
    rw [countP_blanks hblank] at hfewer
    exact absurd hfewer (Nat.not_lt_zero _)
  refine ⟨?_, fun hsame => ?_⟩
  · rw [detectFocused_eq htext, phrase_of_marked h]
    rfl
  · have hsum := congrArg Count.charactersNoSpaces hsame
    rw [charactersNoSpaces_count, charactersNoSpaces_count] at hsum
    omega

/-- Any other text is counted as a whole. -/
theorem detectFocused_of_not_marked {text : List Char} (htext : ¬ ∀ c ∈ text, isBlank c = true)
    (h : ∀ body, ¬ Marked (trim text) body) : detectFocused text = some (count text) := by
  rw [detectFocused_eq htext]
  cases hphrase : phrase (trim text) with
  | none => rfl
  | some body =>
      obtain ⟨body', hmarked⟩ := marked_of_phrase not_isBlank_of_getLast?_trim hphrase
      exact absurd hmarked (h body')

end Composer.Prose
