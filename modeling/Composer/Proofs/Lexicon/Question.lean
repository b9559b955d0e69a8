import Composer.Proofs.Lexicon.Headword
import Composer.Proofs.Text.Phrase
/-!
# Composer.Proofs.Lexicon.Question

**Questions about words.** A text asks about a word if it begins with a trigger or has the form
*what does … mean* (`Asks`). In the tool itself a headword is looked up as it is, unless it asks
about another word: then it is always that one, and never the text, that is looked up
(`detectFocused_of_asks`, `detectFocused_of_not_asks`).
-/

namespace Composer.Lexicon

open Text

/-! ### What asks -/

/-- Words that ask for a definition, in any letter case. -/
def IsTrigger (s : List Char) : Prop :=
  ∃ word ∈ triggers, s.map fold = word.toList

/-- A text that asks what a word means, and the word. -/
inductive Asks : List Char → List Char → Prop where
  /-- There is no word yet. -/
  | alone {trigger : List Char} (trigger_ok : IsTrigger trigger) : Asks trigger []
  /-- The word stands behind a trigger. -/
  | about {trigger gap asked : List Char} (trigger_ok : IsTrigger trigger) (gap_ok : IsGap gap)
      (line : '\n' ∉ asked) (asked_ne : asked ≠ []) : Asks (trigger ++ (gap ++ asked)) asked
  /-- The word stands between *what does* and *mean*. -/
  | mean {what does mean gap gap' gap'' asked : List Char}
      (what_ok : what.map fold = "what".toList) (gap_ok : IsGap gap)
      (does_ok : does.map fold = "does".toList) (gap_ok' : IsGap gap')
      (line : '\n' ∉ asked) (asked_ne : asked ≠ []) (gap_ok'' : IsGap gap'')
      (mean_ok : mean.map fold = "mean".toList) :
      Asks (what ++ (gap ++ (does ++ (gap' ++ (asked ++ (gap'' ++ mean)))))) asked

/-- What a phrase asks about. -/
def asked? (s : List Char) : Option (List Char) :=
  triggerPhrase s <|> meanPhrase s

/-- What a trigger goes on as. -/
def afterTrigger : Reading (List Char) :=
  firstOf [
    maybeBlanks <| optionally (char ':') <| blanks fun s =>
      (shortest inLine questionEnd s).map (·.1),
    fun s => (questionEnd s).map fun _ => []]

theorem triggerPhrase_eq : triggerPhrase = keywordAmong triggers fun _ => afterTrigger := rfl

theorem inLine_of_not_mem {s : List Char} (h : '\n' ∉ s) : ∀ c ∈ s, inLine c = true := by
  intro c hc
  rw [inLine, decide_eq_true_eq]
  rintro rfl
  exact h hc

theorem not_mem_of_inLine {s : List Char} (h : ∀ c ∈ s, inLine c = true) : '\n' ∉ s :=
  fun hmem => absurd (h _ hmem) (by decide)

/-! ### What asks is read -/

theorem isSome_afterTrigger {gap asked : List Char} (hgap : IsGap gap) (hline : '\n' ∉ asked)
    (hasked : asked ≠ []) : (afterTrigger (gap ++ asked)).isSome = true := by
  have hshortest : (shortest inLine questionEnd (asked ++ [])).isSome = true :=
    isSome_shortest (inLine_of_not_mem hline) hasked rfl
  rw [List.append_nil] at hshortest
  have hway : (maybeBlanks (optionally (char ':') (blanks fun s =>
      (shortest inLine questionEnd s).map (·.1))) (gap ++ asked)).isSome = true := by
    refine isSome_optionally (isSome_optionally (isSome_blanks hgap.2 hgap.1 ?_))
    rw [Option.isSome_map, hshortest]
  obtain ⟨b, hb⟩ := Option.isSome_iff_exists.mp hway
  exact Option.isSome_of_eq_some (firstOf_of_eq_some hb _)

/-- A text that asks is read as a phrase. -/
theorem isSome_asked? {s asked : List Char} (h : Asks s asked) : (asked? s).isSome = true := by
  rw [asked?, Option.orElse_eq_orElse, Option.orElse_eq_or, Option.isSome_or, Bool.or_eq_true]
  cases h with
  | alone htrigger =>
      obtain ⟨word, hword, hfold⟩ := htrigger
      have hread : (triggerPhrase (s ++ [])).isSome = true := isSome_keywordAmong hword hfold rfl
      rw [List.append_nil] at hread
      exact Or.inl hread
  | about htrigger hgap hline hasked =>
      obtain ⟨word, hword, hfold⟩ := htrigger
      exact Or.inl (isSome_keywordAmong hword hfold (isSome_afterTrigger hgap hline hasked))
  | @mean what does mean _ _ _ asked hwhat hgap hdoes hgap' hline hasked hgap'' hmean =>
      have hend : (keyword "mean" questionEnd (mean ++ [])).isSome = true := by
        rw [keyword_append hmean]
        rfl
      rw [List.append_nil] at hend
      refine Or.inr ?_
      rw [meanPhrase, keyword_append hwhat]
      refine isSome_blanks hgap.2 hgap.1 ?_
      rw [keyword_append hdoes]
      refine isSome_blanks hgap'.2 hgap'.1 ?_
      rw [Option.isSome_map]
      exact isSome_shortest (inLine_of_not_mem hline) hasked (isSome_blanks hgap''.2 hgap''.1 hend)

/-! ### What is read asks

A colon may stand behind a trigger and a question mark at the end. Neither is in a headword. -/

theorem questionEnd_eq_some {s : List Char} (hmark : '?' ∉ s) (h : questionEnd s = some ()) :
    s = [] := by
  cases s with
  | nil => rfl
  | cons c s =>
      have hc : c ≠ '?' := fun hc => hmark (hc ▸ List.mem_cons_self)
      rw [questionEnd, optionally_of_eq_none (char_cons_of_ne hc _ s)] at h
      cases h

theorem asks_of_triggerPhrase {s asked : List Char} (hcolon : ':' ∉ s) (hmark : '?' ∉ s)
    (h : triggerPhrase s = some asked) : Asks s asked := by
  rw [triggerPhrase_eq] at h
  obtain ⟨word, hword, trigger, r, rfl, hfold, hafter⟩ := keywordAmong_eq_some h
  have htrigger : IsTrigger trigger := ⟨word, hword, hfold⟩
  obtain ⟨way, hway, hread⟩ := firstOf_eq_some hafter
  simp only [List.mem_cons, List.not_mem_nil, or_false] at hway
  rcases hway with rfl | rfl
  · obtain ⟨ws, _, hws, rfl, hopt⟩ := maybeBlanks_eq_some hread
    rw [optionally_of_eq_none] at hopt
    · obtain ⟨gap, _, hblank, hne, rfl, hrest⟩ := blanks_eq_some hopt
      obtain ⟨⟨taken, u⟩, hshortest, rfl⟩ := Option.map_eq_some_iff.mp hrest
      obtain ⟨hline, _, rfl, hend⟩ := shortest_eq_some hshortest
      obtain rfl := questionEnd_eq_some (fun hmem => hmark (by simp [hmem])) hend
      have hgap : IsGap (ws ++ gap) := IsGap.append_left ⟨hne, hblank⟩ hws
      rw [List.append_nil, ← List.append_assoc ws]
      exact .about htrigger hgap (not_mem_of_inLine hline) (ne_nil_of_shortest hshortest)
    · refine char_of_head?_ne (fun d hd => ?_) _
      rintro rfl
      exact hcolon (by simp [List.mem_of_mem_head? hd])
  · obtain ⟨_, hend, rfl⟩ := Option.map_eq_some_iff.mp hread
    obtain rfl := questionEnd_eq_some (fun hmem => hmark (by simp [hmem])) hend
    rw [List.append_nil]
    exact .alone htrigger

theorem asks_of_meanPhrase {s asked : List Char} (hmark : '?' ∉ s)
    (h : meanPhrase s = some asked) : Asks s asked := by
  obtain ⟨what, _, rfl, hwhat, hgap⟩ := keyword_eq_some h
  obtain ⟨gap, _, hblank, hne, rfl, hread⟩ := blanks_eq_some hgap
  obtain ⟨does, _, rfl, hdoes, hgap'⟩ := keyword_eq_some hread
  obtain ⟨gap', _, hblank', hne', rfl, hread'⟩ := blanks_eq_some hgap'
  obtain ⟨⟨taken, u⟩, hshortest, rfl⟩ := Option.map_eq_some_iff.mp hread'
  obtain ⟨hline, _, rfl, hgap''⟩ := shortest_eq_some hshortest
  obtain ⟨gap'', _, hblank'', hne'', rfl, hread''⟩ := blanks_eq_some hgap''
  obtain ⟨mean, _, rfl, hmean, hend⟩ := keyword_eq_some hread''
  obtain rfl := questionEnd_eq_some (fun hmem => hmark (by simp [hmem])) hend
  rw [List.append_nil]
  exact .mean hwhat ⟨hne, hblank⟩ hdoes ⟨hne', hblank'⟩ (not_mem_of_inLine hline)
    (ne_nil_of_shortest hshortest) ⟨hne'', hblank''⟩ hmean

/-- What is read as a phrase asks, if there is no mark in it. -/
theorem asks_of_asked? {s asked : List Char} (hcolon : ':' ∉ s) (hmark : '?' ∉ s)
    (h : asked? s = some asked) : Asks s asked := by
  rw [asked?, Option.orElse_eq_orElse, Option.orElse_eq_or, Option.or_eq_some_iff] at h
  rcases h with h | ⟨-, h⟩
  · exact asks_of_triggerPhrase hcolon hmark h
  · exact asks_of_meanPhrase hmark h

/-! ### Only one word is asked about

A text that asks can be cut in one way only, up to the blanks around the word. -/

/-- What stands behind a trigger: nothing, or a gap first. -/
def Behind (s r : List Char) : Prop :=
  ∃ trigger, IsTrigger trigger ∧ s = trigger ++ r ∧ ∀ c ∈ r.head?, isBlank c = true

/-- What stands between *what does* and *mean*. -/
def Between (s r : List Char) : Prop :=
  ∃ what gap does mean, what.map fold = "what".toList ∧ IsGap gap ∧
    does.map fold = "does".toList ∧ mean.map fold = "mean".toList ∧
    s = what ++ (gap ++ (does ++ (r ++ mean)))

/-- No trigger goes on as another one behind a blank. -/
theorem IsTrigger.eq_of_isPrefix {s r s' r' : List Char} (hs : IsTrigger s) (hs' : IsTrigger s')
    (hr : ∀ c ∈ r.head?, isBlank c = true) (h : s ++ r = s' ++ r') (hle : s <+: s') : s = s' := by
  obtain ⟨z, rfl⟩ := hle
  cases z with
  | nil => exact (List.append_nil s).symm
  | cons c z =>
      obtain ⟨word, hword, hfold⟩ := hs
      obtain ⟨word', hword', hfold'⟩ := hs'
      rw [List.append_assoc, List.append_cancel_left_eq] at h
      have hblank : isBlank c = true := hr c (by rw [h]; rfl)
      have hapart : ∀ word ∈ triggers, ∀ word' ∈ triggers, word.toList <+: word'.toList →
          (word'.toList.drop word.toList.length).head?.any isBlank = false := by decide
      have hgoes := hapart word hword word' hword'
      rw [← hfold', ← hfold, List.map_append, List.length_map,
        List.drop_left' (List.length_map _), List.map_cons, List.head?_cons, fold_of_isBlank hblank,
        Option.any_some, hblank] at hgoes
      cases hgoes (List.prefix_append _ _)

theorem Behind.unique {s r r' : List Char} (h : Behind s r) (h' : Behind s r') : r = r' := by
  obtain ⟨trigger, htrigger, rfl, hr⟩ := h
  obtain ⟨trigger', htrigger', heq, hr'⟩ := h'
  have hsame : trigger = trigger' := by
    rcases List.prefix_or_prefix_of_prefix (List.prefix_append trigger r)
      (heq ▸ List.prefix_append trigger' r') with hle | hle
    · exact htrigger.eq_of_isPrefix htrigger' hr heq hle
    · exact (htrigger'.eq_of_isPrefix htrigger hr' heq.symm hle).symm
  rw [hsame] at heq
  exact List.append_cancel_left heq

theorem Between.unique {s r r' : List Char} (h : Between s r) (h' : Between s r') : r = r' := by
  obtain ⟨what, gap, does, mean, hwhat, hgap, hdoes, hmean, rfl⟩ := h
  obtain ⟨what', gap', does', mean', hwhat', hgap', hdoes', hmean', heq⟩ := h'
  have hlength {s s' : List Char} {word : String} (hs : s.map fold = word.toList)
      (hs' : s'.map fold = word.toList) : s.length = s'.length := by
    rw [← List.length_map (f := fold), hs, ← hs', List.length_map]
  have hstop {s r : List Char} (hs : s.map fold = "does".toList) :
      ∀ c ∈ (s ++ r).head?, isBlank c = false :=
    (isLetters_of_map_fold hs (by decide) (by decide)).isWord.head?_append r
  obtain ⟨-, hbehind⟩ := List.append_inj heq (hlength hwhat hwhat')
  -- The gap ends where the next word begins.
  have hdrop := (takeWhile_append_of_stop hgap.2 (hstop (r := r ++ mean) hdoes)).2
  rw [hbehind, (takeWhile_append_of_stop hgap'.2 (hstop hdoes')).2] at hdrop
  obtain ⟨-, hrest⟩ := List.append_inj hdrop (hlength hdoes' hdoes)
  exact (List.append_inj' hrest (hlength hmean' hmean)).1.symm

/-- Only one trigger begins like *what does*, and it goes on differently. -/
theorem Behind.not_between {s r r' : List Char} (h : Behind s r) : ¬ Between s r' := by
  rintro ⟨what, gap, does, mean, hwhat, hgap, hdoes, -, heq⟩
  obtain ⟨trigger, ⟨word, hword, hfold⟩, rfl, -⟩ := h
  obtain ⟨c, ws, rfl⟩ := List.exists_cons_of_ne_nil hgap.1
  have hfolded := congrArg (List.map fold) heq
  simp only [List.map_append, hfold, hwhat, hdoes, List.map_cons] at hfolded
  simp only [triggers, List.mem_cons, List.not_mem_nil, or_false] at hword
  rcases hword with rfl | rfl | rfl | rfl | rfl | rfl | rfl
  iterate 6
    · cases hfolded
  -- Behind *what* and a blank comes an *i*.
  · have hnext := congrArg (fun s => s[5]?) hfolded
    cases ws with
    | nil => exact absurd (Option.some.inj hnext) (by decide)
    | cons d ws =>
        have hd : fold d = 'i' := (Option.some.inj hnext).symm
        have hblank : isBlank d = true := hgap.2 d (List.mem_cons_of_mem c List.mem_cons_self)
        rw [fold_of_isBlank hblank] at hd
        rw [hd] at hblank
        cases hblank

theorem Asks.exists_rest {s asked : List Char} (h : Asks s asked) :
    ∃ r, trim asked = trim r ∧ (Behind s r ∨ Between s r) := by
  cases h with
  | alone htrigger =>
      exact ⟨[], rfl, Or.inl ⟨s, htrigger, (List.append_nil s).symm, by simp⟩⟩
  | @about trigger gap asked htrigger hgap =>
      obtain ⟨c, ws, rfl⟩ := List.exists_cons_of_ne_nil hgap.1
      refine ⟨_, (trim_blanks_append hgap.2 asked).symm, Or.inl ⟨trigger, htrigger, rfl, ?_⟩⟩
      simpa using hgap.2 c List.mem_cons_self
  | @mean what does mean gap gap' gap'' asked hwhat hgap hdoes hgap' _ _ hgap'' hmean =>
      refine ⟨gap' ++ (asked ++ gap''), ?_, Or.inr ⟨what, gap, does, mean, hwhat, hgap, hdoes, hmean,
        by simp only [List.append_assoc]⟩⟩
      rw [trim_blanks_append hgap'.2, trim_append_blanks hgap''.2]

theorem Asks.trim_eq {s asked asked' : List Char} (h : Asks s asked) (h' : Asks s asked') :
    trim asked = trim asked' := by
  obtain ⟨r, hasked, hr⟩ := h.exists_rest
  obtain ⟨r', hasked', hr'⟩ := h'.exists_rest
  have hsame : r = r' := by
    rcases hr with hr | hr
    · rcases hr' with hr' | hr'
      · exact hr.unique hr'
      · exact absurd hr' hr.not_between
    · rcases hr' with hr' | hr'
      · exact absurd hr hr'.not_between
      · exact hr.unique hr'
  rw [hasked, hasked', hsame]

/-! ### Headwords that ask -/

theorem exists_stays_of_map_fold {s : List Char} {word : String} (h : s.map fold = word.toList)
    (hword : word.toList.head?.any Char.isLower = true) : ∃ c ∈ s, Stays c := by
  obtain ⟨d, hhead, hd⟩ := (Option.any_eq_true _ _).mp hword
  rw [← h, List.head?_map] at hhead
  obtain ⟨c, hc, rfl⟩ := Option.map_eq_some_iff.mp hhead
  exact ⟨c, List.mem_of_mem_head? hc, stays_of_isKeywordLetter hd⟩

theorem IsTrigger.exists_stays {s : List Char} (h : IsTrigger s) : ∃ c ∈ s, Stays c := by
  obtain ⟨word, hword, hfold⟩ := h
  have hletter : ∀ word ∈ triggers, word.toList.head?.any Char.isLower = true := by decide
  exact exists_stays_of_map_fold hfold (hletter word hword)

/-- The word that a headword asks about is another headword. -/
theorem Asks.exists_headword? {s asked : List Char} (h : Asks s asked) {w : String}
    (hw : headword? s = some w) : ∃ v, headword? asked = some v ∧ v ≠ w := by
  cases h with
  | alone htrigger =>
      obtain ⟨d, hd, hstays⟩ := htrigger.exists_stays
      obtain ⟨-, -, rfl⟩ := headword?_eq_some_iff.mp hw
      refine ⟨String.ofList [], rfl, fun hsame => hstays.words_ne_nil (mem_stripped hstays hd) ?_⟩
      rw [← List.length_eq_zero_iff, ← length_words_lower, ← String.ofList_injective hsame]
      rfl
  | about htrigger hgap =>
      obtain ⟨d, hd, hstays⟩ := htrigger.exists_stays
      refine exists_headword?_of_within hd hstays hgap (Or.inl rfl) ?_
      rwa [List.append_nil]
  | @mean what does mean gap _ gap'' _ hwhat _ _ hgap' _ _ _ hmean =>
      obtain ⟨d, hd, hstays⟩ := exists_stays_of_map_fold hwhat (by decide)
      obtain ⟨e, he, hestays⟩ := exists_stays_of_map_fold hmean (by decide)
      have hfront : d ∈ what ++ (gap ++ does) := List.mem_append_left _ hd
      refine exists_headword?_of_within hfront hstays hgap'
        (Or.inr ⟨e, List.mem_append_right gap'' he, hestays⟩) ?_
      simpa only [List.append_assoc] using hw

/-! ### The tool itself -/

theorem detectFocused_eq {text : List Char} (h : ¬ ∀ c ∈ text, isBlank c = true) :
    detectFocused text = (((asked? (trim text)).bind headword?).map Definition.ofWord).or
      ((headword? text).map Definition.ofWord) := by
  have hne : (trim text).isEmpty = false := List.isEmpty_eq_false_iff.mpr (trim_ne_nil h)
  rw [detectFocused, detect, hne, trim_trim, headword?_congr (trim_trim text),
    if_neg Bool.false_ne_true, Option.orElse_eq_orElse, Option.orElse_eq_or]
  rfl

/-- No mark is in a headword. -/
theorem not_mem_of_headword? {s : List Char} {w : String} (h : headword? s = some w) :
    ':' ∉ s ∧ '?' ∉ s := by
  obtain ⟨-, hall, -⟩ := headword?_eq_some_iff.mp h
  exact ⟨fun hmem => absurd (hall ':' (mem_stripped ⟨rfl, rfl⟩ hmem)) (by decide),
    fun hmem => absurd (hall '?' (mem_stripped ⟨rfl, rfl⟩ hmem)) (by decide)⟩

section

variable {text : List Char} (htext : ¬ ∀ c ∈ text, isBlank c = true) {w : String}
  (hw : headword? text = some w)
include htext hw

/-- A headword that asks about another word is not looked up itself. -/
theorem detectFocused_of_asks {asked : List Char} (h : Asks (trim text) asked) :
    ∃ v, headword? asked = some v ∧ v ≠ w ∧ detectFocused text = some (.ofWord v) := by
  rw [← headword?_congr (trim_trim text)] at hw
  obtain ⟨hcolon, hmark⟩ := not_mem_of_headword? hw
  obtain ⟨raw, hraw⟩ := Option.isSome_iff_exists.mp (isSome_asked? h)
  obtain ⟨v, hv, hne⟩ := h.exists_headword? hw
  have hsame : headword? raw = headword? asked :=
    headword?_congr ((asks_of_asked? hcolon hmark hraw).trim_eq h)
  refine ⟨v, hv, hne, ?_⟩
  rw [detectFocused_eq htext, hraw, Option.bind_some, hsame, hv]
  rfl

/-- Any other headword is. -/
theorem detectFocused_of_not_asks (h : ∀ asked, ¬ Asks (trim text) asked) :
    detectFocused text = some (.ofWord w) := by
  have hnone : asked? (trim text) = none := by
    rw [Option.eq_none_iff_forall_ne_some]
    intro asked hasked
    rw [← headword?_congr (trim_trim text)] at hw
    obtain ⟨hcolon, hmark⟩ := not_mem_of_headword? hw
    exact h asked (asks_of_asked? hcolon hmark hasked)
  rw [detectFocused_eq htext, hnone, hw]
  rfl

end

end Composer.Lexicon
