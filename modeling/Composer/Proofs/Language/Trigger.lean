import Composer.Proofs.Language.Request
/-!
# Composer.Proofs.Language.Trigger

**The word that asks for a translation.** In the tool itself a text is translated without any request,
into the preferred language. The word *translate* before it is recognised in any letter case and
before any blanks, but it is taken off only as it is usually typed: in lower case or with a capital,
and before a space. Any other spelling stays and is translated along with the text
(`detectFocused_trigger`).
-/

namespace Composer.Language

open Text

/-! ### Texts without a language -/

/-- Whether a text ends in a connecting word and a known language. -/
def endsInTarget (text : List Char) : Bool :=
  match (words text).reverse with
  | target :: taken :: _ =>
    connectors.any (fun word => taken.map fold = word.toList) && (code? target).isSome
  | _ => false

theorem code?_eq_none_of_words {text taken target : List Char} {u : List (List Char)}
    (h : words text = u ++ [taken, target]) (htaken : IsConnector taken)
    (hends : endsInTarget text = false) : code? target = none := by
  obtain ⟨word, hword, hfold⟩ := htaken
  have hany : connectors.any (fun word => taken.map fold = word.toList) = true :=
    List.any_eq_true.mpr ⟨word, hword, decide_eq_true hfold⟩
  simpa [endsInTarget, h, hany] using hends

/-- A request that names a language ends in two words. -/
theorem trailingPhrase_eq_some {s body target : List Char}
    (h : trailingPhrase s = some (body, target)) :
    ∃ u taken, IsConnector taken ∧ words s = u ++ [taken, target] := by
  rw [trailingPhrase_eq] at h
  obtain ⟨-, _, rfl, hend⟩ := shortest_eq_some h
  obtain ⟨taken, target', htaken, -, rfl, hwords⟩ := targetAtEnd_eq_some hend
  exact ⟨_, taken, htaken, hwords body⟩

theorem toPhrase_eq_some {s body target : List Char} (h : toPhrase s = some (body, target)) :
    ∃ u taken, IsConnector taken ∧ words s = u ++ [taken, target] := by
  obtain ⟨trigger, _, rfl, -, hblanks⟩ := keyword_eq_some h
  obtain ⟨ws, rest, hws, hne, rfl, hread⟩ := blanks_eq_some hblanks
  obtain ⟨u, taken, htaken, hwords⟩ := trailingPhrase_eq_some hread
  refine ⟨words trigger ++ u, taken, htaken, ?_⟩
  rw [words_append hws hne, hwords, List.append_assoc]

/-- Without a known language at its end a text is no request that names one. -/
theorem target_eq_none_of_detect {s : List Char} (hpair : pairPhrase (trim s) = none)
    (hshort : shortPhrase (trim s) = none)
    (hend : ∀ u taken target, words s = u ++ [taken, target] → IsConnector taken →
      code? target = none) {t : Translation} (h : detect s = some t) : t.target = none := by
  unfold detect at h
  dsimp only at h
  split at h
  -- `translate <text> from <language> to <language>`
  · next body source target heq =>
      obtain ⟨u, taken, connector, -, -, hconnector, hwords⟩ := fromToPhrase_eq_some heq
      rw [words_trim] at hwords
      have hnone : code? target = none :=
        hend (u ++ [taken, source]) connector target (by simpa using hwords) hconnector
      simp only [ofFromTo, hnone, Option.some.injEq] at h
      subst h
      cases code? source <;> rfl
  · split at h
    -- `translate <text> to <language>`
    · next body target heq =>
        obtain ⟨u, taken, htaken, hwords⟩ := toPhrase_eq_some heq
        rw [words_trim] at hwords
        simp only [ofTo, hend u taken target hwords htaken, Option.some.injEq] at h
        subst h
        rfl
    · rw [hpair] at h
      dsimp only at h
      rw [hshort] at h
      -- `translate <text>`
      obtain ⟨body, -, rfl⟩ := Option.map_eq_some_iff.mp h
      rfl

theorem trailing?_eq_none {s : List Char}
    (hend : ∀ u taken target, words s = u ++ [taken, target] → IsConnector taken →
      code? target = none) : trailing? s = none := by
  rw [Option.eq_none_iff_forall_ne_some]
  intro t h
  obtain ⟨⟨body, target⟩, hread, h⟩ := Option.bind_eq_some_iff.mp h
  obtain ⟨u, taken, htaken, hwords⟩ := trailingPhrase_eq_some hread
  dsimp only at h
  rw [hend u taken target hwords htaken] at h
  cases h

/-! ### The trigger -/

section

variable {trigger : List Char} (htrigger : trigger.map fold = "translate".toList)
include htrigger

theorem isLetters_trigger : IsLetters trigger :=
  isLetters_of_map_fold htrigger (by decide) (by decide)

/-- Behind its first two letters there is an *a*. -/
theorem exists_trigger : ∃ c d e r, trigger = c :: d :: e :: r ∧ fold e = 'a' := by
  obtain ⟨c, r, rfl, -, hr⟩ := List.map_eq_cons_iff.mp htrigger
  obtain ⟨d, r, rfl, -, hr⟩ := List.map_eq_cons_iff.mp hr
  obtain ⟨e, r, rfl, he, -⟩ := List.map_eq_cons_iff.mp hr
  exact ⟨c, d, e, r, rfl, he⟩

/-- It is no code of two letters. -/
theorem pairPhrase_trigger (s : List Char) : pairPhrase (trigger ++ s) = none := by
  obtain ⟨c, d, e, r, rfl, he⟩ := exists_trigger htrigger
  have hblank : isBlank e = false := (isLetters_trigger htrigger).isWord.2 e (by simp)
  rw [Option.eq_none_iff_forall_ne_some]
  intro b h
  obtain ⟨taken, rest, hsplit, hlength, -, hbehind⟩ := exactly_eq_some h
  have hcut : [c, d] ++ (e :: (r ++ s)) = taken ++ rest := hsplit
  obtain ⟨-, rfl⟩ := List.append_inj hcut hlength.symm
  obtain ⟨ws, rest, hws, hsplit', harrow⟩ := maybeBlanks_eq_some hbehind
  cases ws with
  | cons f ws =>
      obtain ⟨rfl, -⟩ := List.cons.inj hsplit'
      rw [hws _ List.mem_cons_self] at hblank
      cases hblank
  | nil =>
      obtain rfl : e :: (r ++ s) = rest := hsplit'
      rw [keywordAmong_cons_of_ne (d := '>') rfl (by rw [he]; decide),
        keywordAmong_cons_of_ne (d := '-') rfl (by rw [he]; decide),
        keywordAmong_cons_of_ne (d := '→') rfl (by rw [he]; decide)] at harrow
      cases harrow

theorem shortPhrase_trigger (s : List Char) : shortPhrase (trigger ++ s) = none := by
  obtain ⟨c, d, e, r, rfl, he⟩ := exists_trigger htrigger
  have hblank : isBlank e = false := (isLetters_trigger htrigger).isWord.2 e (by simp)
  have hcolon : e ≠ ':' := by
    rintro rfl
    revert he
    decide
  rw [Option.eq_none_iff_forall_ne_some]
  intro b h
  obtain ⟨taken, rest, hsplit, hfold, hbehind⟩ := keyword_eq_some h
  have hlength : taken.length = 2 := by
    have hlength := congrArg List.length hfold
    rwa [List.length_map] at hlength
  have hcut : [c, d] ++ (e :: (r ++ s)) = taken ++ rest := hsplit
  obtain ⟨-, rfl⟩ := List.append_inj hcut hlength.symm
  rw [optionally, char_cons_of_ne hcolon, blanks_of_not_isBlank hblank] at hbehind
  cases hbehind

/-- The last word of a request is one of the text behind the trigger. -/
theorem code?_eq_none_of_trigger {lead text : List Char} (hlead : ∀ c ∈ lead, isBlank c = true)
    (hne : lead ≠ []) (hends : endsInTarget text = false) {u : List (List Char)}
    {taken target : List Char} (hwords : words (trigger ++ (lead ++ text)) = u ++ [taken, target])
    (htaken : IsConnector taken) : code? target = none := by
  rw [words_append hlead hne, (isLetters_trigger htrigger).words_eq] at hwords
  cases u with
  | nil =>
      -- The trigger is no connecting word.
      obtain ⟨rfl, -⟩ := List.cons.inj hwords
      obtain ⟨word, hword, hfold⟩ := htaken
      rw [htrigger] at hfold
      have hdistinct : ∀ word ∈ connectors, "translate".toList ≠ word.toList := by decide
      exact absurd hfold (hdistinct word hword)
  | cons v u => exact code?_eq_none_of_words (List.cons.inj hwords).2 htaken hends

end

/-! ### Taking it off -/

/-- The spellings of the trigger that are taken off, with the blanks behind it. -/
def isTakenOff (trigger lead : List Char) : Bool :=
  (trigger = "translate".toList || trigger = "Translate".toList) && lead.head? = some ' '

theorem isPrefixOf_iff {word trigger : List Char} (hlength : trigger.length = word.length) (c : Char)
    (r : List Char) : (word ++ [' ']).isPrefixOf (trigger ++ c :: r) = true ↔
      trigger = word ∧ c = ' ' := by
  rw [List.isPrefixOf_iff_prefix]
  constructor
  · rintro ⟨rest, h⟩
    rw [List.append_assoc, List.singleton_append] at h
    obtain ⟨hword, hrest⟩ := List.append_inj h hlength.symm
    exact ⟨hword.symm, (List.cons.inj hrest).1.symm⟩
  · rintro ⟨rfl, rfl⟩
    exact ⟨r, by simp⟩

theorem dropTrigger_append {trigger lead : List Char} (hlength : trigger.length = 9)
    (hne : lead ≠ []) (s : List Char) : dropTrigger (trigger ++ (lead ++ s)) =
      if isTakenOff trigger lead then lead.tail ++ s else trigger ++ (lead ++ s) := by
  obtain ⟨c, lead, rfl⟩ := List.exists_cons_of_ne_nil hne
  have hlower : "translate ".toList = "translate".toList ++ [' '] := by decide
  have hupper : "Translate ".toList = "Translate".toList ++ [' '] := by decide
  have hiff : ("translate ".toList.isPrefixOf (trigger ++ (c :: lead ++ s)) ||
      "Translate ".toList.isPrefixOf (trigger ++ (c :: lead ++ s))) = true ↔
        isTakenOff trigger (c :: lead) = true := by
    rw [Bool.or_eq_true, hlower, hupper, List.cons_append, isPrefixOf_iff (by simpa using hlength),
      isPrefixOf_iff (by simpa using hlength), isTakenOff, Bool.and_eq_true, Bool.or_eq_true,
      decide_eq_true_eq, decide_eq_true_eq, decide_eq_true_eq, List.head?_cons, Option.some_inj,
      or_and_right]
  have hdrop : (trigger ++ (c :: lead ++ s)).drop 10 = lead ++ s := by
    have hlength' : (trigger ++ [c]).length = 10 := by simp [hlength]
    rw [show trigger ++ (c :: lead ++ s) = (trigger ++ [c]) ++ (lead ++ s) by simp,
      List.drop_left' hlength']
  rw [dropTrigger, hdrop]
  exact if_congr hiff rfl rfl

section

variable {trigger lead text : List Char} (htrigger : trigger.map fold = "translate".toList)
  (htext : ¬ ∀ c ∈ text, isBlank c = true)
include htrigger htext

/-- With the trigger before it a text is trimmed at its end only. -/
theorem trim_trigger : ∃ ws, (∀ c ∈ ws, isBlank c = true) ∧
    trim (trigger ++ (lead ++ text)) = trigger ++ (lead ++ (ws ++ trim text)) := by
  obtain ⟨ws, ws', hws, hws', hsplit⟩ := trim_eq text
  have hletters := isLetters_trigger htrigger
  have hlast := List.getLast?_eq_some_getLast (trim_ne_nil htext)
  refine ⟨ws, hws, ?_⟩
  calc trim (trigger ++ (lead ++ text))
      = trim (trigger ++ (lead ++ (ws ++ trim text ++ ws'))) := by rw [← hsplit]
    _ = trim (trigger ++ (lead ++ (ws ++ trim text))) := by
      rw [← trim_append_blanks hws' (trigger ++ (lead ++ (ws ++ trim text)))]
      simp only [List.append_assoc]
    _ = trigger ++ (lead ++ (ws ++ trim text)) := by
      refine trim_of_ends (c := trigger.head hletters.1) ?_
        (hletters.isWord.2 _ (List.head_mem hletters.1)) ?_
        (not_isBlank_of_getLast?_trim _ hlast)
      · rw [List.head?_append, List.head?_eq_some_head hletters.1]
        rfl
      · rw [List.getLast?_append, List.getLast?_append, List.getLast?_append, hlast]
        rfl

/-- What is translated if no language is named. -/
theorem detectFocused_eq (hlead : ∀ c ∈ lead, isBlank c = true) (hne : lead ≠ [])
    (hends : endsInTarget text = false) (language : String) :
    detectFocused language (trigger ++ (lead ++ text)) = some (Translation.request
      (if isTakenOff trigger lead then text else trigger ++ (lead ++ text)) none
      (preferred language)) := by
  obtain ⟨ws, hws, htrim⟩ := trim_trigger htrigger htext
  have hlength : trigger.length = 9 := by
    have hlength := congrArg List.length htrigger
    rwa [List.length_map] at hlength
  have hself := trim_trim (trigger ++ (lead ++ text))
  have hend : ∀ u taken target, words (trim (trigger ++ (lead ++ text))) = u ++ [taken, target] →
      IsConnector taken → code? target = none := by
    intro u taken target hwords htaken
    rw [words_trim] at hwords
    exact code?_eq_none_of_trigger htrigger hlead hne hends hwords htaken
  have hfilter : (detect (trim (trigger ++ (lead ++ text)))).filter (·.target.isSome) = none := by
    cases hdetect : detect (trim (trigger ++ (lead ++ text))) with
    | none => rfl
    | some t =>
        have hpair : pairPhrase (trim (trim (trigger ++ (lead ++ text)))) = none := by
          rw [hself, htrim, pairPhrase_trigger htrigger]
        have hshort : shortPhrase (trim (trim (trigger ++ (lead ++ text)))) = none := by
          rw [hself, htrim, shortPhrase_trigger htrigger]
        have hnone := target_eq_none_of_detect hpair hshort hend hdetect
        simp [Option.filter, hnone]
  have hfull : (trim (trigger ++ (lead ++ text))).isEmpty = false := by
    rw [htrim]
    simp [(isLetters_trigger htrigger).1]
  have hrequest : Translation.request (dropTrigger (trim (trigger ++ (lead ++ text)))) none
      (preferred language) = Translation.request
        (if isTakenOff trigger lead then text else trigger ++ (lead ++ text)) none
        (preferred language) := by
    rw [htrim, dropTrigger_append hlength hne]
    split
    · have hgap : ∀ c ∈ lead.tail, isBlank c = true := fun c hc =>
        hlead c (List.mem_of_mem_tail hc)
      rw [← request_trim (lead.tail ++ _), trim_blanks_append hgap, trim_blanks_append hws,
        trim_trim, request_trim]
    · rw [← htrim, request_trim]
  rw [detectFocused]
  simp only [hfull, hfilter, trailing?_eq_none hend, hrequest]
  rfl

end

/-! ### Requests that differ -/

theorem length_trim_le (s : List Char) : (trim s).length ≤ s.length := by
  obtain ⟨ws, ws', -, -, hs⟩ := trim_eq s
  have hlength := congrArg List.length hs
  rw [List.length_append, List.length_append] at hlength
  omega

theorem length_between_le {opening closing : Char} {s r : List Char}
    (h : between opening closing s = some r) : r.length ≤ s.length := by
  cases s with
  | nil => cases h
  | cons c s =>
      rw [between] at h
      split at h
      · obtain rfl := Option.some.inj h
        rw [List.length_dropLast, List.length_cons]
        omega
      · cases h

theorem length_unquote_le (s : List Char) : (unquote s).length ≤ (trim s).length := by
  refine (length_trim_le _).trans ?_
  cases hquoted : (between '"' '"' (trim s) <|> between '\'' '\'' (trim s) <|>
      between '“' '”' (trim s)) with
  | none => exact Nat.le_refl _
  | some r =>
      simp only [Option.orElse_eq_orElse, Option.orElse_eq_or, Option.or_eq_some_iff] at hquoted
      rcases hquoted with hquoted | ⟨-, hquoted | ⟨-, hquoted⟩⟩ <;>
        exact length_between_le hquoted

/-- A text that begins with a letter has no quotation marks around it. -/
theorem unquote_of_isLetters {u r s : List Char} (hu : IsLetters u) (hs : trim s = u ++ r) :
    unquote s = trim s := by
  obtain ⟨c, u, rfl⟩ := List.exists_cons_of_ne_nil hu.1
  have hnone {opening : Char} (hopening : isKeywordLetter opening = false) (closing : Char) :
      between opening closing (trim s) = none := by
    rw [hs, List.cons_append, between, if_neg]
    rintro ⟨rfl, -⟩
    rw [hu.2 _ List.mem_cons_self] at hopening
    cases hopening
  rw [unquote, hnone (by decide), hnone (by decide), hnone (by decide)]
  exact trim_trim s

/-- **The trigger is taken off as it is usually typed.** Before any text without a known language at
its end, the word *translate* is recognised in any letter case and before any blanks. It does not
belong to the text if it is in lower case or has a capital, and if a space comes next; in any other
spelling it does, and then the request is another one. -/
theorem detectFocused_trigger {trigger lead text : List Char}
    (htrigger : trigger.map fold = "translate".toList) (hlead : ∀ c ∈ lead, isBlank c = true)
    (hne : lead ≠ []) (htext : ¬ ∀ c ∈ text, isBlank c = true) (hends : endsInTarget text = false)
    (language : String) :
    detectFocused language (trigger ++ (lead ++ text)) =
        some (Translation.request
          (if isTakenOff trigger lead then text else trigger ++ (lead ++ text)) none
          (preferred language)) ∧
      (detectFocused language (trigger ++ (lead ++ text)) =
          detectFocused language ("translate ".toList ++ text) ↔
        isTakenOff trigger lead = true) := by
  have hread := detectFocused_eq htrigger htext hlead hne hends language
  have husual : detectFocused language ("translate ".toList ++ text) =
      some (Translation.request text none (preferred language)) := by
    have hlower : "translate".toList.map fold = "translate".toList := by decide
    have husual := detectFocused_eq hlower htext isBlank_of_mem_space (by simp) hends language
    rw [if_pos (by decide)] at husual
    exact husual
  refine ⟨hread, ?_⟩
  rw [hread, husual]
  constructor
  · intro hsame
    by_contra hkept
    rw [if_neg hkept] at hsame
    have htexts : unquote (trigger ++ (lead ++ text)) = unquote text :=
      String.ofList_injective (congrArg Translation.text (Option.some.inj hsame))
    obtain ⟨ws, -, htrim⟩ := trim_trigger htrigger htext
    have hlonger : (unquote (trigger ++ (lead ++ text))).length ≤ (trim text).length := by
      rw [htexts]
      exact length_unquote_le text
    rw [unquote_of_isLetters (isLetters_trigger htrigger) htrim, htrim, List.length_append,
      List.length_append, List.length_append] at hlonger
    have hpos := List.length_pos_iff.mpr hne
    omega
  · intro htaken
    rw [if_pos htaken]

/-- In capitals, and before a tab, the trigger is translated too. -/
theorem detectFocused_trigger_capitals :
    (∃ t, detectFocused "fr" ("TRANSLATE".toList ++ (" ".toList ++ "“hello”".toList)) = some t ∧
      t.text = "TRANSLATE “hello”" ∧ t.target = some "fr") ∧
    detectFocused "fr" ("translate".toList ++ ("\t".toList ++ "“hello”".toList)) ≠
      detectFocused "fr" ("translate ".toList ++ "“hello”".toList) ∧
    ∃ t, detectFocused "fr" ("Translate".toList ++ (" \t".toList ++ "“hello”".toList)) = some t ∧
      t.text = "hello" ∧ t.target = some "fr" := by
  have hcapitals : "TRANSLATE".toList.map fold = "translate".toList := by decide
  have hlower : "translate".toList.map fold = "translate".toList := by decide
  have hcapital : "Translate".toList.map fold = "translate".toList := by decide
  have hspace : ∀ c ∈ " ".toList, isBlank c = true := allBlank_eq_true_iff.mp (by decide)
  have htab : ∀ c ∈ "\t".toList, isBlank c = true := allBlank_eq_true_iff.mp (by decide)
  have hboth : ∀ c ∈ " \t".toList, isBlank c = true := allBlank_eq_true_iff.mp (by decide)
  have htext : ¬ ∀ c ∈ "“hello”".toList, isBlank c = true := allBlank_eq_false_iff.mp (by decide)
  have hends : endsInTarget "“hello”".toList = false := by decide
  obtain ⟨hkept, -⟩ := detectFocused_trigger hcapitals hspace (by decide) htext hends "fr"
  obtain ⟨-, hother⟩ := detectFocused_trigger hlower htab (by decide) htext hends "fr"
  obtain ⟨htaken, -⟩ := detectFocused_trigger hcapital hboth (by decide) htext hends "fr"
  exact ⟨⟨_, hkept, by decide, by decide⟩, fun hsame => absurd (hother.mp hsame) (by decide),
    ⟨_, htaken, by decide, by decide⟩⟩

end Composer.Language
