import Composer.Proofs.Language.Phrase
import Composer.Proofs.Text.Lowercase
/-!
# Composer.Proofs.Language.Request

**Requests for translations.** Any text can be translated, also one that speaks of languages itself:
the last words of a phrase are the request and all that stands before them is the text
(`detect_request`). Only a text that ends in the word *from* and one more word gives these two away,
since they are read as the language that it is in (`endsInSource`).
-/

namespace Composer.Language

open Text

/-! ### Names of languages -/

/-- A language is named by its code or by its name, in any letter case of ASCII. -/
def Names (code : String) (s : List Char) : Prop :=
  ∃ name, (code, name) ∈ languages ∧
    (s.map Char.toLower = code.toList ∨ s.map Char.toLower = name.toList.map Char.toLower)

/-- What is looked up in the table: codes and names are ASCII letters, and each of them means one
language. -/
theorem languages_spec : ∀ language ∈ languages, ∀ key ∈ [language.1.toList, lower language.2.toList],
    key ≠ [] ∧ key.all Char.isLower = true ∧
      (languages.find? fun (code, name) => code.toList = key || lower name.toList = key).map (·.1) =
        some language.1 := by
  decide +kernel

/-- In ASCII a name is put into lower case as any text is. -/
theorem languages_lower : ∀ language ∈ languages,
    language.2.toList.map Char.toLower = lower language.2.toList := by
  decide +kernel

theorem isKeywordLetter_of_toLower {c : Char} (h : c.toLower.isLower = true) :
    isKeywordLetter c = true := by
  refine toLower_induction (P := fun c d => d.isLower = true → isKeywordLetter c = true)
    (fun c hc => ?_) (by decide) c h
  rw [isKeywordLetter, fold_of_isLower hc]
  exact hc

/-- A name is a word, and its language is found. -/
theorem Names.spec {code : String} {s : List Char} (h : Names code s) :
    IsLetters s ∧ code? s = some code := by
  obtain ⟨name, hmem, hs⟩ := h
  have hkey : s.map Char.toLower ∈ [code.toList, lower name.toList] := by
    rw [languages_lower _ hmem] at hs
    rcases hs with hs | hs <;> simp [hs]
  obtain ⟨hne, hall, hfind⟩ := languages_spec _ hmem _ hkey
  have hlower := List.all_eq_true.mp hall
  have hletters : IsLetters s := by
    refine ⟨fun hnil => hne (by rw [hnil]; rfl), fun c hc => ?_⟩
    exact isKeywordLetter_of_toLower (hlower _ (List.mem_map_of_mem hc))
  have hplain : ∀ c ∈ s, isPlain c = true := by
    intro c hc
    have hascii := toNat_of_isLower (hlower _ (List.mem_map_of_mem hc))
    exact isPlain_of_toLower (by simp [isPlain, hascii])
  refine ⟨hletters, ?_⟩
  rw [code?, trim_eq_self hletters.isWord.2, lower_eq_map_toLower hplain]
  exact hfind

/-! ### What is not part of the text -/

/-- Whether a text ends in the word *from* and one more word. -/
def endsInSource (text : List Char) : Bool :=
  match (words text).reverse with
  | language :: taken :: _ =>
    taken.map fold = "from".toList && language.all isKeywordLetter
  | _ => false

theorem endsInSource_of_words {text taken source : List Char} {u : List (List Char)}
    (h : words text = u ++ [taken, source]) (htaken : taken.map fold = "from".toList)
    (hsource : IsLetters source) : endsInSource text = true := by
  have hletters : source.all isKeywordLetter = true := List.all_eq_true.mpr hsource.2
  simp [endsInSource, h, htaken, hletters]

/-- A request that names both languages ends in four words. -/
theorem fromToPhrase_eq_some {s text source target : List Char}
    (h : fromToPhrase s = some (text, source, target)) :
    ∃ u taken connector, taken.map fold = "from".toList ∧ IsLetters source ∧
      IsConnector connector ∧ words s = u ++ [taken, source, connector, target] := by
  rw [fromToPhrase_eq] at h
  obtain ⟨trigger, _, rfl, -, hblanks⟩ := keyword_eq_some h
  obtain ⟨ws, _, -, -, rfl, hshortest⟩ := blanks_eq_some hblanks
  obtain ⟨-, _, rfl, hend⟩ := shortest_eq_some hshortest
  obtain ⟨taken, connector, htaken, hsource, hconnector, hwords⟩ := pairAtEnd_eq_some hend
  refine ⟨words (trigger ++ (ws ++ text)), taken, connector, htaken, hsource, hconnector, ?_⟩
  rw [← hwords]
  simp only [List.append_assoc]

/-! ### Requests -/

theorem toPhrase_eq :
    toPhrase = keyword "translate" (blanks (shortest anyChar (targetAtEnd id))) := rfl

/-- Blanks around the text do not matter. -/
theorem request_trim (text : List Char) (source : Option String) (target : String) :
    Translation.request (trim text) source target = Translation.request text source target := by
  have hunquote : unquote (trim text) = unquote text := by
    rw [unquote, trim_trim]
    rfl
  rw [Translation.request, Translation.request, hunquote]

theorem isLetters_translate : IsLetters "translate".toList :=
  have hfold : "translate".toList.map fold = "translate".toList := by decide
  isLetters_of_map_fold hfold (by decide) (by decide)

/-- A text between words is not trimmed. -/
theorem trim_letters {u v : List Char} (hu : IsLetters u) (hv : IsLetters v) (s : List Char) :
    trim (u ++ (s ++ v)) = u ++ (s ++ v) := by
  refine trim_of_ends ?_ (hu.isWord.2 _ (List.head_mem hu.1)) ?_
    (hv.isWord.2 _ (List.getLast_mem hv.1))
  · rw [List.head?_append, List.head?_eq_some_head hu.1]
    rfl
  · rw [List.getLast?_append, List.getLast?_append, List.getLast?_eq_some_getLast hv.1]
    rfl

section

variable {text connector s : List Char} {target : String}
  (htext : ¬ ∀ c ∈ text, isBlank c = true) (hconnector : IsConnector connector)
  (hs : Names target s)
include htext hconnector hs

/-- The phrase with one language. -/
theorem detect_to (hends : endsInSource text = false) :
    detect ("translate".toList ++ ([' '] ++ (text ++ ([' '] ++ (connector ++ ([' '] ++ s)))))) =
      some (Translation.request text none target) := by
  obtain ⟨hletters, hcode⟩ := hs.spec
  have htrim := trim_letters isLetters_translate hletters
    ([' '] ++ (text ++ ([' '] ++ (connector ++ [' ']))))
  simp only [List.append_assoc] at htrim
  have hread : toPhrase ("translate".toList ++ ([' '] ++ (text ++ ([' '] ++ (connector ++
      ([' '] ++ s)))))) = some (trim text, s) := by
    rw [toPhrase_eq, keyword_append (by decide)]
    refine blanks_shortest_append (takesWords_targetAtEnd id) isBlank_of_mem_space (by simp) htext
      fun ws hws => ?_
    rw [← List.append_assoc ws]
    exact targetAtEnd_append (fun c hc => (List.mem_append.mp hc).elim (hws c)
      (isBlank_of_mem_space c)) (by simp) hconnector isBlank_of_mem_space (by simp) hletters id
  -- With two languages the text would end in the first one.
  have hnone : fromToPhrase ("translate".toList ++ ([' '] ++ (text ++ ([' '] ++ (connector ++
      ([' '] ++ s)))))) = none := by
    rw [Option.eq_none_iff_forall_ne_some]
    rintro ⟨body, source, last⟩ h
    obtain ⟨u, taken, connector', htaken, hsource, -, hwords⟩ := fromToPhrase_eq_some h
    rw [words_append isBlank_of_mem_space (by simp), words_append isBlank_of_mem_space (by simp),
      words_append isBlank_of_mem_space (by simp), isLetters_translate.words_eq,
      hconnector.isLetters.words_eq, hletters.words_eq] at hwords
    have hcut : ["translate".toList] ++ words text ++ [connector, s] =
        u ++ [taken, source] ++ [connector', last] := by simpa using hwords
    obtain ⟨hrest, -⟩ := List.append_inj' hcut rfl
    cases u with
    | nil =>
        obtain ⟨rfl, -⟩ := List.cons.inj hrest
        revert htaken
        decide
    | cons v u =>
        rw [endsInSource_of_words (List.cons.inj hrest).2 htaken hsource] at hends
        cases hends
  rw [detect]
  simp only [htrim, hnone, hread, ofTo, hcode, request_trim]

/-- The phrase with two languages. -/
theorem detect_fromTo {source : String} {s' : List Char} (hs' : Names source s') :
    detect ("translate".toList ++ ([' '] ++ (text ++ ([' '] ++ ("from".toList ++ ([' '] ++ (s' ++
        ([' '] ++ (connector ++ ([' '] ++ s)))))))))) =
      some (Translation.request text (some source) target) := by
  obtain ⟨hletters, hcode⟩ := hs.spec
  obtain ⟨hletters', hcode'⟩ := hs'.spec
  have htrim := trim_letters isLetters_translate hletters ([' '] ++ (text ++ ([' '] ++
    ("from".toList ++ ([' '] ++ (s' ++ ([' '] ++ (connector ++ [' ']))))))))
  simp only [List.append_assoc] at htrim
  have hread : fromToPhrase ("translate".toList ++ ([' '] ++ (text ++ ([' '] ++ ("from".toList ++
      ([' '] ++ (s' ++ ([' '] ++ (connector ++ ([' '] ++ s)))))))))) =
        some (trim text, s', s) := by
    rw [fromToPhrase_eq, keyword_append (by decide)]
    refine blanks_shortest_append takesWords_pairAtEnd isBlank_of_mem_space (by simp) htext
      fun ws hws => ?_
    rw [← List.append_assoc ws]
    exact pairAtEnd_append isBlank_of_mem_space (by simp) hconnector isBlank_of_mem_space (by simp)
      hletters (fun c hc => (List.mem_append.mp hc).elim (hws c) (isBlank_of_mem_space c)) (by simp)
      (by decide) isBlank_of_mem_space (by simp) hletters'
  rw [detect]
  simp only [htrim, hread, ofFromTo, hcode, hcode', request_trim]

end

/-- **Any text can be translated.** The language at the end is found, whether it is typed as a code or
as a name, and what stands before it is the text, whatever words are in it. With a second language
before the first one the same holds of every text; without it the text must not end in one. -/
theorem detect_request {text : List Char} (htext : ¬ ∀ c ∈ text, isBlank c = true)
    {target : String} {s : List Char} (hs : Names target s) {word : String}
    (hword : word ∈ connectors) :
    (endsInSource text = false →
      detect ("translate ".toList ++ (text ++ (' ' :: (word.toList ++ ' ' :: s)))) =
        some (Translation.request text none target)) ∧
    ∀ source s', Names source s' →
      detect ("translate ".toList ++ (text ++ (" from ".toList ++ (s' ++
          ' ' :: (word.toList ++ ' ' :: s))))) =
        some (Translation.request text (some source) target) := by
  have hconnector : IsConnector word.toList := by
    have hfold : ∀ word ∈ connectors, word.toList.map fold = word.toList := by decide
    exact ⟨word, hword, hfold word hword⟩
  constructor
  · intro hends
    have hread := detect_to htext hconnector hs hends
    simpa using hread
  · intro source s' hs'
    have hread := detect_fromTo htext hconnector hs hs'
    simpa using hread

/-- A text of two lines with connecting words and names of languages. -/
theorem detect_request_lines :
    (∃ t, detect ("translate ".toList ++ ("“from Rome to Paris\nin French”".toList ++
        (' ' :: ("into".toList ++ ' ' :: "SPANISH".toList)))) = some t ∧
      t.text = "from Rome to Paris\nin French" ∧ t.source = none ∧ t.target = some "es") ∧
    ∃ t, detect ("translate ".toList ++ ("“from Rome to Paris\nin French”".toList ++
        (" from ".toList ++ ("It".toList ++ ' ' :: ("into".toList ++ ' ' :: "SPANISH".toList))))) =
        some t ∧
      t.text = "from Rome to Paris\nin French" ∧ t.source = some "it" ∧ t.target = some "es" := by
  have htext : ¬ ∀ c ∈ "“from Rome to Paris\nin French”".toList, isBlank c = true :=
    allBlank_eq_false_iff.mp (by decide)
  have hspanish : Names "es" "SPANISH".toList := ⟨"Spanish", by decide, Or.inr (by decide)⟩
  have hitalian : Names "it" "It".toList := ⟨"Italian", by decide, Or.inl (by decide)⟩
  have hinto : "into" ∈ connectors := by decide
  obtain ⟨hto, hfrom⟩ := detect_request htext hspanish hinto
  exact ⟨⟨_, hto (by decide), by decide, rfl, rfl⟩, ⟨_, hfrom _ _ hitalian, by decide, rfl, rfl⟩⟩

end Composer.Language
