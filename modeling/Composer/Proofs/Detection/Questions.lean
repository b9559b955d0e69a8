import Composer.Detection
import Composer.Proofs.Answer
import Composer.Proofs.Text.Words
/-!
# Composer.Proofs.Detection.Questions

**What services can be asked.** Each of the three tools with lookups has its own conditions under
which a question makes sense (`Query.Admissible`). They are met because of what a tool finds in a
text: `Found` lists the shapes of the answers, with what was checked on the way to them, whichever
phrase the text was and whether the tool is open or not.
-/

namespace Composer

/-! ### Questions -/

/-- The code of a known currency. -/
def Money.IsCode (code : String) : Prop :=
  code ∈ currencies.map (·.1)

/-- The code of a known language. -/
def Language.IsCode (code : String) : Prop :=
  code ∈ languages.map (·.1)

/-- A question that makes sense: for the rate of two different currencies, for some text in a known
language, or for a headword of up to four words. -/
def Query.Admissible : Query → Prop
  | rate source target => Money.IsCode source ∧ Money.IsCode target ∧ source ≠ target
  | translation text source target =>
    text ≠ "" ∧ (∀ code, source = some code → Language.IsCode code) ∧ Language.IsCode target
  | definition word => word ≠ "" ∧ (Text.words word.toList).length ≤ 4

/-! ### Currencies -/

namespace Money

/-- What an answer about currencies looks like when it is found. -/
inductive Found : Exchange → Prop
  /-- The currency that is asked for is still being typed. -/
  | typing {amount : Float} {source : String} : IsCode source →
      Found (.pending amount source none)
  /-- Two different currencies need a rate. -/
  | pair {amount : Float} {source target : String} : IsCode source → IsCode target →
      source ≠ target → Found (.pending amount source (some target))
  /-- A currency is worth itself. -/
  | same {amount : Float} {source : String} : IsCode source →
      Found ((Exchange.pending amount source (some source)).withRate 1)

/-- Only letters in lower case have another capital in ASCII. -/
theorem toUpper_eq_self {c : Char} (h : c.isLower = false) : c.toUpper = c :=
  dif_neg fun hc => by
    rw [Text.isLower_iff.mpr hc] at h
    cases h

theorem toUpper_capital (c : Char) : (capital c).toUpper = capital c := by
  unfold capital
  split
  · decide
  · by_cases hlower : c.isLower = true
    · exact Text.forall_lower (P := fun c => c.toUpper.toUpper = c.toUpper) (by decide) hlower
    · have hself : c.toUpper = c := toUpper_eq_self (Bool.not_eq_true _ ▸ hlower)
      rw [hself, hself]

/-- A text in capitals is known only if it is a code. -/
theorem isCode_capitals {s : List Char} (h : isKnown (capitals s) = true) :
    IsCode (capitals s) := by
  obtain ⟨⟨code, name⟩, hmem, hcode⟩ := List.any_eq_true.mp h
  have hsame : code.toList = (capitals s).toList := by
    have hcapitals : (capitals s).toList.map Char.toUpper = (capitals s).toList := by
      simp [capitals, toUpper_capital]
    rw [← hcapitals]
    exact of_decide_eq_true hcode
  exact List.mem_map.mpr ⟨_, hmem, String.toList_inj.mp hsame⟩

theorem isCode_of_ofSign? {c : Char} {code : String} (h : ofSign? c = some code) :
    IsCode code := by
  obtain ⟨⟨sign, code⟩, hfind, rfl⟩ := Option.map_eq_some_iff.mp h
  have hsigns : ∀ sign ∈ signs, sign.2 ∈ currencies.map (·.1) := by decide
  exact hsigns _ (List.mem_of_find?_eq_some hfind)

/-- Whether it was typed as a code or as a sign, the currency of an amount has a code. -/
theorem isCode_of_sourceCode? {r : Request} {code : String} (h : r.sourceCode? = some code)
    (hknown : isKnown code = true) : IsCode code := by
  unfold Request.sourceCode? at h
  split at h
  · cases h
    exact isCode_capitals hknown
  · exact isCode_of_ofSign? h
  · cases h

theorem found_of_exchange? {amount : Float} {source : String} (hsource : IsCode source)
    {target : Option (List Char)} {x : Exchange}
    (h : exchange? amount source (target.map capitals) = some x) : Found x := by
  cases target with
  | none =>
      cases h
      exact .typing hsource
  | some target =>
      simp only [Option.map_some, exchange?] at h
      split at h
      · cases h
        exact .typing hsource
      · split at h
        · cases h
        · next hknown =>
            have htarget : IsCode (capitals target) := isCode_capitals (by simpa using hknown)
            split at h
            · next hsame =>
                cases h
                exact hsame ▸ .same hsource
            · next hdistinct =>
                cases h
                exact .pair hsource htarget hdistinct

theorem found_of_detect {input : List Char} {x : Exchange} (h : detect input = some x) :
    Found x := by
  simp only [detect, Option.bind_eq_bind, Option.bind_eq_some_iff] at h
  obtain ⟨r, -, amount, -, source, hsource, h⟩ := h
  split at h
  · next hknown => exact found_of_exchange? (isCode_of_sourceCode? hsource hknown) h
  · cases h

theorem Found.admissible {x : Exchange} (h : Found x) {q : Query}
    (hq : (Answer.currency x).query? = some q) : q.Admissible := by
  cases h with
  | typing _ => cases hq
  | pair hsource htarget hdistinct =>
      cases hq
      exact ⟨hsource, htarget, hdistinct⟩
  | same _ => cases hq

end Money

/-! ### Languages -/

namespace Language

/-- What an answer about languages looks like when it is found. -/
inductive Found : Translation → Prop
  /-- A translation into a known language, and perhaps from one. -/
  | request (body : List Char) {source : Option String} {target : String} :
      (∀ code, source = some code → IsCode code) → IsCode target →
      Found (.request body source target)
  /-- No known language is named yet. -/
  | incomplete (body : List Char) (display : String) : Found (.incomplete body display)

theorem isCode_of_code? {s : List Char} {code : String} (h : code? s = some code) :
    IsCode code := by
  obtain ⟨language, hfind, rfl⟩ := Option.map_eq_some_iff.mp h
  exact List.mem_map.mpr ⟨language, List.mem_of_find?_eq_some hfind, rfl⟩

/-- Whatever language is preferred, texts are translated into a known one. -/
theorem isCode_preferred (language : String) : IsCode (preferred language) := by
  unfold preferred
  cases h : code? language.toList with
  | some code => exact isCode_of_code? h
  | none => exact List.mem_map.mpr ⟨("en", "English"), List.mem_cons_self, rfl⟩

theorem Found.into {body target : List Char} {code : String} (h : code? target = some code) :
    Found (.request body none code) :=
  .request body (fun _ hcode => by cases hcode) (isCode_of_code? h)

theorem Found.fromTo {body source target : List Char} {from_ to_ : String}
    (hsource : code? source = some from_) (htarget : code? target = some to_) :
    Found (.request body (some from_) to_) :=
  .request body (fun _ hcode => by cases hcode; exact isCode_of_code? hsource)
    (isCode_of_code? htarget)

theorem found_of_detect {input : List Char} {t : Translation} (h : detect input = some t) :
    Found t := by
  unfold detect at h
  dsimp only at h
  split at h
  -- `translate <text> from <language> to <language>`
  · simp only [ofFromTo, Option.some.injEq] at h
    subst h
    split
    · next hsource htarget => exact .fromTo hsource htarget
    · exact .incomplete _ _
  · split at h
    -- `translate <text> to <language>`
    · simp only [ofTo, Option.some.injEq] at h
      subst h
      split
      · next htarget => exact .into htarget
      · exact .incomplete _ _
    · split at h
      -- `<code> > <code>: <text>`
      · simp only [Option.bind_eq_bind, Option.bind_eq_some_iff, Option.some.injEq] at h
        obtain ⟨source, hsource, target, htarget, rfl⟩ := h
        exact .fromTo hsource htarget
      · split at h
        -- `tr <language> <text>`
        · simp only [Option.bind_eq_bind, Option.bind_eq_some_iff, Option.some.injEq] at h
          obtain ⟨target, htarget, rfl⟩ := h
          exact .into htarget
        -- `translate <text>`
        · obtain ⟨body, -, rfl⟩ := Option.map_eq_some_iff.mp h
          exact .incomplete _ _

/-- The tool itself finds no other shapes. -/
theorem found_of_detectFocused {language : String} {input : List Char} {t : Translation}
    (h : detectFocused language input = some t) : Found t := by
  unfold detectFocused at h
  dsimp only at h
  split at h
  · cases h
  · simp only [Option.orElse_eq_orElse, Option.orElse_eq_or, Option.or_eq_some_iff,
      Option.filter_eq_some_iff, Option.some.injEq] at h
    rcases h with ⟨h, -⟩ | ⟨-, h | ⟨-, rfl⟩⟩
    · exact found_of_detect h
    · simp only [trailing?, Option.bind_eq_bind, Option.bind_eq_some_iff, Option.some.injEq] at h
      obtain ⟨⟨body, target⟩, -, code, hcode, rfl⟩ := h
      exact .into hcode
    · exact .request _ (fun _ hcode => by cases hcode) (isCode_preferred language)

theorem Found.admissible {t : Translation} (h : Found t) {q : Query}
    (hq : (Answer.translator t).query? = some q) : q.Admissible := by
  cases h with
  | request body hsource htarget =>
      have hneeds := Answer.needsLookup_of_query? hq
      obtain ⟨code, hcode, hquery⟩ := Answer.query?_translator hneeds
      cases hcode
      rw [hquery] at hq
      cases hq
      refine ⟨fun htext => ?_, hsource, htarget⟩
      simp [Answer.needsLookup, Translation.needsLookup, htext] at hneeds
  | incomplete body display => cases hq

end Language

/-! ### Headwords -/

namespace Lexicon

/-- What an answer about a word looks like when it is found. -/
inductive Found : Definition → Prop
  /-- A headword waits for its meanings, or no word has been typed yet. -/
  | ofWord {word : String} : (Text.words word.toList).length ≤ 4 → Found (.ofWord word)

theorem found_of_headword? {s : List Char} {word : String} (h : headword? s = some word) :
    Found (.ofWord word) := by
  unfold headword? at h
  dsimp only at h
  split at h
  · cases h
  · next hfew =>
      split at h
      · cases h
        refine .ofWord ?_
        rw [String.toList_ofList, Text.length_words_lower]
        exact Nat.not_lt.mp hfew
      · cases h

theorem found_of_detect {input : List Char} {d : Definition} (h : detect input = some d) :
    Found d := by
  obtain ⟨word, hword, rfl⟩ := Option.map_eq_some_iff.mp h
  obtain ⟨s, -, hs⟩ := Option.bind_eq_some_iff.mp hword
  exact found_of_headword? hs

/-- The tool itself finds no other shapes. -/
theorem found_of_detectFocused {input : List Char} {d : Definition}
    (h : detectFocused input = some d) : Found d := by
  unfold detectFocused at h
  dsimp only at h
  split at h
  · cases h
  · simp only [Option.orElse_eq_orElse, Option.orElse_eq_or, Option.or_eq_some_iff] at h
    rcases h with h | ⟨-, h⟩
    · exact found_of_detect h
    · obtain ⟨word, hword, rfl⟩ := Option.map_eq_some_iff.mp h
      exact found_of_headword? hword

theorem Found.admissible {d : Definition} (h : Found d) {q : Query}
    (hq : (Answer.dictionary d).query? = some q) : q.Admissible := by
  cases h with
  | ofWord hwords =>
      have hneeds := Answer.needsLookup_of_query? hq
      rw [Answer.query?_dictionary hneeds] at hq
      cases hq
      refine ⟨fun hword => ?_, hwords⟩
      simp [Answer.needsLookup, Definition.needsLookup, hword] at hneeds

end Lexicon

end Composer
