import Composer.Proofs.Countdown.Coherence
import Composer.Proofs.Detection.Questions
/-!
# Composer.Proofs.Detection

**What a detected answer looks like.** An answer that was found in a text belongs to the tool that
was asked, no lookup is on its way for it, its question makes sense, and a countdown in it stands
still. Only the tools with lookups and the timer need an argument; the answers of all others hold no
such data.
-/

namespace Composer

/-! ### Fresh answers -/

/-- An answer to which nothing has happened yet: no lookup is on its way for it and none has failed,
it is partial if it waits for one, its question can be asked, and its countdown has only been set. -/
structure Answer.Fresh (a : Answer) : Prop where
  /-- No lookup is on its way. -/
  isLoading_eq : a.isLoading = false
  /-- No lookup has failed. -/
  error_eq : a.error = none
  /-- It is only a hint as long as it waits for a lookup. -/
  isPartial_of_needsLookup : a.needsLookup = true → a.isPartial = true
  /-- The question that it waits for makes sense. -/
  admissible : ∀ q, a.query? = some q → q.Admissible
  /-- Its countdown has only been set. -/
  countdown_eq : ∀ c, a.countdown? = some c → ∃ total label, c = .ofSeconds total label

/-- An answer that no service completes and that is no countdown. -/
theorem Answer.Fresh.of_plain {a : Answer} (hneeds : a.needsLookup = false)
    (hloading : a.isLoading = false) (herror : a.error = none) (hcountdown : a.countdown? = none) :
    a.Fresh where
  isLoading_eq := hloading
  error_eq := herror
  isPartial_of_needsLookup := fun h => by
    rw [hneeds] at h
    cases h
  admissible := fun q hq => by
    rw [needsLookup_of_query? hq] at hneeds
    cases hneeds
  countdown_eq := fun c hc => by
    rw [hcountdown] at hc
    cases hc

theorem fresh_currency {x : Money.Exchange} (h : Money.Found x) : (Answer.currency x).Fresh where
  isLoading_eq := by cases h <;> rfl
  error_eq := by cases h <;> rfl
  isPartial_of_needsLookup := fun hneeds => by
    cases h with
    | typing _ => rfl
    | pair _ _ _ => rfl
    | same _ => cases hneeds
  admissible := fun _ hq => h.admissible hq
  countdown_eq := fun _ hc => by cases hc

theorem fresh_translator {t : Language.Translation} (h : Language.Found t) :
    (Answer.translator t).Fresh where
  isLoading_eq := by cases h <;> rfl
  error_eq := by cases h <;> rfl
  isPartial_of_needsLookup := fun _ => by cases h <;> rfl
  admissible := fun _ hq => h.admissible hq
  countdown_eq := fun _ hc => by cases hc

theorem fresh_dictionary {d : Lexicon.Definition} (h : Lexicon.Found d) :
    (Answer.dictionary d).Fresh where
  isLoading_eq := by cases h; rfl
  error_eq := by cases h; rfl
  isPartial_of_needsLookup := fun _ => by cases h; rfl
  admissible := fun _ hq => h.admissible hq
  countdown_eq := fun _ hc => by cases hc

theorem fresh_timer {input : List Char} {c : Countdown} (h : Countdown.detect input = some c) :
    (Answer.timer c).Fresh where
  isLoading_eq := rfl
  error_eq := rfl
  isPartial_of_needsLookup := fun hneeds => by cases hneeds
  admissible := fun _ hq => by cases hq
  countdown_eq := fun _ hc => by
    cases hc
    obtain ⟨⟨total, label⟩, -, rfl⟩ := Option.map_eq_some_iff.mp h
    exact ⟨total, label, rfl⟩

namespace Detection

/-- What a tool answers belongs to it and is fresh. -/
theorem ofTool_eq_some {t : Tool} {text : List Char} {ctx : Context} {a : Answer}
    (h : ofTool t text ctx = some a) : a.tool = t ∧ a.Fresh := by
  cases t with
  | currency =>
      obtain ⟨x, hx, rfl⟩ := Option.map_eq_some_iff.mp h
      exact ⟨rfl, fresh_currency (Money.found_of_detect hx)⟩
  | translator =>
      obtain ⟨t, ht, rfl⟩ := Option.map_eq_some_iff.mp h
      exact ⟨rfl, fresh_translator (Language.found_of_detect ht)⟩
  | dictionary =>
      obtain ⟨d, hd, rfl⟩ := Option.map_eq_some_iff.mp h
      exact ⟨rfl, fresh_dictionary (Lexicon.found_of_detect hd)⟩
  | timer =>
      obtain ⟨c, hc, rfl⟩ := Option.map_eq_some_iff.mp h
      exact ⟨rfl, fresh_timer hc⟩
  | date =>
      simp only [ofTool, Option.bind_eq_bind, Option.bind_eq_some_iff, Option.map_eq_some_iff] at h
      obtain ⟨today, -, r, -, rfl⟩ := h
      exact ⟨rfl, .of_plain rfl rfl rfl rfl⟩
  | calculator | units | timezone | color | random | wordCount =>
      obtain ⟨r, -, rfl⟩ := Option.map_eq_some_iff.mp h
      exact ⟨rfl, .of_plain rfl rfl rfl rfl⟩

/-- What the open tool answers belongs to it and is fresh. -/
theorem focused_eq_some {t : Tool} {text : List Char} {ctx : Context} {a : Answer}
    (h : focused t text ctx = some a) : a.tool = t ∧ a.Fresh := by
  unfold focused at h
  dsimp only at h
  split at h
  · cases h
  · split at h
    · obtain ⟨r, -, rfl⟩ := Option.map_eq_some_iff.mp h
      exact ⟨rfl, .of_plain rfl rfl rfl rfl⟩
    · obtain ⟨t, ht, rfl⟩ := Option.map_eq_some_iff.mp h
      exact ⟨rfl, fresh_translator (Language.found_of_detectFocused ht)⟩
    · obtain ⟨d, hd, rfl⟩ := Option.map_eq_some_iff.mp h
      exact ⟨rfl, fresh_dictionary (Lexicon.found_of_detectFocused hd)⟩
    · exact ofTool_eq_some h

/-- What is found in a text belongs to one of the tools that are asked, and is fresh. -/
theorem auto_eq_some {text : List Char} {ctx : Context} {a : Answer}
    (h : auto text ctx = some a) : a.tool ∈ order ∧ a.Fresh := by
  unfold auto at h
  dsimp only at h
  split at h
  · cases h
  · obtain ⟨t, ht, ha⟩ := List.exists_of_findSome?_eq_some h
    obtain ⟨rfl, hfresh⟩ := ofTool_eq_some ha
    exact ⟨ht, hfresh⟩

end Detection

end Composer
