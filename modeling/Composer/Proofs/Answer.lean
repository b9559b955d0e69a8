import Composer.Lookup.Service
/-!
# Composer.Proofs.Answer

**What a lookup does to an answer.** An answer is marked when its lookup starts, and it is completed
or gets an error when the lookup settles. None of this makes it the answer of another tool, and a
lookup that has settled, whatever came of it, is not on its way any more.
-/

namespace Composer

/-- A tool and its channel belong together. -/
theorem Tool.channel?_eq_some_iff {t : Tool} {c : Channel} : t.channel? = some c ↔ t = c.tool := by
  cases t <;> cases c <;> simp [Tool.channel?, Channel.tool]

theorem Channel.tool_injective {c d : Channel} (h : c.tool = d.tool) : c = d := by
  cases c <;> cases d <;> first | rfl | cases h

theorem Channel.tool_ne_timer (c : Channel) : c.tool ≠ .timer := by
  cases c <;> simp [Channel.tool]

namespace Answer

/-- Only the tools with a channel have answers that need a lookup. -/
theorem exists_channel_of_needsLookup {a : Answer} (h : a.needsLookup = true) :
    ∃ c : Channel, a.tool = c.tool := by
  cases a with
  | currency _ => exact ⟨.currency, rfl⟩
  | translator _ => exact ⟨.translator, rfl⟩
  | dictionary _ => exact ⟨.dictionary, rfl⟩
  | _ => cases h

/-- Only the timer has countdowns. -/
theorem countdown?_eq_none {a : Answer} (h : a.tool ≠ .timer) : a.countdown? = none := by
  cases a with
  | timer _ => exact absurd rfl h
  | _ => rfl

theorem isLoading_of_timer {a : Answer} (h : a.tool = .timer) : a.isLoading = false := by
  cases a with
  | timer _ => rfl
  | currency _ | translator _ | dictionary _ => cases h
  | _ => rfl

/-! ### The start of a lookup -/

@[simp] theorem tool_markLoading (a : Answer) : a.markLoading.tool = a.tool := by
  cases a <;> rfl

@[simp] theorem needsLookup_markLoading (a : Answer) :
    a.markLoading.needsLookup = a.needsLookup := by
  cases a <;> rfl

theorem isLoading_markLoading {a : Answer} (h : a.needsLookup = true) :
    a.markLoading.isLoading = true := by
  cases a with
  | currency _ => rfl
  | translator _ => rfl
  | dictionary _ => rfl
  | _ => cases h

/-! ### Its end -/

@[simp] theorem tool_withError (message : String) (a : Answer) :
    (a.withError message).tool = a.tool := by
  cases a <;> rfl

@[simp] theorem isLoading_withError (message : String) (a : Answer) :
    (a.withError message).isLoading = false := by
  cases a <;> rfl

@[simp] theorem tool_resolve (s : Services) (a : Answer) : (a.resolve s).tool = a.tool := by
  unfold resolve
  split <;> rfl

/-! ### The question of an answer -/

theorem needsLookup_of_query? {a : Answer} {q : Query} (h : a.query? = some q) :
    a.needsLookup = true := by
  unfold query? at h
  split at h
  · assumption
  · cases h

/-- That a lookup is on its way changes nothing about the question. -/
@[simp] theorem query?_markLoading (a : Answer) : a.markLoading.query? = a.query? := by
  cases a <;> rfl

theorem query?_currency {x : Money.Exchange} (h : (currency x).needsLookup = true) :
    ∃ target, x.target = some target ∧ (currency x).query? = some (.rate x.source target) := by
  have hx : x.needsLookup = true := h
  simp only [Money.Exchange.needsLookup, Bool.and_eq_true] at hx
  obtain ⟨target, htarget⟩ := Option.isSome_iff_exists.mp hx.1.1
  exact ⟨target, htarget, by simp [query?, h, htarget]⟩

theorem query?_translator {t : Language.Translation} (h : (translator t).needsLookup = true) :
    ∃ target, t.target = some target ∧
      (translator t).query? = some (.translation t.text t.source target) := by
  have ht : t.needsLookup = true := h
  simp only [Language.Translation.needsLookup, Bool.and_eq_true] at ht
  obtain ⟨target, htarget⟩ := Option.isSome_iff_exists.mp ht.1.1.1
  exact ⟨target, htarget, by simp [query?, h, htarget]⟩

theorem query?_dictionary {d : Lexicon.Definition} (h : (dictionary d).needsLookup = true) :
    (dictionary d).query? = some (.definition d.word) := by
  simp [query?, h]

/-- An answer that needs a lookup has a question for the service of its tool. -/
theorem exists_query?_of_needsLookup {a : Answer} (h : a.needsLookup = true) :
    ∃ q, a.query? = some q ∧ q.channel.tool = a.tool := by
  cases a with
  | currency x =>
      obtain ⟨target, -, hq⟩ := query?_currency h
      exact ⟨_, hq, rfl⟩
  | translator t =>
      obtain ⟨target, -, hq⟩ := query?_translator h
      exact ⟨_, hq, rfl⟩
  | dictionary d => exact ⟨_, query?_dictionary h, rfl⟩
  | _ => cases h

/-- Whatever the services say, the lookup is over. -/
theorem isLoading_resolve {a : Answer} (s : Services) (h : a.needsLookup = true) :
    (a.resolve s).isLoading = false := by
  cases a with
  | currency x =>
      obtain ⟨target, -, hq⟩ := query?_currency h
      simp only [resolve, hq, isLoading]
      cases s.rate x.source target <;> rfl
  | translator t =>
      obtain ⟨target, -, hq⟩ := query?_translator h
      simp only [resolve, hq, isLoading]
      cases s.translation t.text t.source target <;> rfl
  | dictionary d =>
      simp only [resolve, query?_dictionary h, isLoading]
      cases s.definition d.word with
      | ok entry => rfl
      | error e => cases e <;> rfl
  | _ => cases h

end Answer

end Composer
