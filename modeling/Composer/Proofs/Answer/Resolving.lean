import Composer.Proofs.Answer
import Mathlib.Logic.Basic
/-!
# Composer.Proofs.Answer.Resolving

**How an answer is resolved.** A `Consultation` is a computation that asks the services questions;
it says for every possible reply how it goes on, so its questions can be counted. `Answer.consult`
is the resolution of an answer as such a computation: an answer that needs a lookup asks one
question, made of its own fields, and every other answer asks none. `run_consult` relates it to
`Answer.resolve`, `resolve_spec` says what becomes of the answer, and `resolve_again` what happens
when it is resolved once more.
-/

namespace Composer

/-! ### Replies -/

/-- What a service says to a question when all goes well. -/
abbrev Query.Response : Query → Type
  | rate _ _ => Float
  | translation _ _ _ => String
  | definition _ => Entry

/-- What becomes of a call of a service. -/
inductive ServiceReply (α : Type) where
  /-- The service comes to an end, with a value or with an error. -/
  | returns (outcome : Except LookupError α)
  /-- The service breaks down. -/
  | breaksDown

/-- The outcome of a call; a service that breaks down counts as one that fails. -/
def ServiceReply.guarded {α : Type} : ServiceReply α → Except LookupError α
  | returns outcome => outcome
  | breaksDown => .error .panicked

/-- The replies of all services. -/
abbrev Backend := (q : Query) → ServiceReply q.Response

/-- The services as the outcomes of their calls. -/
def Backend.services (b : Backend) : Services where
  rate source target := (b (.rate source target)).guarded
  translation text source target := (b (.translation text source target)).guarded
  definition word := (b (.definition word)).guarded

/-- Services that never break down, as their replies. -/
def Services.backend (s : Services) : Backend
  | .rate source target => .returns (s.rate source target)
  | .translation text source target => .returns (s.translation text source target)
  | .definition word => .returns (s.definition word)

/-! ### Computations that ask questions -/

/-- A computation that may ask the services questions on its way to a result. -/
inductive Consultation (α : Type) where
  /-- The result. -/
  | done (result : α)
  /-- A question, and how to go on with its reply. -/
  | ask (q : Query) (next : ServiceReply q.Response → Consultation α)

namespace Consultation

variable {α β : Type}

/-- The same questions with another result. -/
def map (f : α → β) : Consultation α → Consultation β
  | done result => done (f result)
  | ask q next => ask q fun reply => (next reply).map f

/-- The questions that are asked, the earliest one first, and the result. -/
def run (b : Backend) : Consultation α → List Query × α
  | done result => ([], result)
  | ask q next => ((next (b q)).run b).map (q :: ·) id

@[simp] theorem run_map (b : Backend) (f : α → β) (c : Consultation α) :
    (c.map f).run b = (c.run b).map id f := by
  induction c with
  | done result => rfl
  | ask q next ih =>
      rw [map, run, run, ih]
      rfl

end Consultation

/-- An exchange with a target asks for its rate, unless it has one or failed. -/
def Money.Exchange.consult (x : Exchange) : Consultation Exchange :=
  match x.target with
  | none => .done x
  | some target =>
    if x.needsLookup then
      .ask (.rate x.source target) fun reply => .done (x.settle reply.guarded)
    else .done x

/-- A translation with a target asks for its text, unless it has one or failed. -/
def Language.Translation.consult (t : Translation) : Consultation Translation :=
  match t.target with
  | none => .done t
  | some target =>
    if t.needsLookup then
      .ask (.translation t.text t.source target) fun reply => .done (t.settle reply.guarded)
    else .done t

/-- A headword asks for its meanings, unless it has some or failed. -/
def Lexicon.Definition.consult (d : Definition) : Consultation Definition :=
  if d.needsLookup then
    .ask (.definition d.word) fun reply => .done (d.settle reply.guarded)
  else .done d

namespace Answer

/-- The resolution of an answer. -/
def consult : Answer → Consultation Answer
  | currency x => x.consult.map currency
  | translator t => t.consult.map translator
  | dictionary d => d.consult.map dictionary
  | a => .done a

/-- An answer that needs no lookup asks nothing and stays as it is. -/
theorem consult_of_not_needsLookup {a : Answer} (h : a.needsLookup = false) :
    a.consult = .done a := by
  cases a with
  | currency x =>
      have hx : x.needsLookup = false := h
      simp only [consult, Money.Exchange.consult, hx]
      cases x.target <;> rfl
  | translator t =>
      have ht : t.needsLookup = false := h
      simp only [consult, Language.Translation.consult, ht]
      cases t.target <;> rfl
  | dictionary d =>
      have hd : d.needsLookup = false := h
      simp only [consult, Lexicon.Definition.consult, hd]
      rfl
  | _ => rfl

theorem query?_of_not_needsLookup {a : Answer} (h : a.needsLookup = false) : a.query? = none := by
  simp [query?, h]

theorem resolve_of_not_needsLookup {a : Answer} (h : a.needsLookup = false) (s : Services) :
    a.resolve s = a := by
  have hquery : a.query? = none := query?_of_not_needsLookup h
  cases a with
  | currency x => simp only [resolve, hquery]
  | translator t => simp only [resolve, hquery]
  | dictionary d => simp only [resolve, hquery]
  | _ => rfl

/-- **What is run is what is asked.** The resolution asks the question of the answer, if it has one,
and comes to the answer that the services complete. -/
theorem run_consult (b : Backend) (a : Answer) :
    a.consult.run b = (a.query?.toList, a.resolve b.services) := by
  cases hneeds : a.needsLookup with
  | false =>
      rw [consult_of_not_needsLookup hneeds, query?_of_not_needsLookup hneeds,
        resolve_of_not_needsLookup hneeds]
      rfl
  | true =>
      cases a with
      | currency x =>
          obtain ⟨target, htarget, hquery⟩ := query?_currency hneeds
          have hx : x.needsLookup = true := hneeds
          simp [consult, Money.Exchange.consult, htarget, hx, resolve, hquery]
          rfl
      | translator t =>
          obtain ⟨target, htarget, hquery⟩ := query?_translator hneeds
          have ht : t.needsLookup = true := hneeds
          simp [consult, Language.Translation.consult, htarget, ht, resolve, hquery]
          rfl
      | dictionary d =>
          have hd : d.needsLookup = true := hneeds
          simp [consult, Lexicon.Definition.consult, hd, resolve, query?_dictionary hneeds]
          rfl
      | _ => cases hneeds

/-! ### What becomes of an answer -/

/-- The question is made of the fields of the answer. -/
def Poses : Answer → Query → Prop
  | currency x, .rate source target => source = x.source ∧ x.target = some target
  | translator t, .translation text source target =>
    text = t.text ∧ source = t.source ∧ t.target = some target
  | dictionary d, .definition word => word = d.word
  | _, _ => False

/-- Both answers belong to the same request. -/
def SameRequest : Answer → Answer → Prop
  | currency x, currency y => y.amount = x.amount ∧ y.source = x.source ∧ y.target = x.target
  | translator t, translator u => u.text = t.text ∧ u.source = t.source ∧ u.target = t.target
  | dictionary d, dictionary e => e.word = d.word
  | _, _ => False

/-- The answer holds what a service said. -/
def Holds : Answer → (q : Query) → q.Response → Prop
  | currency x, .rate _ _, rate => x.rate = some rate ∧ x.converted = some (x.amount * rate)
  | translator t, .translation _ _ _, translated => t.translated = some translated
  | dictionary d, .definition _, entry =>
    d.phonetic = entry.phonetic ∧ d.meanings = entry.meanings
  | _, _, _ => False

/-- The answer holds nothing that a service says. -/
def Lacks : Answer → Prop
  | currency x => x.rate = none
  | translator t => t.translated = none
  | dictionary d => d.meanings = []
  | _ => False

/-- The answer is complete: it holds the value that the service replied. -/
structure Final (a : Answer) (q : Query) (reply : ServiceReply q.Response) : Prop where
  /-- Nothing is missing. -/
  isPartial_eq : a.isPartial = false
  /-- Nothing went wrong. -/
  error_eq : a.error = none
  /-- The value of the service is stored. -/
  holds : ∃ value, reply = .returns (.ok value) ∧ a.Holds q value

/-- The answer will not be completed: it tells why, and it is what it was without the service. -/
structure Failed (a : Answer) : Prop where
  /-- It stays partial. -/
  isPartial_eq : a.isPartial = true
  /-- Something went wrong. -/
  error_isSome : a.error.isSome = true
  /-- Nothing of the service is stored. -/
  lacks : a.Lacks

theorem Final.not_failed {a : Answer} {q : Query} {reply : ServiceReply q.Response}
    (h : a.Final q reply) : ¬ a.Failed := by
  intro hfailed
  have hpartial := hfailed.isPartial_eq
  rw [h.isPartial_eq] at hpartial
  cases hpartial

/-- What a reply makes of an answer. -/
inductive Settled (a : Answer) (q : Query) (reply : ServiceReply q.Response) : Prop
  /-- A value completes it. -/
  | final : a.Final q reply → Settled a q reply
  /-- Anything else makes it fail. -/
  | failed : (∀ value, reply ≠ .returns (.ok value)) → a.Failed → Settled a q reply

namespace Settled

variable {a : Answer} {q : Query} {reply : ServiceReply q.Response}

theorem xor (h : a.Settled q reply) : Xor (a.Final q reply) a.Failed := by
  cases h with
  | final hfinal => exact Or.inl ⟨hfinal, hfinal.not_failed⟩
  | failed _ hfailed => exact Or.inr ⟨hfailed, fun hfinal => hfinal.not_failed hfailed⟩

theorem final_iff (h : a.Settled q reply) :
    a.Final q reply ↔ ∃ value, reply = .returns (.ok value) := by
  constructor
  · intro hfinal
    obtain ⟨value, hvalue, -⟩ := hfinal.holds
    exact ⟨value, hvalue⟩
  · rintro ⟨value, hvalue⟩
    cases h with
    | final hfinal => exact hfinal
    | failed hnone _ => exact absurd hvalue (hnone value)

end Settled

/-- An exchange is completed by its rate. -/
theorem settled_currency {x : Money.Exchange} (hneeds : (currency x).needsLookup = true)
    (hpartial : (currency x).isPartial = true) {source target : String}
    (reply : ServiceReply Float) :
    (currency (x.settle reply.guarded)).Settled (.rate source target) reply := by
  have hrate : x.rate = none := by
    simp [needsLookup, Money.Exchange.needsLookup] at hneeds
    exact hneeds.1.2
  cases reply with
  | returns outcome =>
      cases outcome with
      | ok rate => exact .final ⟨rfl, rfl, rate, rfl, rfl, rfl⟩
      | error e => exact .failed (fun _ h => by cases h) ⟨hpartial, rfl, hrate⟩
  | breaksDown => exact .failed (fun _ h => by cases h) ⟨hpartial, rfl, hrate⟩

/-- A translation is completed by the translated text. -/
theorem settled_translator {t : Language.Translation} (hneeds : (translator t).needsLookup = true)
    (hpartial : (translator t).isPartial = true) {text : String} {source : Option String}
    {target : String} (reply : ServiceReply String) :
    (translator (t.settle reply.guarded)).Settled (.translation text source target) reply := by
  have htranslated : t.translated = none := by
    simp [needsLookup, Language.Translation.needsLookup] at hneeds
    exact hneeds.1.2
  cases reply with
  | returns outcome =>
      cases outcome with
      | ok translated => exact .final ⟨rfl, rfl, translated, rfl, rfl⟩
      | error e => exact .failed (fun _ h => by cases h) ⟨hpartial, rfl, htranslated⟩
  | breaksDown => exact .failed (fun _ h => by cases h) ⟨hpartial, rfl, htranslated⟩

/-- A definition is completed by the entry of its word. -/
theorem settled_dictionary {d : Lexicon.Definition} (hneeds : (dictionary d).needsLookup = true)
    (hpartial : (dictionary d).isPartial = true) {word : String} (reply : ServiceReply Entry) :
    (dictionary (d.settle reply.guarded)).Settled (.definition word) reply := by
  have hmeanings : d.meanings = [] := by
    simp [needsLookup, Lexicon.Definition.needsLookup] at hneeds
    exact hneeds.1.2
  cases reply with
  | returns outcome =>
      cases outcome with
      | ok entry => exact .final ⟨rfl, rfl, entry, rfl, rfl, rfl⟩
      | error e =>
          -- An unknown word has a message of its own.
          refine .failed (fun _ h => by cases h) ?_
          cases e <;> exact ⟨hpartial, rfl, hmeanings⟩
  | breaksDown => exact .failed (fun _ h => by cases h) ⟨hpartial, rfl, hmeanings⟩

theorem sameRequest_currency (x : Money.Exchange) (outcome : Except LookupError Float) :
    (currency x).SameRequest (currency (x.settle outcome)) := by
  cases outcome <;> exact ⟨rfl, rfl, rfl⟩

theorem sameRequest_translator (t : Language.Translation) (outcome : Except LookupError String) :
    (translator t).SameRequest (translator (t.settle outcome)) := by
  cases outcome <;> exact ⟨rfl, rfl, rfl⟩

theorem sameRequest_dictionary (d : Lexicon.Definition) (outcome : Except LookupError Entry) :
    (dictionary d).SameRequest (dictionary (d.settle outcome)) := by
  match outcome with
  | .ok entry => exact rfl
  | .error e => cases e <;> exact rfl

/-- The reply to the question of an answer settles it. -/
theorem settled_resolve (b : Backend) {a : Answer} (hneeds : a.needsLookup = true)
    (hpartial : a.isPartial = true) : ∃ q, a.query? = some q ∧ a.Poses q ∧
      a.SameRequest (a.resolve b.services) ∧ (a.resolve b.services).Settled q (b q) := by
  cases a with
  | currency x =>
      obtain ⟨target, htarget, hquery⟩ := query?_currency hneeds
      have hresolve : (currency x).resolve b.services =
          currency (x.settle (b (.rate x.source target)).guarded) := by
        simp only [resolve, hquery]
        rfl
      rw [hresolve]
      exact ⟨.rate x.source target, hquery, ⟨rfl, htarget⟩, sameRequest_currency x _,
        settled_currency hneeds hpartial _⟩
  | translator t =>
      obtain ⟨target, htarget, hquery⟩ := query?_translator hneeds
      have hresolve : (translator t).resolve b.services =
          translator (t.settle (b (.translation t.text t.source target)).guarded) := by
        simp only [resolve, hquery]
        rfl
      rw [hresolve]
      exact ⟨.translation t.text t.source target, hquery, ⟨rfl, rfl, htarget⟩,
        sameRequest_translator t _, settled_translator hneeds hpartial _⟩
  | dictionary d =>
      have hquery := query?_dictionary hneeds
      have hresolve : (dictionary d).resolve b.services =
          dictionary (d.settle (b (.definition d.word)).guarded) := by
        simp only [resolve, hquery]
        rfl
      rw [hresolve]
      exact ⟨.definition d.word, hquery, rfl, sameRequest_dictionary d _,
        settled_dictionary hneeds hpartial _⟩
  | _ => cases hneeds

/-- **What it means to resolve an answer.** A partial answer that needs a lookup asks one question,
made of its own fields. Whatever the reply is, it turns into an answer of the same tool to the same
request that no lookup is on its way for, and either this one is complete, with the value of the
service, or it failed; it is complete exactly if the service replied with a value. An answer that
needs no lookup asks nothing and stays as it is. -/
theorem resolve_spec (b : Backend) (a : Answer) :
    (a.needsLookup = true → a.isPartial = true → ∃ q, a.Poses q ∧
      a.consult.run b = ([q], a.resolve b.services) ∧
      (a.resolve b.services).tool = a.tool ∧
      a.SameRequest (a.resolve b.services) ∧
      (a.resolve b.services).isLoading = false ∧
      Xor ((a.resolve b.services).Final q (b q)) (a.resolve b.services).Failed ∧
      ((a.resolve b.services).Final q (b q) ↔ ∃ value, b q = .returns (.ok value))) ∧
    (a.needsLookup = false →
      a.consult.run b = ([], a) ∧ a.resolve b.services = a) := by
  refine ⟨fun hneeds hpartial => ?_, fun hneeds => ?_⟩
  · obtain ⟨q, hquery, hposes, hrequest, hsettled⟩ := settled_resolve b hneeds hpartial
    refine ⟨q, hposes, ?_, tool_resolve _ a, hrequest, isLoading_resolve _ hneeds, hsettled.xor,
      hsettled.final_iff⟩
    rw [run_consult, hquery]
    rfl
  · rw [run_consult, query?_of_not_needsLookup hneeds, resolve_of_not_needsLookup hneeds]
    exact ⟨rfl, rfl⟩

/-- A word for which the dictionary breaks down, and an answer of a tool without lookups. -/
theorem resolve_spec_of_breakdown :
    let apple : Answer := .dictionary (.ofWord "apple")
    let time : Answer := .timer (.ofSeconds 60 none)
    let b : Backend := fun _ => .breaksDown
    (apple.needsLookup = true ∧ apple.isPartial = true ∧
      apple.consult.run b = ([.definition "apple"], apple.resolve b.services) ∧
      (apple.resolve b.services).Failed) ∧
    time.needsLookup = false ∧ time.consult.run b = ([], time) := by
  intro apple time b
  refine ⟨⟨by decide, by decide, ?_⟩, by decide, ((resolve_spec b time).2 (by decide)).1⟩
  obtain ⟨q, hposes, hrun, -, -, -, hxor, hiff⟩ := (resolve_spec b apple).1 (by decide) (by decide)
  cases q with
  | definition word =>
      obtain rfl : word = "apple" := hposes
      refine ⟨hrun, (hxor.resolve_left fun h => ?_).1⟩
      obtain ⟨value, hvalue⟩ := hiff.mp h.1
      cases hvalue
  | rate _ _ => exact False.elim hposes
  | translation _ _ _ => exact False.elim hposes

/-! ### Resolving once more -/

/-- The dictionary knows the headword, and has no meaning for it. -/
def MeansNothing (b : Backend) : Answer → Prop
  | dictionary d => d.needsLookup = true ∧
      ∃ entry : Entry, b (.definition d.word) = .returns (.ok entry) ∧ entry.meanings = []
  | _ => False

theorem not_needsLookup_settle_currency (x : Money.Exchange) (outcome : Except LookupError Float) :
    (currency (x.settle outcome)).needsLookup = false := by
  cases outcome <;> simp [needsLookup, Money.Exchange.needsLookup, Money.Exchange.settle,
    Money.Exchange.withRate, Money.Exchange.withError]

theorem not_needsLookup_settle_translator (t : Language.Translation)
    (outcome : Except LookupError String) :
    (translator (t.settle outcome)).needsLookup = false := by
  cases outcome <;> simp [needsLookup, Language.Translation.needsLookup,
    Language.Translation.settle, Language.Translation.withTranslation,
    Language.Translation.withError]

/-- A definition is told from one that still has to be looked up by its meanings alone. -/
theorem needsLookup_settle_dictionary {d : Lexicon.Definition} (hneeds : d.needsLookup = true)
    (reply : ServiceReply Entry) :
    (dictionary (d.settle reply.guarded)).needsLookup = true ↔
      ∃ entry : Entry, reply = .returns (.ok entry) ∧ entry.meanings = [] := by
  have hword : d.word ≠ "" := by
    simp [Lexicon.Definition.needsLookup] at hneeds
    exact hneeds.1.1
  have hfailed : ∀ e, (dictionary (d.settle (.error e))).needsLookup = false := by
    intro e
    cases e <;> simp [needsLookup, Lexicon.Definition.needsLookup, Lexicon.Definition.settle,
      Lexicon.Definition.withError]
  cases reply with
  | returns outcome =>
      cases outcome with
      | ok entry => simp [needsLookup, Lexicon.Definition.needsLookup, ServiceReply.guarded,
          Lexicon.Definition.settle, Lexicon.Definition.withDefinition, hword]
      | error e => simp [ServiceReply.guarded, hfailed]
  | breaksDown => exact iff_of_false (by rw [ServiceReply.guarded, hfailed]; simp) (by simp)

/-- A resolved answer only needs another lookup if the dictionary had no meaning. -/
theorem needsLookup_resolve_iff (b : Backend) (a : Answer) :
    (a.resolve b.services).needsLookup = true ↔ a.MeansNothing b := by
  cases hneeds : a.needsLookup with
  | false =>
      rw [resolve_of_not_needsLookup hneeds, hneeds]
      refine iff_of_false Bool.false_ne_true fun h => ?_
      cases a with
      | dictionary d =>
          have hd : d.needsLookup = true := h.1
          rw [show d.needsLookup = false from hneeds] at hd
          cases hd
      | _ => exact h
  | true =>
      cases a with
      | currency x =>
          obtain ⟨target, -, hquery⟩ := query?_currency hneeds
          simp only [resolve, hquery, not_needsLookup_settle_currency]
          exact iff_of_false Bool.false_ne_true id
      | translator t =>
          obtain ⟨target, -, hquery⟩ := query?_translator hneeds
          simp only [resolve, hquery, not_needsLookup_settle_translator]
          exact iff_of_false Bool.false_ne_true id
      | dictionary d =>
          have hd : d.needsLookup = true := hneeds
          simp only [resolve, query?_dictionary hneeds]
          exact (needsLookup_settle_dictionary hd _).trans (by simp [MeansNothing, hd])
      | _ => cases hneeds

/-- **What is resolved stays as it is, but for a word that means nothing.** Whatever the services
reply, an answer that was resolved needs no lookup: to resolve it once more asks nothing and changes
nothing. There is one exception: a word for which the dictionary has an entry without a meaning is
asked about once more. -/
theorem resolve_again (b later : Backend) (a : Answer) :
    (¬ a.MeansNothing b →
      (a.resolve b.services).needsLookup = false ∧
        (a.resolve b.services).consult.run later = ([], a.resolve b.services)) ∧
      (a.MeansNothing b → (a.resolve b.services).needsLookup = true ∧
        ∃ q, a.consult.run b = ([q], a.resolve b.services) ∧
          (a.resolve b.services).consult.run later =
            ([q], (a.resolve b.services).resolve later.services)) := by
  constructor
  · intro hmeans
    have hneeds : (a.resolve b.services).needsLookup = false := by
      rw [Bool.eq_false_iff]
      exact fun h => hmeans ((needsLookup_resolve_iff b a).mp h)
    rw [run_consult, query?_of_not_needsLookup hneeds, resolve_of_not_needsLookup hneeds]
    exact ⟨hneeds, rfl⟩
  · intro hmeans
    have hneeds : (a.resolve b.services).needsLookup = true :=
      (needsLookup_resolve_iff b a).mpr hmeans
    cases a with
    | dictionary d =>
        have hquery : (dictionary d).query? = some (.definition d.word) :=
          query?_dictionary hmeans.1
        -- The word is the same in both questions.
        have hagain : ((dictionary d).resolve b.services).query? = some (.definition d.word) := by
          have hresolve : (dictionary d).resolve b.services =
              dictionary (d.settle (b.services.definition d.word)) := by
            simp only [resolve, hquery]
          have hword := sameRequest_dictionary d (b.services.definition d.word)
          rw [hresolve] at hneeds ⊢
          rw [query?_dictionary hneeds]
          exact congrArg (some ∘ Query.definition) hword
        refine ⟨hneeds, .definition d.word, ?_, ?_⟩
        · rw [run_consult, hquery]
          rfl
        · rw [run_consult, hagain]
          rfl
    | _ => exact hmeans.elim

/-- The dictionary has an entry for every word, without a meaning. Nothing else is known. -/
def emptyEntries : Backend :=
  Services.backend {
    rate := fun _ _ => .error .panicked
    translation := fun _ _ _ => .error .panicked
    definition := fun _ => .ok ⟨none, []⟩ }

/-- A word without a meaning is complete and did not fail, and yet it is asked about again. If the
dictionary breaks down then, the answer changes. -/
theorem asked_again_without_meaning :
    let apple : Answer := .dictionary (.ofWord "apple")
    let resolved := apple.resolve emptyEntries.services
    let again := resolved.consult.run fun _ => .breaksDown
    resolved.isPartial = false ∧ resolved.error = none ∧ resolved.needsLookup = true ∧
      again.1 = [.definition "apple"] ∧ again.2 ≠ resolved := by
  decide

end Answer

end Composer
