import Composer.Lookup.RateCache
import Mathlib.Data.List.Basic
import Mathlib.Data.List.Induction
/-!
# Composer.Proofs.Lookup.Rates

**A rate is asked for once, and only for its own pair.** A cache goes through requests that are made
one after the other, each with what the service would say to it (`RateCache.history`). What becomes
of the requests for a pair depends on no others (`filter_history`), and as long as nothing expires
the cache knows of every pair the rate that the service returned for it first (`get?_after`). Both
rest on two facts: no two pairs share a name (`nameOf_inj`), and what is dropped when a rate is kept
would not have counted again (`get?_insert_of_ne`).
-/

namespace Composer

/-! ### Requests -/

/-- A request for a rate. -/
structure RateRequest where
  /-- The currencies, in their order. -/
  pair : String × String
  /-- When it is made. -/
  madeAt : Nat
  /-- When the service has answered, if it is asked. -/
  answeredAt : Nat
  /-- What the service says, if it is asked. -/
  outcome : Except LookupError Float

/-- What became of a request. -/
structure RateReply where
  /-- The request. -/
  request : RateRequest
  /-- What is said to it. -/
  outcome : Except LookupError Float
  /-- Whether the service was asked. -/
  asked : Bool

/-- True of a pair of codes without the mark that stands between them in its name. -/
def IsCodePair (pair : String × String) : Prop :=
  ':' ∉ pair.1.toList ∧ ':' ∉ pair.2.toList

/-- The requests are made one after the other. -/
structure Successive (rs : List RateRequest) : Prop where
  /-- No answer comes before its request. -/
  madeAt_le : ∀ r ∈ rs, r.madeAt ≤ r.answeredAt
  /-- No request is made before the answers to all earlier ones. -/
  answeredAt_le : rs.Pairwise fun r r' => r.answeredAt ≤ r'.madeAt

/-- No rate expires before the last answer. -/
def Lasts (lifetime : Nat) (rs : List RateRequest) : Prop :=
  rs.Pairwise fun r r' => r'.answeredAt - r.answeredAt < lifetime

/-- The rate that the service returned first for a pair. -/
def firstRate? (replies : List RateReply) (pair : String × String) : Option Float :=
  (replies.filter fun x => x.asked ∧ x.request.pair = pair).findSome? (·.request.outcome.toOption)

theorem Successive.tail {r : RateRequest} {rs : List RateRequest} (h : Successive (r :: rs)) :
    Successive rs :=
  ⟨fun r' hr' => h.madeAt_le r' (List.mem_cons_of_mem r hr'), h.answeredAt_le.of_cons⟩

theorem Successive.of_append {rs rs' : List RateRequest} (h : Successive (rs ++ rs')) :
    Successive rs :=
  ⟨fun r hr => h.madeAt_le r (List.mem_append_left rs' hr),
    (List.pairwise_append.mp h.answeredAt_le).1⟩

namespace RateCache

/-- The name of a pair. -/
def nameOf (pair : String × String) : String :=
  keyOf pair.1 pair.2

/-- What becomes of a request. -/
def reply (c : RateCache) (r : RateRequest) : RateReply :=
  let (outcome, _, asked) := c.requestOver r.madeAt r.answeredAt r.pair.1 r.pair.2 r.outcome
  ⟨r, outcome, asked⟩

/-- The cache after a request. -/
def step (c : RateCache) (r : RateRequest) : RateCache :=
  (c.requestOver r.madeAt r.answeredAt r.pair.1 r.pair.2 r.outcome).2.1

/-- The cache after several requests. -/
def after (c : RateCache) (rs : List RateRequest) : RateCache :=
  rs.foldl step c

/-- What becomes of several requests. -/
def history (c : RateCache) : List RateRequest → List RateReply
  | [] => []
  | r :: rs => c.reply r :: (c.step r).history rs

/-! ### One request -/

/-- What can become of a request: a rate that counts is the answer, or the service is asked, whose
rate is kept and whose error is not. -/
theorem reply_cases (c : RateCache) (r : RateRequest) :
    (∃ rate, c.get? r.madeAt (nameOf r.pair) = some rate ∧
      c.reply r = ⟨r, .ok rate, false⟩ ∧ c.step r = c) ∨
    c.get? r.madeAt (nameOf r.pair) = none ∧ c.reply r = ⟨r, r.outcome, true⟩ ∧
      ((∃ rate, r.outcome = .ok rate ∧
          c.step r = c.insert r.answeredAt (nameOf r.pair) rate) ∨
        ∃ e, r.outcome = .error e ∧ c.step r = c) := by
  cases hget : c.get? r.madeAt (nameOf r.pair) with
  | some rate =>
      have hkey : c.get? r.madeAt (keyOf r.pair.1 r.pair.2) = some rate := hget
      exact Or.inl ⟨rate, rfl, by simp [reply, requestOver, hkey],
        by simp [step, requestOver, hkey]⟩
  | none =>
      have hkey : c.get? r.madeAt (keyOf r.pair.1 r.pair.2) = none := hget
      refine Or.inr ⟨rfl, ?_⟩
      cases houtcome : r.outcome with
      | ok rate =>
          exact ⟨by simp [reply, requestOver, hkey, houtcome], Or.inl ⟨rate, rfl,
            by simp [step, requestOver, hkey, houtcome, nameOf]⟩⟩
      | error e =>
          exact ⟨by simp [reply, requestOver, hkey, houtcome], Or.inr ⟨e, rfl,
            by simp [step, requestOver, hkey, houtcome]⟩⟩

@[simp] theorem request_reply (c : RateCache) (r : RateRequest) : (c.reply r).request = r := rfl

@[simp] theorem lifetime_step (c : RateCache) (r : RateRequest) :
    (c.step r).lifetime = c.lifetime := by
  rcases c.reply_cases r with ⟨_, _, _, h⟩ | ⟨_, _, ⟨_, _, h⟩ | ⟨_, _, h⟩⟩ <;> rw [h]
  rfl

/-! ### Names of pairs -/

/-- The mark between the codes of a pair tells where the first one ends. -/
theorem nameOf_inj {pair other : String × String} (h : IsCodePair pair) :
    nameOf pair = nameOf other ↔ pair = other := by
  have hname (p : String × String) : (nameOf p).toList = p.1.toList ++ ':' :: p.2.toList := by
    simp [nameOf, keyOf]
  rw [← String.toList_inj, hname, hname, List.append_cons_inj_of_notMem h.1 h.2, Prod.ext_iff]
  simp [String.toList_inj]

/-! ### Entries -/

/-- No pair has two entries. -/
def IsMap (c : RateCache) : Prop :=
  ∀ e ∈ c.entries, ∀ e' ∈ c.entries, e.key = e'.key → e = e'

theorem isMap_empty (lifetime : Nat) : (empty lifetime).IsMap :=
  fun _ h => absurd h List.not_mem_nil

theorem mem_insert {c : RateCache} {now : Nat} {key : String} {rate : Float} {e : RateEntry} :
    e ∈ (c.insert now key rate).entries ↔
      e = ⟨key, rate, now⟩ ∨ e ∈ c.entries ∧ isFresh c.lifetime now e = true ∧ e.key ≠ key := by
  simp [insert]

theorem IsMap.insert {c : RateCache} (h : c.IsMap) (now : Nat) (key : String) (rate : Float) :
    (c.insert now key rate).IsMap := by
  intro e he e' he' heq
  rw [mem_insert] at he he'
  rcases he with rfl | ⟨hmem, -, hne⟩
  · rcases he' with rfl | ⟨-, -, hne⟩
    · rfl
    · exact absurd heq.symm hne
  · rcases he' with rfl | ⟨hmem', -, -⟩
    · exact absurd heq hne
    · exact h e hmem e' hmem' heq

theorem IsMap.step {c : RateCache} (h : c.IsMap) (r : RateRequest) : (c.step r).IsMap := by
  rcases c.reply_cases r with ⟨_, _, _, hc⟩ | ⟨_, _, ⟨_, _, hc⟩ | ⟨_, _, hc⟩⟩
  · rwa [hc]
  · rw [hc]
    exact h.insert _ _ _
  · rwa [hc]

theorem get?_eq_some_iff {c : RateCache} (h : c.IsMap) {now : Nat} {key : String} {rate : Float} :
    c.get? now key = some rate ↔
      ∃ e ∈ c.entries, e.key = key ∧ isFresh c.lifetime now e = true ∧ e.rate = rate := by
  simp only [get?, Option.map_eq_some_iff, Option.filter_eq_some_iff]
  constructor
  · rintro ⟨e, ⟨hfind, hfresh⟩, rfl⟩
    exact ⟨e, List.mem_of_find?_eq_some hfind, by simpa using List.find?_some hfind, hfresh, rfl⟩
  · rintro ⟨e, hmem, rfl, hfresh, rfl⟩
    refine ⟨e, ⟨?_, hfresh⟩, rfl⟩
    -- The entry that is found has the same name, so it is this one.
    cases hfind : c.entries.find? (·.key == e.key) with
    | none => exact absurd (List.find?_eq_none.mp hfind e hmem) (by simp)
    | some e' =>
        have hkey : e'.key = e.key := by simpa using List.find?_some hfind
        rw [h e' (List.mem_of_find?_eq_some hfind) e hmem hkey]

/-- What is dropped when a rate is kept would not have counted again. -/
theorem get?_insert_of_ne {c : RateCache} (h : c.IsMap) {now later : Nat} (hle : now ≤ later)
    {key other : String} (hne : other ≠ key) (rate : Float) :
    (c.insert now key rate).get? later other = c.get? later other := by
  ext r
  rw [get?_eq_some_iff h, get?_eq_some_iff (h.insert now key rate)]
  constructor
  · rintro ⟨e, hmem, rfl, hfresh, rfl⟩
    rcases mem_insert.mp hmem with rfl | ⟨hmem, -, -⟩
    · exact absurd rfl hne
    · exact ⟨e, hmem, rfl, hfresh, rfl⟩
  · rintro ⟨e, hmem, rfl, hfresh, rfl⟩
    have hbefore : isFresh c.lifetime now e = true := by
      simp only [isFresh, decide_eq_true_eq] at hfresh ⊢
      omega
    exact ⟨e, mem_insert.mpr (Or.inr ⟨hmem, hbefore, hne⟩), rfl, hfresh, rfl⟩

/-! ### Requests for other pairs -/

/-- A request for another pair changes nothing that counts for this one afterwards. -/
theorem get?_step_of_ne {c : RateCache} (h : c.IsMap) {r : RateRequest} {pair : String × String}
    (hpair : IsCodePair pair) (hne : r.pair ≠ pair) {later : Nat} (hle : r.answeredAt ≤ later) :
    (c.step r).get? later (nameOf pair) = c.get? later (nameOf pair) := by
  have hname : nameOf pair ≠ nameOf r.pair := fun heq => hne ((nameOf_inj hpair).mp heq).symm
  rcases c.reply_cases r with ⟨_, _, _, hc⟩ | ⟨_, _, ⟨_, _, hc⟩ | ⟨_, _, hc⟩⟩
  · rw [hc]
  · rw [hc, get?_insert_of_ne h hle hname]
  · rw [hc]

/-- Two caches with the same rate for a pair answer a request for it alike and stay so. -/
theorem reply_congr {c c' : RateCache} (hlifetime : c.lifetime = c'.lifetime) {r : RateRequest}
    {start : Nat} (hstart : start ≤ r.madeAt) (hmade : r.madeAt ≤ r.answeredAt)
    (hget : ∀ later, start ≤ later → c.get? later (nameOf r.pair) = c'.get? later (nameOf r.pair)) :
    c.reply r = c'.reply r ∧ ∀ later, r.answeredAt ≤ later →
      (c.step r).get? later (nameOf r.pair) = (c'.step r).get? later (nameOf r.pair) := by
  have hnow := hget r.madeAt hstart
  have hlater : ∀ later, r.answeredAt ≤ later →
      c.get? later (nameOf r.pair) = c'.get? later (nameOf r.pair) :=
    fun later hle => hget later (by omega)
  rcases c.reply_cases r with ⟨rate, hc, hreply, hstep⟩ | ⟨hc, hreply, hstep⟩
  · rcases c'.reply_cases r with ⟨rate', hc', hreply', hstep'⟩ | ⟨hc', -, -⟩
    · obtain rfl : rate = rate' := Option.some.inj (by rw [← hc, ← hc', hnow])
      rw [hreply, hreply', hstep, hstep']
      exact ⟨rfl, hlater⟩
    · rw [hnow, hc'] at hc
      cases hc
  · rcases c'.reply_cases r with ⟨rate', hc', -, -⟩ | ⟨hc', hreply', hstep'⟩
    · rw [hnow, hc'] at hc
      cases hc
    · refine ⟨hreply.trans hreply'.symm, fun later hle => ?_⟩
      rcases hstep with ⟨rate, hok, hstep⟩ | ⟨e, herror, hstep⟩
      · rcases hstep' with ⟨rate', hok', hstep'⟩ | ⟨e, herror, -⟩
        · obtain rfl : rate = rate' := by simpa [hok] using hok'
          rw [hstep, hstep', get?_insert, get?_insert, hlifetime]
        · rw [hok] at herror
          cases herror
      · rcases hstep' with ⟨rate', hok', -⟩ | ⟨e, -, hstep'⟩
        · rw [herror] at hok'
          cases hok'
        · rw [hstep, hstep']
          exact hlater later hle

/-- What becomes of the requests for a pair is what would become of them alone. -/
theorem filter_history {pair : String × String} (hpair : IsCodePair pair) {rs : List RateRequest}
    (hrs : Successive rs) {c c' : RateCache} (h : c.IsMap) (hlifetime : c.lifetime = c'.lifetime)
    {start : Nat} (hstart : ∀ r ∈ rs, start ≤ r.madeAt)
    (hget : ∀ later, start ≤ later → c.get? later (nameOf pair) = c'.get? later (nameOf pair)) :
    (c.history rs).filter (·.request.pair = pair) = c'.history (rs.filter (·.pair = pair)) := by
  induction rs generalizing c c' start with
  | nil => rfl
  | cons r rs ih =>
      have hmade : r.madeAt ≤ r.answeredAt := hrs.madeAt_le r List.mem_cons_self
      have hnext : ∀ r' ∈ rs, r.answeredAt ≤ r'.madeAt := fun _ =>
        List.rel_of_pairwise_cons hrs.answeredAt_le
      have hr : start ≤ r.madeAt := hstart r List.mem_cons_self
      by_cases heq : r.pair = pair
      · subst heq
        obtain ⟨hreply, hlater⟩ := reply_congr hlifetime hr hmade hget
        have hlifetime' : (c.step r).lifetime = (c'.step r).lifetime := by
          rw [lifetime_step, lifetime_step, hlifetime]
        have hrest := ih hrs.tail (h.step r) hlifetime' hnext hlater
        simp [history, hreply, hrest]
      · have hrest := ih hrs.tail (h.step r) ((lifetime_step c r).trans hlifetime) hnext
          fun later hle => (get?_step_of_ne h hpair heq hle).trans (hget later (by omega))
        simp [history, heq, hrest]

/-! ### The first rate -/

theorem history_append (c : RateCache) (rs rs' : List RateRequest) :
    c.history (rs ++ rs') = c.history rs ++ (c.after rs).history rs' := by
  induction rs generalizing c with
  | nil => rfl
  | cons r rs ih => simp [history, after, ih]

theorem isMap_after (lifetime : Nat) (rs : List RateRequest) :
    ((empty lifetime).after rs).IsMap := by
  induction rs using List.reverseRecOn with
  | nil => exact isMap_empty lifetime
  | append_singleton rs r ih =>
      rw [after, List.foldl_append]
      exact ih.step r

@[simp] theorem lifetime_after (c : RateCache) (rs : List RateRequest) :
    (c.after rs).lifetime = c.lifetime := by
  induction rs generalizing c with
  | nil => rfl
  | cons r rs ih => exact (ih (c.step r)).trans (lifetime_step c r)

theorem firstRate?_append (xs ys : List RateReply) (pair : String × String) :
    firstRate? (xs ++ ys) pair = (firstRate? xs pair).or (firstRate? ys pair) := by
  simp [firstRate?]

theorem firstRate?_singleton (x : RateReply) (pair : String × String) :
    firstRate? [x] pair =
      if x.asked ∧ x.request.pair = pair then x.request.outcome.toOption else none := by
  by_cases h : x.asked = true ∧ x.request.pair = pair
  · simp [firstRate?, h]
  · simp [firstRate?, h]

/-- While nothing expires, a request adds the rate that the service returns to it to what is known
of its pair, unless there is one already. -/
theorem get?_step {c : RateCache} (h : c.IsMap) {r : RateRequest} {pair : String × String}
    (hpair : IsCodePair pair) {later : Nat} (hle : r.answeredAt ≤ later)
    (hlasts : later - r.answeredAt < c.lifetime)
    (hkept : c.get? r.madeAt (nameOf pair) = c.get? later (nameOf pair)) :
    (c.step r).get? later (nameOf pair) =
      (c.get? later (nameOf pair)).or (firstRate? [c.reply r] pair) := by
  rw [firstRate?_singleton]
  by_cases heq : r.pair = pair
  · subst heq
    rcases c.reply_cases r with
      ⟨rate, hget, hreply, hstep⟩ | ⟨hget, hreply, ⟨rate, hok, hstep⟩ | ⟨e, herror, hstep⟩⟩
    · simp [hstep, hreply]
    · rw [hstep, hreply, get?_insert, ← hkept, hget]
      simp [hlasts, hok, Except.toOption]
    · simp [hstep, hreply, herror, Except.toOption]
  · rw [get?_step_of_ne h hpair heq hle]
    simp [heq]

/-- As long as nothing expires, the cache knows of every pair the rate that the service returned
first for it. -/
theorem get?_after {lifetime : Nat} {rs : List RateRequest} (hrs : Successive rs) {now : Nat}
    (hnow : ∀ r ∈ rs, r.answeredAt ≤ now ∧ now - r.answeredAt < lifetime)
    {pair : String × String} (hpair : IsCodePair pair) :
    ((empty lifetime).after rs).get? now (nameOf pair) =
      firstRate? ((empty lifetime).history rs) pair := by
  induction rs using List.reverseRecOn generalizing now with
  | nil => rfl
  | append_singleton rs r ih =>
      have hmem : r ∈ rs ++ [r] := List.mem_append_right rs (List.mem_singleton_self r)
      have hpast : ∀ r' ∈ rs, r'.answeredAt ≤ r.madeAt := fun r' hr' =>
        (List.pairwise_append.mp hrs.answeredAt_le).2.2 r' hr' r (List.mem_singleton_self r)
      have hmade : r.madeAt ≤ r.answeredAt := hrs.madeAt_le r hmem
      obtain ⟨hle, hlasts⟩ := hnow r hmem
      have hearlier : ∀ r' ∈ rs, r'.answeredAt ≤ now ∧ now - r'.answeredAt < lifetime :=
        fun r' hr' => hnow r' (List.mem_append_left [r] hr')
      -- The same is known when the request is made and now.
      have hknown := ih hrs.of_append hearlier
      have hfresh : ∀ r' ∈ rs, r'.answeredAt ≤ r.madeAt ∧ r.madeAt - r'.answeredAt < lifetime :=
        fun r' hr' => ⟨hpast r' hr', by have := hearlier r' hr'; omega⟩
      have hbefore := ih hrs.of_append hfresh
      have hstep := get?_step (isMap_after lifetime rs) hpair hle
        (by rw [lifetime_after]; exact hlasts) (hbefore.trans hknown.symm)
      rw [after, List.foldl_append, history_append, firstRate?_append, ← hknown]
      exact hstep

/-- The requests before one, and what the cache knew when this one was made. -/
theorem get?_when_made {lifetime : Nat} {before later : List RateRequest} {r : RateRequest}
    (hcode : IsCodePair r.pair) (hrs : Successive (before ++ r :: later))
    (hlasts : Lasts lifetime (before ++ r :: later)) :
    ((empty lifetime).after before).get? r.madeAt (nameOf r.pair) =
      firstRate? ((empty lifetime).history before) r.pair := by
  refine get?_after hrs.of_append (fun r' hr' => ?_) hcode
  have hle := (List.pairwise_append.mp hrs.answeredAt_le).2.2 r' hr' r List.mem_cons_self
  have hlt := (List.pairwise_append.mp hlasts).2.2 r' hr' r List.mem_cons_self
  have hmade := hrs.madeAt_le r (List.mem_append_right before List.mem_cons_self)
  exact ⟨hle, by omega⟩

/-- Every reply is the one to a request, after those before it. -/
theorem history_eq_append {c : RateCache} {rs : List RateRequest} {before after : List RateReply}
    {x : RateReply} (h : c.history rs = before ++ x :: after) :
    ∃ earlier r later, rs = earlier ++ r :: later ∧ before = c.history earlier ∧
      x = (c.after earlier).reply r := by
  induction rs generalizing c before with
  | nil => simp [history] at h
  | cons r rs ih =>
      cases before with
      | nil =>
          obtain ⟨rfl, -⟩ := List.cons.inj h
          exact ⟨[], r, rs, rfl, rfl, rfl⟩
      | cons y before =>
          obtain ⟨rfl, hrest⟩ := List.cons.inj h
          obtain ⟨earlier, r', later, rfl, rfl, rfl⟩ := ih hrest
          exact ⟨r :: earlier, r', later, rfl, rfl, rfl⟩

/-! ### Replies -/

theorem outcome_of_asked {c : RateCache} {r : RateRequest} (h : (c.reply r).asked = true) :
    (c.reply r).outcome = r.outcome := by
  rcases c.reply_cases r with ⟨_, _, hreply, _⟩ | ⟨_, hreply, _⟩
  · rw [hreply] at h
    cases h
  · rw [hreply]

/-- An error is the one that the service returned, and it is not kept. -/
theorem reply_of_error {c : RateCache} {r : RateRequest} {e : LookupError}
    (h : (c.reply r).outcome = .error e) : (c.reply r).asked = true ∧ c.step r = c := by
  rcases c.reply_cases r with ⟨_, _, hreply, _⟩ | ⟨_, hreply, ⟨rate, hok, _⟩ | ⟨_, _, hstep⟩⟩
  · rw [hreply] at h
    cases h
  · rw [hreply] at h
    cases hok.symm.trans h
  · exact ⟨by rw [hreply], hstep⟩

/-- Without a lifetime no rate ever counts. -/
theorem asked_of_lifetime_eq_zero {c : RateCache} (h : c.lifetime = 0) (r : RateRequest) :
    (c.reply r).asked = true := by
  rcases c.reply_cases r with ⟨rate, hget, _, _⟩ | ⟨_, hreply, _⟩
  · simp [get?, isFresh, h] at hget
  · rw [hreply]

variable {lifetime : Nat} {earlier later : List RateRequest} {r : RateRequest}

/-- While nothing expires, the service is asked if it has returned no rate for the pair yet. -/
theorem asked_iff (hcode : IsCodePair r.pair) (hrs : Successive (earlier ++ r :: later))
    (hlasts : Lasts lifetime (earlier ++ r :: later)) :
    (((empty lifetime).after earlier).reply r).asked = true ↔
      firstRate? ((empty lifetime).history earlier) r.pair = none := by
  rw [← get?_when_made hcode hrs hlasts]
  rcases ((empty lifetime).after earlier).reply_cases r with
    ⟨rate, hget, hreply, _⟩ | ⟨hget, hreply, _⟩ <;> simp [hreply, hget]

/-- While nothing expires, every rate that is given out is the one that the service returned first
for the pair. -/
theorem firstRate?_of_ok (hcode : IsCodePair r.pair) (hrs : Successive (earlier ++ r :: later))
    (hlasts : Lasts lifetime (earlier ++ r :: later)) {rate : Float}
    (h : (((empty lifetime).after earlier).reply r).outcome = .ok rate) :
    firstRate? ((empty lifetime).history earlier ++ [((empty lifetime).after earlier).reply r])
      r.pair = some rate := by
  rw [firstRate?_append, firstRate?_singleton, ← get?_when_made hcode hrs hlasts]
  rcases ((empty lifetime).after earlier).reply_cases r with
    ⟨rate', hget, hreply, _⟩ | ⟨hget, hreply, _⟩
  · rw [hreply] at h
    cases h
    simp [hget]
  · rw [hreply] at h
    have hok : r.outcome = .ok rate := h
    simp [hget, hreply, hok, Except.toOption]

/-- A pair has a first rate as soon as one of its requests succeeded. -/
theorem firstRate?_eq_none_iff (hcodes : ∀ r ∈ earlier, IsCodePair r.pair)
    (hrs : Successive earlier) (hlasts : Lasts lifetime earlier) (pair : String × String) :
    firstRate? ((empty lifetime).history earlier) pair = none ↔
      ∀ y ∈ (empty lifetime).history earlier, y.request.pair = pair →
        ∀ rate, y.outcome ≠ .ok rate := by
  constructor
  · rintro hnone y hy rfl rate hok
    obtain ⟨before, after, hsplit⟩ := List.append_of_mem hy
    obtain ⟨before, r, after, rfl, rfl, rfl⟩ := history_eq_append hsplit
    have hfirst := firstRate?_of_ok (hcodes r (by simp)) hrs hlasts hok
    rw [request_reply, hsplit, List.append_cons, firstRate?_append, hfirst] at hnone
    cases hnone
  · intro hfailed
    rw [firstRate?, List.findSome?_eq_none_iff]
    intro y hy
    obtain ⟨hy, hasked, hpair⟩ : y ∈ (empty lifetime).history earlier ∧ y.asked = true ∧
        y.request.pair = pair := by simpa [List.mem_filter] using hy
    obtain ⟨before, after, hsplit⟩ := List.append_of_mem hy
    obtain ⟨before, r, after, -, -, rfl⟩ := history_eq_append hsplit
    have houtcome := outcome_of_asked hasked
    rw [request_reply, ← houtcome]
    cases hresult : ((((empty lifetime).after before)).reply r).outcome with
    | ok rate => exact absurd hresult (hfailed _ hy hpair rate)
    | error e => rfl

theorem map_request_history (c : RateCache) (rs : List RateRequest) :
    (c.history rs).map (·.request) = rs := by
  induction rs generalizing c with
  | nil => rfl
  | cons r rs ih => simp [history, ih]

/-- **The service is asked for a pair until it returns a rate.** Requests for coded pairs are made
one after the other, and every one gets a reply. As long as nothing expires, the service is asked
exactly if no earlier request for the same ordered pair succeeded, and every rate that is given out
is the one that the service returned first for this very pair; without a lifetime it is always
asked, and every request gets what it says. In any case what the service says is passed on, an error
comes from the service and leaves the cache as it is, and the requests for a pair get the replies,
and ask the service, as if there were no others. -/
theorem asked_until_first_rate {lifetime : Nat} {rs : List RateRequest}
    (hcodes : ∀ r ∈ rs, IsCodePair r.pair) (hrs : Successive rs) :
    let replies := (empty lifetime).history rs
    replies.map (·.request) = rs ∧
      (Lasts lifetime rs → ∀ before x after, replies = before ++ x :: after →
        (x.asked = true ↔
          ∀ y ∈ before, y.request.pair = x.request.pair → ∀ rate, y.outcome ≠ .ok rate) ∧
        ∀ rate, x.outcome = .ok rate →
          firstRate? (before ++ [x]) x.request.pair = some rate) ∧
      (lifetime = 0 → ∀ x ∈ replies, x.asked = true ∧ x.outcome = x.request.outcome) ∧
      (∀ x ∈ replies, x.asked = true → x.outcome = x.request.outcome) ∧
      (∀ earlier r later, rs = earlier ++ r :: later → ∀ e,
        (((empty lifetime).after earlier).reply r).outcome = .error e →
          (((empty lifetime).after earlier).reply r).asked = true ∧
            (empty lifetime).after (earlier ++ [r]) = (empty lifetime).after earlier) ∧
      ∀ pair, replies.filter (·.request.pair = pair) =
        (empty lifetime).history (rs.filter (·.pair = pair)) := by
  intro replies
  have hreply : ∀ x ∈ replies, ∃ earlier r, x = ((empty lifetime).after earlier).reply r := by
    intro x hx
    obtain ⟨before, after, hsplit⟩ := List.append_of_mem hx
    obtain ⟨earlier, r, -, -, -, rfl⟩ := history_eq_append hsplit
    exact ⟨earlier, r, rfl⟩
  refine ⟨map_request_history _ rs, fun hlasts before x after hsplit => ?_, ?_, ?_, ?_,
    fun pair => ?_⟩
  · obtain ⟨earlier, r, later, rfl, rfl, rfl⟩ := history_eq_append hsplit
    have hcode : IsCodePair r.pair := hcodes r (by simp)
    have hearlier := firstRate?_eq_none_iff (fun r' hr' => hcodes r' (List.mem_append_left _ hr'))
      hrs.of_append (List.pairwise_append.mp hlasts).1 r.pair
    exact ⟨(asked_iff hcode hrs hlasts).trans hearlier,
      fun rate => firstRate?_of_ok hcode hrs hlasts⟩
  · rintro rfl x hx
    obtain ⟨earlier, r, rfl⟩ := hreply x hx
    have hasked := asked_of_lifetime_eq_zero (lifetime_after (empty 0) earlier) r
    exact ⟨hasked, outcome_of_asked hasked⟩
  · intro x hx hasked
    obtain ⟨earlier, r, rfl⟩ := hreply x hx
    exact outcome_of_asked hasked
  · intro earlier r later _ e herror
    obtain ⟨hasked, hstep⟩ := reply_of_error herror
    refine ⟨hasked, ?_⟩
    rw [after, List.foldl_append]
    exact hstep
  · by_cases hpair : IsCodePair pair
    · exact filter_history hpair hrs (isMap_empty lifetime) rfl (fun r _ => Nat.zero_le r.madeAt)
        fun _ _ => rfl
    · -- Nobody asks for a pair that is none of codes.
      have hne : ∀ r ∈ rs, ¬ r.pair = pair := fun r hr heq => hpair (heq ▸ hcodes r hr)
      have hnone : rs.filter (·.pair = pair) = [] := by simpa [List.filter_eq_nil_iff] using hne
      rw [hnone, history, List.filter_eq_nil_iff]
      intro x hx heq
      have hmem : x.request ∈ rs := by
        rw [← map_request_history (empty lifetime) rs]
        exact List.mem_map_of_mem hx
      exact hne _ hmem (of_decide_eq_true heq)

/-- A pair that the service does not know, and one whose rate is asked for twice. -/
theorem asked_until_first_rate_of_unknown :
    let rs : List RateRequest := [
      ⟨("XXX", "EUR"), 0, 1, .error (.notFound "XXX")⟩,
      ⟨("USD", "EUR"), 1, 2, .ok 1.25⟩,
      ⟨("XXX", "EUR"), 3, 4, .error (.notFound "XXX")⟩,
      ⟨("USD", "EUR"), 5, 6, .ok 1.5⟩]
    (∀ r ∈ rs, IsCodePair r.pair) ∧ Successive rs ∧ Lasts 600 rs ∧
      ((empty 600).history rs).map (·.asked) = [true, true, true, false] ∧
      firstRate? ((empty 600).history rs) ("USD", "EUR") = some 1.25 := by
  intro rs
  have hcodes : ∀ r ∈ rs, IsCodePair r.pair := by simp [rs, IsCodePair]
  have hrs : Successive rs := ⟨by simp [rs], by simp [rs]⟩
  have hlasts : Lasts 600 rs := by simp [rs, Lasts]
  have hhistory : (empty 600).history rs = [
      ⟨⟨("XXX", "EUR"), 0, 1, .error (.notFound "XXX")⟩, .error (.notFound "XXX"), true⟩,
      ⟨⟨("USD", "EUR"), 1, 2, .ok 1.25⟩, .ok 1.25, true⟩,
      ⟨⟨("XXX", "EUR"), 3, 4, .error (.notFound "XXX")⟩, .error (.notFound "XXX"), true⟩] ++
      ⟨⟨("USD", "EUR"), 5, 6, .ok 1.5⟩, .ok 1.25, false⟩ :: [] := rfl
  refine ⟨hcodes, hrs, hlasts, by rw [hhistory]; rfl, ?_⟩
  rw [hhistory]
  exact ((asked_until_first_rate hcodes hrs).2.1 hlasts _ _ _ hhistory).2 1.25 rfl

end RateCache

end Composer
