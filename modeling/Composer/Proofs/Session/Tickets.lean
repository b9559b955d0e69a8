import Composer.Session.Ticket
import Composer.Proofs.Session.Run
/-!
# Composer.Proofs.Session.Tickets

**Which tickets are current.** A count goes on with every start of a lookup on its channel, with
every invalidation of the channel and with every invalidation of all channels, and with nothing else
(`current_run`). So the number of a ticket says how often its channel was counted on before, and
whether the ticket is current says whether it was counted on since. The main statement,
`isCurrent_iff_not_superseded`, is about any history of the counts.
-/

namespace Composer

namespace Tickets

/-- What can be done with the counts. -/
inductive Action where
  /-- A lookup starts on a channel. -/
  | begin (c : Channel)
  /-- All tickets of a channel become stale. -/
  | invalidate (c : Channel)
  /-- All tickets become stale. -/
  | invalidateAll
deriving DecidableEq, Repr

/-- True of an action that counts a channel on. -/
def Action.counts (c : Channel) : Action → Bool
  | begin d => d = c
  | invalidate d => d = c
  | invalidateAll => true

/-- The counts after an action. -/
def act (t : Tickets) : Action → Tickets
  | .begin c => t.begin c
  | .invalidate c => t.invalidate c
  | .invalidateAll => t.invalidateAll

/-- The counts after several actions. -/
def run (t : Tickets) (actions : List Action) : Tickets :=
  actions.foldl act t

/-- The ticket of a lookup that starts now. -/
def next (t : Tickets) (c : Channel) : Ticket :=
  (t.begin c).ticket c

/-- The tickets of the lookups that start in the course of several actions, the earliest one
first. -/
def issued : Tickets → List Action → List Ticket
  | _, [] => []
  | t, .begin c :: actions => t.next c :: issued (t.begin c) actions
  | t, a :: actions => issued (t.act a) actions

@[simp] theorem run_cons (t : Tickets) (a : Action) (actions : List Action) :
    t.run (a :: actions) = (t.act a).run actions := rfl

@[simp] theorem run_append (t : Tickets) (before after : List Action) :
    t.run (before ++ after) = (t.run before).run after :=
  List.foldl_append

@[simp] theorem channel_next (t : Tickets) (c : Channel) : (t.next c).channel = c := rfl

@[simp] theorem number_next (t : Tickets) (c : Channel) :
    (t.next c).number = t.current c + 1 := by
  simp [next, ticket]

theorem counts_eq_false_iff {c : Channel} {a : Action} :
    a.counts c = false ↔ a ≠ .begin c ∧ a ≠ .invalidate c ∧ a ≠ .invalidateAll := by
  cases a with
  | begin d => simp [Action.counts]
  | invalidate d => simp [Action.counts]
  | invalidateAll => simp [Action.counts]

/-! ### Counting -/

theorem current_act (t : Tickets) (a : Action) (c : Channel) :
    (t.act a).current c = if a.counts c then t.current c + 1 else t.current c := by
  cases a with
  | begin d => simp [act, Action.counts, eq_comm]
  | invalidate d => simp [act, Action.counts, eq_comm]
  | invalidateAll => simp [act, Action.counts]

theorem current_act_le (t : Tickets) (a : Action) (c : Channel) :
    t.current c ≤ (t.act a).current c := by
  rw [current_act]
  split <;> omega

/-- A count goes on by the number of actions that count its channel on. -/
theorem current_run (t : Tickets) (actions : List Action) (c : Channel) :
    (t.run actions).current c = t.current c + actions.countP (·.counts c) := by
  induction actions generalizing t with
  | nil => rfl
  | cons a actions ih =>
      rw [run_cons, ih, current_act, List.countP_cons]
      split <;> omega

/-- The ticket of a lookup is current as long as nothing counts its channel on. -/
theorem isCurrent_next_iff (t : Tickets) (c : Channel) (after : List Action) :
    ((t.begin c).run after).isCurrent (t.next c) = true ↔
      ∀ a ∈ after, a.counts c = false := by
  have hcurrent : ((t.begin c).run after).current c =
      t.current c + 1 + after.countP (·.counts c) := by
    rw [current_run, current_begin, if_pos rfl]
  have hnone : after.countP (·.counts c) = 0 ↔ ∀ a ∈ after, a.counts c = false := by
    rw [List.countP_eq_zero]
    simp
  rw [← hnone, isCurrent, decide_eq_true_iff, channel_next, number_next, hcurrent]
  omega

/-! ### The tickets of a history -/

/-- A ticket has a number beyond the count at the beginning of the history. -/
theorem lt_number_of_mem_issued {t : Tickets} {actions : List Action} {k : Ticket}
    (h : k ∈ t.issued actions) : t.current k.channel < k.number := by
  induction actions generalizing t with
  | nil => cases h
  | cons a actions ih =>
      have hlater (hk : k ∈ (t.act a).issued actions) : t.current k.channel < k.number :=
        Nat.lt_of_le_of_lt (current_act_le t a k.channel) (ih hk)
      cases a with
      | begin c =>
          rcases List.mem_cons.mp h with hfirst | hk
          · rw [hfirst, channel_next, number_next]
            exact Nat.lt_succ_self _
          · exact hlater hk
      | invalidate c => exact hlater h
      | invalidateAll => exact hlater h

theorem nodup_issued (t : Tickets) (actions : List Action) : (t.issued actions).Nodup := by
  induction actions generalizing t with
  | nil => exact List.nodup_nil
  | cons a actions ih =>
      cases a with
      | begin c =>
          refine List.nodup_cons.mpr ⟨?_, ih (t.begin c)⟩
          -- Every later ticket of the channel has a number beyond the count after this start.
          intro hagain
          have hlt := lt_number_of_mem_issued hagain
          rw [channel_next, number_next, current_begin, if_pos rfl] at hlt
          exact Nat.lt_irrefl _ hlt
      | invalidate c => exact ih (t.invalidate c)
      | invalidateAll => exact ih t.invalidateAll

/-- The tickets of a history are those that its starts of lookups take. -/
theorem mem_issued_iff {t : Tickets} {actions : List Action} {k : Ticket} :
    k ∈ t.issued actions ↔ ∃ before c after,
      actions = before ++ .begin c :: after ∧ k = (t.run before).next c := by
  induction actions generalizing t with
  | nil => simp [issued]
  | cons a actions ih =>
      -- Either the first action takes the ticket, or one of the later ones does.
      have hsplit : (∃ before c after, a :: actions = before ++ .begin c :: after ∧
            k = (t.run before).next c) ↔
          (∃ c, a = .begin c ∧ k = t.next c) ∨ k ∈ (t.act a).issued actions := by
        rw [ih]
        constructor
        · rintro ⟨before, c, after, hactions, rfl⟩
          cases before with
          | nil =>
              obtain ⟨ha, -⟩ := List.cons.inj hactions
              exact Or.inl ⟨c, ha, rfl⟩
          | cons b before =>
              obtain ⟨rfl, hrest⟩ := List.cons.inj hactions
              exact Or.inr ⟨before, c, after, hrest, rfl⟩
        · rintro (⟨c, rfl, rfl⟩ | ⟨before, c, after, rfl, rfl⟩)
          · exact ⟨[], c, actions, rfl, rfl⟩
          · exact ⟨a :: before, c, after, rfl, rfl⟩
      rw [hsplit]
      cases a with
      | begin c => simp [issued, act]
      | invalidate c => simp [issued]
      | invalidateAll => simp [issued]

/-- Two current tickets of one channel are the same ticket. -/
theorem eq_of_isCurrent {t : Tickets} {k k' : Ticket} (hchannel : k.channel = k'.channel)
    (hk : t.isCurrent k = true) (hk' : t.isCurrent k' = true) : k = k' := by
  have hnumber : k.number = k'.number := by
    rw [← of_decide_eq_true hk, ← of_decide_eq_true hk', hchannel]
  cases k
  cases k'
  simp_all

/-- The tickets of a channel depend on the actions that count the channel on, and on no others. -/
theorem issued_filter_counts {t t' : Tickets} {c : Channel} (h : t.current c = t'.current c)
    (actions : List Action) :
    (t.issued actions).filter (·.channel = c) = t'.issued (actions.filter (·.counts c)) := by
  induction actions generalizing t t' with
  | nil => rfl
  | cons a actions ih =>
      have hact (hcounts : a.counts c = true) : (t.act a).current c = (t'.act a).current c := by
        rw [current_act, current_act, if_pos hcounts, if_pos hcounts, h]
      have hskip (hcounts : a.counts c = false) : (t.act a).current c = t'.current c := by
        rw [current_act, hcounts, if_neg Bool.false_ne_true, h]
      by_cases hcounts : a.counts c = true
      · rw [List.filter_cons_of_pos hcounts]
        cases a with
        | begin d =>
            obtain rfl : d = c := of_decide_eq_true hcounts
            have hnext : t.next d = t'.next d := by
              rw [next, next, ticket, ticket, current_begin, current_begin, h]
            rw [issued, issued, List.filter_cons_of_pos (by simp), hnext]
            exact congrArg _ (ih (hact hcounts))
        | invalidate d => exact ih (hact hcounts)
        | invalidateAll => exact ih (hact hcounts)
      · rw [List.filter_cons_of_neg hcounts]
        have hnot : a.counts c = false := Bool.eq_false_iff.mpr hcounts
        cases a with
        | begin d =>
            have hd : d ≠ c := of_decide_eq_false hnot
            rw [issued, List.filter_cons_of_neg (by simp [hd])]
            exact ih (hskip hnot)
        | invalidate d => exact ih (hskip hnot)
        | invalidateAll => exact absurd rfl hcounts

theorem isCurrent_run_filter (actions : List Action) (k : Ticket) (t : Tickets) :
    (t.run (actions.filter (·.counts k.channel))).isCurrent k = (t.run actions).isCurrent k := by
  rw [isCurrent, isCurrent, current_run, current_run, List.countP_filter]
  simp

/-- **A ticket is current exactly if nothing has superseded it.** In any history of the counts from
their start, let a lookup start on a channel. Its ticket is current at the end if and only if no
lookup started on the channel afterwards, the channel was not invalidated, and neither were all
channels. No two lookups ever have equal tickets, at most one ticket of a channel is current, and
both the tickets of a channel and which of them are current stay the same when all actions on other
channels are left out. No count exceeds the number of actions, so a history has to be longer than
`2 ^ 64` to go beyond 64 bits. -/
theorem isCurrent_iff_not_superseded :
    (∀ (before after : List Action) (c : Channel),
      (initial.run (before ++ .begin c :: after)).isCurrent ((initial.run before).next c) = true ↔
        Action.begin c ∉ after ∧ Action.invalidate c ∉ after ∧ Action.invalidateAll ∉ after) ∧
    ∀ actions : List Action,
      (∀ k, k ∈ initial.issued actions ↔ ∃ before c after,
        actions = before ++ .begin c :: after ∧ k = (initial.run before).next c) ∧
      (initial.issued actions).Nodup ∧
      ∀ c : Channel,
        ((initial.issued actions).filter fun k =>
          k.channel = c ∧ (initial.run actions).isCurrent k = true).length ≤ 1 ∧
        (initial.issued actions).filter (·.channel = c) =
          initial.issued (actions.filter (·.counts c)) ∧
        (∀ n, (initial.run (actions.filter (·.counts c))).isCurrent ⟨c, n⟩ =
          (initial.run actions).isCurrent ⟨c, n⟩) ∧
        (initial.run actions).current c ≤ actions.length := by
  refine ⟨fun before after c => ?_, fun actions =>
    ⟨fun _ => mem_issued_iff, nodup_issued initial actions, fun c =>
      ⟨?_, issued_filter_counts rfl actions, fun n => isCurrent_run_filter actions ⟨c, n⟩ initial,
        ?_⟩⟩⟩
  · rw [run_append, run_cons, act, isCurrent_next_iff]
    simp only [counts_eq_false_iff]
    constructor
    · intro hnone
      exact ⟨fun hmem => (hnone _ hmem).1 rfl, fun hmem => (hnone _ hmem).2.1 rfl,
        fun hmem => (hnone _ hmem).2.2 rfl⟩
    · intro hnone a ha
      exact ⟨fun heq => hnone.1 (heq ▸ ha), fun heq => hnone.2.1 (heq ▸ ha),
        fun heq => hnone.2.2 (heq ▸ ha)⟩
  · refine length_filter_le_one (nodup_issued initial actions) ?_
    intro k _ k' _ hk hk'
    obtain ⟨hchannel, hcurrent⟩ := of_decide_eq_true hk
    obtain ⟨hchannel', hcurrent'⟩ := of_decide_eq_true hk'
    exact eq_of_isCurrent (hchannel.trans hchannel'.symm) hcurrent hcurrent'
  · calc (initial.run actions).current c
        = initial.current c + actions.countP (·.counts c) := current_run initial actions c
      _ = actions.countP (·.counts c) := by cases c <;> exact Nat.zero_add _
      _ ≤ actions.length := List.countP_le_length

end Tickets

end Composer
