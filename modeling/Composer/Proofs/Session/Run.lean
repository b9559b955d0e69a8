import Composer.Session.World
import Composer.Proofs.Session.Performing
import Mathlib.Data.List.Nodup
/-!
# Composer.Proofs.Session.Run

**Moves and runs.** Every move of a world is the effect of its session on what runs beside it
(`World.effect`). A run adds to the log what its moves emit (`World.emitted`), and a condition on
moves is asked of every move in the world where it happens (`World.Along`).
-/

namespace Composer

/-- If only one element of a list passes a test, at most one entry is left of the list. -/
theorem length_filter_le_one {α : Type} {l : List α} {p : α → Bool} (hl : l.Nodup)
    (h : ∀ a ∈ l, ∀ b ∈ l, p a = true → p b = true → a = b) : (l.filter p).length ≤ 1 := by
  have hnodup : (l.filter p).Nodup := hl.filter p
  have heq : ∀ a ∈ l.filter p, ∀ b ∈ l.filter p, a = b := by
    intro a ha b hb
    rw [List.mem_filter] at ha hb
    exact h a ha.1 b hb.1 ha.2 hb.2
  rcases hlist : l.filter p with _ | ⟨a, _ | ⟨b, rest⟩⟩
  · exact Nat.zero_le _
  · exact Nat.le_refl _
  · rw [hlist] at hnodup heq
    have hab : a = b := heq a (by simp) b (by simp)
    simp [hab] at hnodup

namespace World

/-! ### One move -/

/-- What a move leads to. -/
def effect (w : World) : Move → Effect
  | .perform e op => w.session.perform e op
  | .tick n => if n ∈ w.intervals then w.session.tick n else w.session.unchanged
  | .settle k services =>
    match w.lookups.find? (·.ticket = k) with
    | none => w.session.unchanged
    | some l => w.session.settle k (l.answer.resolve services)

@[simp] theorem absorb_unchanged (w : World) : w.absorb w.session.unchanged = w := by
  simp [absorb, Session.unchanged]

theorem effect_tick_cases (w : World) (n : Nat) :
    w.effect (.tick n) = w.session.unchanged ∨ w.effect (.tick n) = w.session.tick n := by
  simp only [effect]
  split
  · exact Or.inr rfl
  · exact Or.inl rfl

theorem effect_settle_cases (w : World) (k : Ticket) (services : Services) :
    w.effect (.settle k services) = w.session.unchanged ∨
      ∃ a : Answer, w.effect (.settle k services) = w.session.settle k a := by
  simp only [effect]
  split
  · exact Or.inl rfl
  · exact Or.inr ⟨_, rfl⟩

/-- The lookup that settles is on its way no more; every other one stays. -/
theorem step_settle (w : World) (k : Ticket) (services : Services) :
    w.step (.settle k services) =
      { w with lookups := w.lookups.filter (·.ticket ≠ k) }.absorb
        (w.effect (.settle k services)) := by
  cases hl : w.lookups.find? (·.ticket = k) with
  | none =>
      have hall : w.lookups.filter (·.ticket ≠ k) = w.lookups := by
        rw [List.filter_eq_self]
        intro l hmem
        have := List.find?_eq_none.mp hl l hmem
        simpa using this
      simp only [step, effect, hl, hall]
      exact (absorb_unchanged w).symm
  | some l => simp only [step, effect, hl]

theorem step_tick (w : World) (n : Nat) : w.step (.tick n) = w.absorb (w.effect (.tick n)) := by
  simp only [step, effect]
  split
  · rfl
  · rw [absorb_unchanged]

theorem session_step (w : World) (m : Move) : (w.step m).session = (w.effect m).session := by
  cases m with
  | perform e op => rfl
  | tick n => rw [step_tick]; rfl
  | settle k services => rw [step_settle]; rfl

theorem log_step (w : World) (m : Move) : (w.step m).log = w.log ++ (w.effect m).events := by
  cases m with
  | perform e op => rfl
  | tick n => rw [step_tick]; rfl
  | settle k services => rw [step_settle]; rfl

/-- A new interval joins those that were ever started. -/
theorem intervals_step (w : World) (m : Move) :
    (w.step m).intervals =
      if (w.effect m).session.interval = w.session.interval then w.intervals
      else w.intervals ++ (w.effect m).session.interval.toList := by
  cases m with
  | perform e op => rfl
  | tick n => rw [step_tick]; rfl
  | settle k services => rw [step_settle]; rfl

/-- Only operations start lookups, and only settlements end them. -/
theorem lookups_perform (w : World) (e : Surroundings) (op : Operation) :
    (w.step (.perform e op)).lookups = w.lookups ++ (w.session.perform e op).lookup.toList := rfl

theorem lookups_tick (w : World) (n : Nat) : (w.step (.tick n)).lookups = w.lookups := by
  have hnone : (w.effect (.tick n)).lookup = none := by
    rcases w.effect_tick_cases n with h | h
    · rw [h]; rfl
    · rw [h]; exact (w.session.tickets_tick n).2
  rw [step_tick, absorb, hnone]
  exact List.append_nil _

theorem lookups_settle (w : World) (k : Ticket) (services : Services) :
    (w.step (.settle k services)).lookups = w.lookups.filter (·.ticket ≠ k) := by
  have hnone : (w.effect (.settle k services)).lookup = none := by
    rcases w.effect_settle_cases k services with h | ⟨a, h⟩
    · rw [h]; rfl
    · rw [h]; exact (w.session.tickets_settle k a).2
  rw [step_settle, absorb, hnone]
  exact List.append_nil _

theorem tickets_step_tick (w : World) (n : Nat) :
    (w.step (.tick n)).session.tickets = w.session.tickets := by
  rw [session_step]
  rcases w.effect_tick_cases n with h | h
  · rw [h]; rfl
  · rw [h]; exact (w.session.tickets_tick n).1

theorem tickets_step_settle (w : World) (k : Ticket) (services : Services) :
    (w.step (.settle k services)).session.tickets = w.session.tickets := by
  rw [session_step]
  rcases w.effect_settle_cases k services with h | ⟨a, h⟩
  · rw [h]; rfl
  · rw [h]; exact (w.session.tickets_settle k a).1

/-! ### Runs -/

/-- The worlds that a session can come to, one move after the other. -/
theorem Reachable.induction {P : World → Prop} (start : P initial)
    (kept : ∀ w m, Reachable w → P w → P (w.step m)) {w : World} (h : Reachable w) : P w := by
  have hboth : Reachable w ∧ P w :=
    h.invariant (P := fun w => Reachable w ∧ P w) ⟨reachable_initial, start⟩
      (fun w m hw => ⟨hw.1.step m, kept w m hw.1 hw.2⟩)
  exact hboth.2

theorem reachable_run (moves : List Move) : Reachable (initial.run moves) :=
  ⟨moves, rfl⟩

theorem Reachable.run {w : World} (h : Reachable w) (moves : List Move) :
    Reachable (w.run moves) := by
  induction moves generalizing w with
  | nil => exact h
  | cons m moves ih => exact ih (h.step m)

/-- A condition on every move of a run, in the world where the move happens. -/
def Along (P : World → Move → Prop) : World → List Move → Prop
  | _, [] => True
  | w, m :: moves => P w m ∧ Along P (w.step m) moves

theorem along_append {P : World → Move → Prop} {w : World} {before after : List Move} :
    Along P w (before ++ after) ↔ Along P w before ∧ Along P (w.run before) after := by
  induction before generalizing w with
  | nil => simp [Along]
  | cons m before ih => simp [Along, ih, and_assoc]

theorem along_singleton {P : World → Move → Prop} {w : World} {m : Move} :
    Along P w [m] ↔ P w m := by
  simp [Along]

/-! ### What a run emits -/

/-- The events that a run adds to the log. -/
def emitted (w : World) (moves : List Move) : List Event :=
  (w.run moves).log.drop w.log.length

theorem log_run (w : World) (moves : List Move) :
    (w.run moves).log = w.log ++ w.emitted moves := by
  -- Every move only appends to the log, so the log of before stays its beginning.
  have hprefix : ∀ (moves : List Move) (w : World), w.log <+: (w.run moves).log := by
    intro moves
    induction moves with
    | nil => exact fun w => List.prefix_rfl
    | cons m moves ih =>
        intro w
        refine List.IsPrefix.trans ?_ (ih (w.step m))
        rw [log_step]
        exact List.prefix_append _ _
  obtain ⟨events, hevents⟩ := hprefix moves w
  rw [emitted, ← hevents, List.drop_left]

@[simp] theorem emitted_nil (w : World) : w.emitted [] = [] := by
  simp [emitted]

@[simp] theorem emitted_singleton (w : World) (m : Move) :
    w.emitted [m] = (w.effect m).events := by
  simp [emitted, log_step]

theorem emitted_append (w : World) (before after : List Move) :
    w.emitted (before ++ after) = w.emitted before ++ (w.run before).emitted after := by
  have h : w.log ++ w.emitted (before ++ after) =
      w.log ++ (w.emitted before ++ (w.run before).emitted after) := by
    rw [← log_run, run_append, log_run, log_run, List.append_assoc]
  exact List.append_cancel_left h

end World

end Composer
