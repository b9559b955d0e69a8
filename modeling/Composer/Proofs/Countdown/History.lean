import Composer.Proofs.Countdown.Coherence
/-!
# Composer.Proofs.Countdown.History

**What becomes of a countdown, whatever happens to it.** An `Action` is one operation or one second,
a history is a list of actions. A countdown stays coherent and up to date along every history. Its
seconds only become more when it is reset or gets another duration, and as long as they do not, it
comes to its end once at most (`ends_once_until_refilled`).
-/

namespace Composer.Countdown

/-! ### Actions and histories -/

/-- One thing that happens to a countdown. -/
inductive Action where
  /-- Another duration is asked for. -/
  | setDuration (seconds : Nat)
  /-- It is started. -/
  | start
  /-- It is paused or resumed. -/
  | toggle
  /-- It goes back to its beginning. -/
  | reset
  /-- A second passes. -/
  | tick
deriving DecidableEq, Repr

/-- What an action makes of a countdown, unless it is refused. -/
def act? (c : Countdown) : Action → Option Countdown
  | .setDuration seconds => c.setDuration? seconds
  | .start => c.start?
  | .toggle => c.toggle?
  | .reset => some c.reset
  | .tick => some c.tick

/-- The countdown after an action. One that is refused changes nothing. -/
def act (c : Countdown) (a : Action) : Countdown :=
  (c.act? a).getD c

/-- The countdown after a history. -/
def run (c : Countdown) (history : List Action) : Countdown :=
  history.foldl act c

@[simp] theorem run_cons (c : Countdown) (a : Action) (history : List Action) :
    c.run (a :: history) = (c.act a).run history := rfl

@[simp] theorem run_append (c : Countdown) (before after : List Action) :
    c.run (before ++ after) = (c.run before).run after :=
  List.foldl_append

theorem act_setDuration {c d : Countdown} {seconds : Nat} (h : c.setDuration? seconds = some d) :
    c.act (.setDuration seconds) = d := by
  simp [act, act?, h]

theorem act_start {c : Countdown} (h : c.phase = .idle) :
    c.act .start = { c with isRunning := true } := by
  simp [act, act?, start?, h]

theorem act_toggle_running {c : Countdown} (h : c.phase = .running) :
    c.act .toggle = { c with isRunning := false, isPaused := true } := by
  simp [act, act?, toggle?, h]

theorem act_toggle_paused {c : Countdown} (h : c.phase = .paused) :
    c.act .toggle = { c with isRunning := true, isPaused := false } := by
  simp [act, act?, toggle?, h]

/-- What is true of a countdown stays true along every history if no action ends it. -/
theorem run_induction {P : Countdown → Prop} (kept : ∀ c a, P c → P (c.act a)) {c : Countdown}
    (h : P c) (history : List Action) : P (c.run history) := by
  induction history generalizing c with
  | nil => exact h
  | cons a _ ih => exact ih (kept c a h)

/-- Everything that an action can do: only one that the phase allows does anything. -/
inductive Acts (c : Countdown) : Action → Countdown → Prop
  /-- The action is refused. -/
  | refused {a : Action} : c.act? a = none → Acts c a c
  /-- An idle countdown takes another duration. -/
  | setDuration {seconds : Nat} : seconds ≠ 0 → c.phase = .idle →
      Acts c (.setDuration seconds) (refresh { c with total := seconds, remaining := seconds })
  /-- An idle countdown is put into motion. -/
  | start : c.phase = .idle → Acts c .start { c with isRunning := true }
  /-- A running countdown pauses. -/
  | pause : c.phase = .running → Acts c .toggle { c with isRunning := false, isPaused := true }
  /-- A paused countdown goes on. -/
  | resume : c.phase = .paused → Acts c .toggle { c with isRunning := true, isPaused := false }
  /-- A countdown goes back to its beginning. -/
  | reset : Acts c .reset c.reset
  /-- A second passes. -/
  | tick : Acts c .tick c.tick

theorem acts (c : Countdown) (a : Action) : c.Acts a (c.act a) := by
  cases a with
  | setDuration seconds =>
      by_cases h : seconds = 0 ∨ c.phase ≠ .idle
      · have hrefused : c.act? (.setDuration seconds) = none := by simp [act?, setDuration?, h]
        rw [act, hrefused]
        exact .refused hrefused
      · simp only [act, act?, setDuration?, if_neg h, Option.getD_some]
        simp only [not_or, Decidable.not_not] at h
        exact .setDuration h.1 h.2
  | start =>
      by_cases h : c.phase = .idle
      · rw [act_start h]
        exact .start h
      · have hrefused : c.act? .start = none := by simp [act?, start?, h]
        rw [act, hrefused]
        exact .refused hrefused
  | toggle =>
      cases h : c.phase with
      | running =>
          rw [act_toggle_running h]
          exact .pause h
      | paused =>
          rw [act_toggle_paused h]
          exact .resume h
      | idle | complete =>
          have hrefused : c.act? .toggle = none := by simp [act?, toggle?, h]
          rw [act, hrefused]
          exact .refused hrefused
  | reset => exact .reset
  | tick => exact .tick

/-! ### Coherence along a history -/

theorem Coherent.act {c : Countdown} (h : c.Coherent) (a : Action) : (c.act a).Coherent := by
  have hacts := c.acts a
  generalize c.act a = d at hacts ⊢
  cases hacts with
  | refused _ => exact h
  | setDuration hpos hidle =>
      exact (coherent_of_setDuration (if_neg (by simp [hpos, hidle]))).1
  | start hidle => exact h.start hidle
  | pause hphase => exact h.pause (phase_eq_running_iff.mp hphase).1
  | resume hphase => exact h.resume (phase_eq_paused_iff.mp hphase).1
  | reset => exact coherent_reset c
  | tick => exact h.tick

theorem Coherent.run {c : Countdown} (h : c.Coherent) (history : List Action) :
    (c.run history).Coherent :=
  run_induction (fun _ a h => h.act a) h history

/-- What is shown of a countdown stays up to date. -/
theorem refresh_act {c : Countdown} (h : c.refresh = c) (a : Action) :
    (c.act a).refresh = c.act a := by
  have hacts := c.acts a
  generalize c.act a = d at hacts ⊢
  -- The flags are not shown, so a countdown is as up to date with others.
  have hflags : ∀ running paused, refresh { c with isRunning := running, isPaused := paused } =
      { c.refresh with isRunning := running, isPaused := paused } := fun _ _ => rfl
  cases hacts with
  | refused _ => exact h
  | setDuration _ _ => rfl
  | start _ => exact (hflags true c.isPaused).trans (by rw [h])
  | pause _ => exact (hflags false true).trans (by rw [h])
  | resume _ => exact (hflags true false).trans (by rw [h])
  | reset => rfl
  | tick =>
      unfold Countdown.tick
      split
      · rfl
      · exact h

theorem refresh_run {c : Countdown} (h : c.refresh = c) (history : List Action) :
    (c.run history).refresh = c.run history :=
  run_induction (P := fun c => c.refresh = c) (fun _ a h => refresh_act h a) h history

/-! ### The seconds along a history -/

/-- The seconds that are left only become more by a reset or by another duration. -/
theorem refill_of_lt {c : Countdown} {a : Action} (h : c.remaining < (c.act a).remaining) :
    a = .reset ∨ ∃ seconds d, a = .setDuration seconds ∧ c.setDuration? seconds = some d := by
  have hacts := c.acts a
  generalize c.act a = d at h hacts
  cases hacts with
  | setDuration hpos hidle => exact Or.inr ⟨_, _, rfl, if_neg (by simp [hpos, hidle])⟩
  | reset => exact Or.inl rfl
  | tick =>
      rw [remaining_tick] at h
      split at h <;> omega
  | refused _ | start _ | pause _ | resume _ => exact absurd h (Nat.lt_irrefl _)

/-- True when an action brings a countdown to its end: it is the last second. -/
def endsOn (c : Countdown) (a : Action) : Bool :=
  a = .tick && c.completes

/-- The end is where the last second goes, and nowhere else. -/
theorem Coherent.endsOn_iff {c : Countdown} (h : c.Coherent) (a : Action) :
    c.endsOn a = true ↔ c.remaining = 1 ∧ (c.act a).remaining = 0 := by
  have hacts := c.acts a
  simp only [endsOn, Bool.and_eq_true, decide_eq_true_eq]
  generalize c.act a = d at hacts ⊢
  cases hacts with
  | tick =>
      cases hr : c.isRunning with
      | true =>
          obtain ⟨hleft, hiff⟩ := h.tick_running hr
          rw [hiff]
          simp only [true_and]
          omega
      | false =>
          -- No second is counted, so none is the last.
          have hticks : c.ticks = false := h.ticks_eq.trans hr
          rw [remaining_tick, completes, hticks]
          simp only [Bool.false_and, Bool.false_eq_true, and_false, if_false, false_iff, not_and]
          omega
  | setDuration hpos _ =>
      simp only [reduceCtorEq, false_and, remaining_refresh, false_iff, not_and]
      exact fun _ => hpos
  | reset =>
      have hle := h.remaining_le
      simp only [reduceCtorEq, false_and, false_iff, not_and]
      intro hone hzero
      have htotal : c.total = 0 := hzero
      omega
  | refused hrefused =>
      have hne : a ≠ .tick := fun heq => by rw [heq] at hrefused; cases hrefused
      simp only [hne, false_and, false_iff, not_and]
      omega
  | start _ | pause _ | resume _ =>
      simp only [reduceCtorEq, false_and, false_iff, not_and]
      omega

/-- How often a countdown comes to its end in a history. -/
def ends : Countdown → List Action → Nat
  | _, [] => 0
  | c, a :: history => (if c.endsOn a then 1 else 0) + (c.act a).ends history

/-- No action of a history makes the seconds that are left more. -/
def NeverRefilled : Countdown → List Action → Prop
  | _, [] => True
  | c, a :: history => (c.act a).remaining ≤ c.remaining ∧ (c.act a).NeverRefilled history

/-- The end needs a last second, and afterwards there is none. -/
theorem Coherent.ends_le {c : Countdown} (h : c.Coherent) {history : List Action}
    (hsinks : c.NeverRefilled history) : c.ends history ≤ if c.remaining = 0 then 0 else 1 := by
  induction history generalizing c with
  | nil => exact Nat.zero_le _
  | cons a history ih =>
      obtain ⟨hle, hrest⟩ := hsinks
      have hlater := ih (h.act a) hrest
      rw [ends]
      cases hend : c.endsOn a with
      | true =>
          obtain ⟨hone, hzero⟩ := (h.endsOn_iff a).mp hend
          rw [if_pos hzero] at hlater
          rw [if_pos rfl, if_neg (by omega)]
          omega
      | false =>
          simp only [Bool.false_eq_true, if_false, Nat.zero_add]
          refine Nat.le_trans hlater ?_
          split <;> split <;> omega

/-- **A countdown comes to its end once, until it is refilled.** After every history of a new
countdown the seconds and the flags agree and what is shown is right; the seconds that are left
become more only by a reset or a duration that is accepted; the end comes exactly when the last
second goes; and it comes once at most as long as the seconds do not become more. -/
theorem ends_once_until_refilled (total : Nat) (label : Option String) (history : List Action) :
    let c := (ofSeconds total label).run history
    c.remaining ≤ c.total ∧
      [c.isRunning, c.isPaused, c.isComplete].count true ≤ 1 ∧
      (c.isComplete = true ↔ c.remaining = 0) ∧
      (c.phase = .idle → c.remaining = c.total) ∧
      c.display = durationText c.remaining ∧
      (∀ a, c.remaining < (c.act a).remaining →
        a = .reset ∨ ∃ seconds d, a = .setDuration seconds ∧ c.setDuration? seconds = some d) ∧
      (∀ a, c.endsOn a = true ↔ c.remaining = 1 ∧ (c.act a).remaining = 0) ∧
      ∀ later, c.NeverRefilled later → c.ends later ≤ 1 := by
  intro c
  have h : c.Coherent := (coherent_ofSeconds total label).run history
  refine ⟨h.remaining_le, ?_, h.complete_iff, h.idle, h.display_eq, fun _ => refill_of_lt,
    h.endsOn_iff, ?_⟩
  · have hrunning := h.running
    have hpaused := h.paused
    revert hrunning hpaused
    cases c.isRunning <;> cases c.isPaused <;> cases c.isComplete <;> simp
  · intro later hsinks
    refine Nat.le_trans (h.ends_le hsinks) ?_
    split <;> omega

end Composer.Countdown
