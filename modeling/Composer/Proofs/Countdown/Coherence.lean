import Composer.Countdown.State
/-!
# Composer.Proofs.Countdown.Coherence

**The flags and the seconds of a countdown agree.** A countdown is stored with more data than it
needs: two counts, three flags and a text. `Coherent` says how they determine each other. A new
countdown is coherent, and every operation and every second keep it so.
-/

namespace Composer.Countdown

/-! ### Phases by flags -/

theorem phase_eq_idle_iff {c : Countdown} :
    c.phase = .idle ↔ c.isComplete = false ∧ c.isRunning = false ∧ c.isPaused = false := by
  unfold phase
  cases c.isComplete <;> cases c.isRunning <;> cases c.isPaused <;> simp

theorem phase_eq_running_iff {c : Countdown} :
    c.phase = .running ↔ c.isComplete = false ∧ c.isRunning = true := by
  unfold phase
  cases c.isComplete <;> cases c.isRunning <;> cases c.isPaused <;> simp

theorem phase_eq_paused_iff {c : Countdown} :
    c.phase = .paused ↔ c.isComplete = false ∧ c.isRunning = false ∧ c.isPaused = true := by
  unfold phase
  cases c.isComplete <;> cases c.isRunning <;> cases c.isPaused <;> simp

/-! ### Coherence -/

/-- What the counts, the flags and the text of a countdown tell about each other. -/
structure Coherent (c : Countdown) : Prop where
  /-- No more seconds are left than there were. -/
  remaining_le : c.remaining ≤ c.total
  /-- A countdown is complete when no second is left, and only then. -/
  complete_iff : c.isComplete = true ↔ c.remaining = 0
  /-- While seconds count, the countdown is neither paused nor complete. -/
  running : c.isRunning = true → c.isPaused = false ∧ c.isComplete = false
  /-- A paused countdown is not complete. -/
  paused : c.isPaused = true → c.isComplete = false
  /-- An idle countdown has all its seconds left. -/
  idle : c.phase = .idle → c.remaining = c.total
  /-- The text shows the seconds that are left. -/
  display_eq : c.display = durationText c.remaining

theorem coherent_ofSeconds (total : Nat) (label : Option String) :
    (ofSeconds total label).Coherent where
  remaining_le := Nat.le_refl _
  complete_iff := by simp [ofSeconds, refresh]
  running := by simp [ofSeconds, refresh]
  paused := by simp [ofSeconds, refresh]
  idle := fun _ => rfl
  display_eq := rfl

theorem Coherent.start {c : Countdown} (h : c.Coherent) (hidle : c.phase = .idle) :
    Coherent { c with isRunning := true } := by
  obtain ⟨hcomplete, -, hpaused⟩ := phase_eq_idle_iff.mp hidle
  exact {
    remaining_le := h.remaining_le
    complete_iff := h.complete_iff
    running := fun _ => ⟨hpaused, hcomplete⟩
    paused := h.paused
    idle := fun hp => by simp [phase_eq_idle_iff] at hp
    display_eq := h.display_eq }

theorem Coherent.pause {c : Countdown} (h : c.Coherent) (hcomplete : c.isComplete = false) :
    Coherent { c with isRunning := false, isPaused := true } where
  remaining_le := h.remaining_le
  complete_iff := h.complete_iff
  running := fun hr => by simp at hr
  paused := fun _ => hcomplete
  idle := fun hp => by simp [phase_eq_idle_iff] at hp
  display_eq := h.display_eq

theorem Coherent.resume {c : Countdown} (h : c.Coherent) (hcomplete : c.isComplete = false) :
    Coherent { c with isRunning := true, isPaused := false } where
  remaining_le := h.remaining_le
  complete_iff := h.complete_iff
  running := fun _ => ⟨rfl, hcomplete⟩
  paused := fun hp => by simp at hp
  idle := fun hp => by simp [phase_eq_idle_iff] at hp
  display_eq := h.display_eq

theorem coherent_reset (c : Countdown) : c.reset.Coherent where
  remaining_le := Nat.le_refl _
  complete_iff := by simp [reset, refresh]
  running := by simp [reset, refresh]
  paused := by simp [reset, refresh]
  idle := fun _ => rfl
  display_eq := rfl

/-- Only an idle countdown takes another duration, and it stays idle. -/
theorem coherent_of_setDuration {c d : Countdown} {seconds : Nat}
    (hd : c.setDuration? seconds = some d) : d.Coherent ∧ c.phase = .idle ∧ d.phase = .idle := by
  unfold setDuration? at hd
  split at hd
  · simp at hd
  · rename_i hok
    simp only [not_or, Decidable.not_not] at hok
    obtain ⟨hpos, hidle⟩ := hok
    obtain ⟨hcomplete, hrunning, hpaused⟩ := phase_eq_idle_iff.mp hidle
    simp only [Option.some.injEq] at hd
    subst hd
    refine ⟨?_, hidle, hidle⟩
    exact {
      remaining_le := Nat.le_refl _
      complete_iff := by simp [refresh, hcomplete, hpos]
      running := by simp [refresh, hrunning]
      paused := by simp [refresh, hpaused]
      idle := fun _ => rfl
      display_eq := rfl }

/-! ### One second -/

/-- A coherent countdown counts a second exactly while it runs. -/
theorem Coherent.ticks_eq {c : Countdown} (h : c.Coherent) : c.ticks = c.isRunning := by
  unfold ticks
  cases hr : c.isRunning with
  | false => rfl
  | true => simp [(h.running hr).2]

/-- Seconds never change what a countdown is for. -/
@[simp] theorem label_tick (c : Countdown) : c.tick.label = c.label := by
  unfold tick
  split <;> rfl

/-- The last second, and no other one, ends the motion. -/
theorem isRunning_tick (c : Countdown) :
    c.tick.isRunning = (c.isRunning && !c.completes) := by
  unfold tick completes
  cases c.ticks with
  | false => simp
  | true => by_cases hleft : c.remaining - 1 = 0 <;> simp [refresh, hleft]

theorem Coherent.tick {c : Countdown} (h : c.Coherent) : c.tick.Coherent := by
  unfold Countdown.tick
  split
  · rename_i hticks
    rw [h.ticks_eq] at hticks
    obtain ⟨hpaused, hcomplete⟩ := h.running hticks
    have hle := h.remaining_le
    exact {
      remaining_le := by simp only [remaining_refresh, total_refresh]; omega
      complete_iff := by by_cases hleft : c.remaining - 1 = 0 <;> simp [refresh, hleft, hcomplete]
      running := by
        by_cases hleft : c.remaining - 1 = 0 <;> simp [refresh, hleft, hcomplete, hpaused]
      paused := by simp [refresh, hpaused]
      idle := by
        by_cases hleft : c.remaining - 1 = 0 <;> simp [phase, refresh, hleft, hcomplete, hticks]
      display_eq := rfl }
  · exact h

/-- A countdown in motion loses a second, and completes with the last one it had. -/
theorem Coherent.tick_running {c : Countdown} (h : c.Coherent) (hr : c.isRunning = true) :
    c.remaining = c.tick.remaining + 1 ∧ (c.completes = true ↔ c.tick.remaining = 0) := by
  have hticks : c.ticks = true := by rw [h.ticks_eq, hr]
  have hleft : c.remaining ≠ 0 := by
    intro h0
    have := h.complete_iff.mpr h0
    simp [(h.running hr).2] at this
  rw [remaining_tick, if_pos hticks]
  refine ⟨by omega, ?_⟩
  simp [completes, hticks]

/-- A second that is counted never leads back to the beginning. -/
theorem Coherent.phase_tick_ne_idle {c : Countdown} (h : c.Coherent) (hr : c.isRunning = true) :
    c.tick.phase ≠ .idle := by
  intro hidle
  obtain ⟨hcomplete, hrunning, -⟩ := phase_eq_idle_iff.mp hidle
  have hcompletes : c.completes = true := by simpa [isRunning_tick, hr] using hrunning
  have hleft : c.tick.remaining = 0 := (h.tick_running hr).2.mp hcompletes
  have hdone : c.tick.isComplete = true := h.tick.complete_iff.mpr hleft
  rw [hcomplete] at hdone
  cases hdone

/-! ### Under way -/

/-- A countdown is under way: it was started, and it has not come to its end. -/
def UnderWay (c : Countdown) : Prop :=
  c.phase = .running ∨ c.phase = .paused

theorem Coherent.underWay {c : Countdown} (h : c.Coherent) (hr : c.isRunning = true) :
    c.UnderWay :=
  Or.inl (phase_eq_running_iff.mpr ⟨(h.running hr).2, hr⟩)

theorem not_underWay {c : Countdown} (hrunning : c.isRunning = false)
    (hpaused : c.isPaused = false) : ¬ c.UnderWay := by
  rintro (hphase | hphase)
  · rw [(phase_eq_running_iff.mp hphase).2] at hrunning
    cases hrunning
  · rw [(phase_eq_paused_iff.mp hphase).2.2] at hpaused
    cases hpaused

end Composer.Countdown
