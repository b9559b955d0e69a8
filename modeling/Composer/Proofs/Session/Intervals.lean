import Composer.Proofs.Session.Shape
/-!
# Composer.Proofs.Session.Intervals

**One interval drives the countdown, and every other tick is lost.** An interval that was stopped,
or that ended with its countdown, may still have ticks on their way, and they are delivered in any
order and at any time. `Timed` says what the epoch, the interval that the session owns and the
intervals of before have to do with each other; every move keeps it, because every move treats the
interval in one of the three ways that `Session.Handled` lists. The main statement is
`isRunning_iff_driven`.
-/

namespace Composer

namespace Session

/-! ### The three ways to treat the interval -/

/-- How the interval of one session becomes the interval of the next. -/
inductive Handled (s s' : Session) : Prop
  /-- The epoch lasts, and the countdown goes on running or standing still. -/
  | keeps : s'.epoch = s.epoch → s'.interval = s.interval → s'.view.isRunning = s.view.isRunning →
      Handled s s'
  /-- A new epoch begins, with an interval if a countdown runs in it. -/
  | renews : s'.epoch = s.epoch + 1 →
      s'.interval = (if s'.view.isRunning then some (s.epoch + 1) else none) → Handled s s'
  /-- The epoch lasts, and its interval is given up because nothing runs any more. -/
  | ends : s'.epoch = s.epoch → s'.interval = none → s'.view.isRunning = false → Handled s s'

theorem Handled.refl (s : Session) : s.Handled s :=
  .keeps rfl rfl rfl

/-- Where nothing runs any more, stopping the interval is all there is to do. -/
theorem Handled.of_stopped {s s' : Session} (hepoch : s'.epoch = s.epoch + 1)
    (hinterval : s'.interval = none) (hr : s'.view.isRunning = false) : s.Handled s' :=
  .renews hepoch (by rw [hinterval, hr]; rfl)

theorem handled_perform {s : Session} {e : Surroundings} {op : Operation} {f : Effect}
    (h : s.Performs e op f) : s.Handled f.session := by
  cases h with
  | stays _ _ _ => exact .refl s
  | selects _ _ _ _ => exact .keeps rfl rfl rfl
  | replaces _ hv _ =>
      refine .of_stopped rfl rfl ?_
      rcases hv with rfl | ⟨t, rfl⟩ <;> rfl
  | ignores _ => exact .refl s
  | reads _ _ => exact .of_stopped rfl rfl (View.isRunning_ofText _ _ _ _)
  | asks _ _ hm _ htool _ =>
      exact .of_stopped rfl rfl (View.isRunning_of_countdown?_eq_none
        (View.countdown?_withAnswer_markLoading hm htool))
  | fails _ _ hm _ htool _ =>
      exact .of_stopped rfl rfl (View.isRunning_of_countdown?_eq_none
        (View.countdown?_withAnswer_withError hm htool _))
  | @turns _ c d hc _ =>
      -- The interval of the new epoch follows the countdown that is shown in it.
      have hr : (s.turnTo d).changed.session.view.isRunning = d.isRunning :=
        View.isRunning_withCountdown hc d
      refine .renews rfl ?_
      rw [hr]
      rfl
  | stops hc => exact .of_stopped rfl rfl (View.isRunning_of_countdown?_eq_none hc)
  | sets hm _ hc _ =>
      have hbefore : s.view.isRunning = false := View.isRunning_of_countdown?_eq_none hc
      exact .keeps rfl rfl ((View.isRunning_withAnswer hm _).trans hbefore.symm)
  | @resets c d _ hc hd =>
      -- Only an idle countdown takes another duration, and it stays idle.
      obtain ⟨-, hidle, hidle'⟩ := Countdown.coherent_of_setDuration hd
      have hbefore : s.view.isRunning = false := by
        rw [View.isRunning_of_countdown? hc, (Countdown.phase_eq_idle_iff.mp hidle).2.1]
      refine .keeps rfl rfl ((View.isRunning_withCountdown hc d).trans ?_)
      rw [hbefore, (Countdown.phase_eq_idle_iff.mp hidle').2.1]

theorem handled_tick (s : Session) (n : Nat) : s.Handled (s.tick n).session := by
  by_cases hn : s.epoch = n
  · subst hn
    cases hr : s.view.isRunning with
    | false =>
        rw [tick_of_not_isRunning hr]
        exact .ends rfl rfl hr
    | true =>
        obtain ⟨c, hc, hrunning⟩ := View.isRunning_eq_true_iff.mp hr
        have hafter : (s.view.withCountdown c.tick).isRunning = c.tick.isRunning :=
          View.isRunning_withCountdown hc _
        rw [Countdown.isRunning_tick, hrunning, Bool.true_and] at hafter
        rw [tick_of_isRunning hc hrunning]
        cases hcompletes : c.completes with
        | false =>
            refine .keeps rfl rfl ?_
            rw [hcompletes] at hafter
            exact hafter.trans hr.symm
        | true =>
            rw [hcompletes] at hafter
            exact .ends rfl rfl hafter
  · rw [tick_of_ne hn]
    exact .refl s

theorem handled_settle {s : Session} (hfits : s.view.Fits) (k : Ticket) (a : Answer) :
    s.Handled (s.settle k a).session := by
  have hr : (s.settle k a).session.view.isRunning = s.view.isRunning := by
    rw [View.isRunning, countdown?_settle hfits, View.isRunning]
  rcases s.settle_cases k a with h | ⟨-, -, -, h⟩
  · rw [h]
    exact .refl s
  · rw [h] at hr ⊢
    exact .keeps rfl rfl hr

end Session

namespace World

theorem handled_step {w : World} (hw : Reachable w) (m : Move) :
    w.session.Handled (w.step m).session := by
  rw [session_step]
  cases m with
  | perform e op => exact Session.handled_perform (w.session.performs e op)
  | tick n =>
      rcases w.effect_tick_cases n with h | h
      · rw [h]; exact .refl w.session
      · rw [h]; exact w.session.handled_tick n
  | settle k services =>
      rcases w.effect_settle_cases k services with h | ⟨a, h⟩
      · rw [h]; exact .refl w.session
      · rw [h]; exact Session.handled_settle hw.fits k a

/-! ### The intervals of before and the present one -/

/-- Whether an interval drives the countdown: the session owns it, and it was started in the
present epoch. -/
def drives (w : World) (n : Nat) : Bool :=
  w.session.interval = some n && w.session.epoch = n

/-- What the epoch and the intervals have to do with each other and with the countdown. -/
structure Timed (w : World) : Prop where
  /-- The session owns an interval while a countdown runs, the one of the present epoch. -/
  owned : w.session.interval = if w.session.view.isRunning then some w.session.epoch else none
  /-- This interval was started. -/
  started : w.session.view.isRunning = true → w.session.epoch ∈ w.intervals
  /-- No interval was started after the present epoch. -/
  le_epoch : ∀ n ∈ w.intervals, n ≤ w.session.epoch
  /-- In every epoch one interval is started at most. -/
  nodup : w.intervals.Nodup

theorem Timed.drives_iff {w : World} (h : w.Timed) {n : Nat} :
    w.drives n = true ↔ w.session.view.isRunning = true ∧ w.session.epoch = n := by
  cases hr : w.session.view.isRunning <;> simp [drives, h.owned, hr]

/-- No interval is started, and the one of the present epoch was there before. -/
theorem Timed.of_intervals_eq {w w' : World} (h : w.Timed) (hsame : w'.intervals = w.intervals)
    (hepoch : w.session.epoch ≤ w'.session.epoch)
    (howned : w'.session.interval =
      if w'.session.view.isRunning then some w'.session.epoch else none)
    (hstarted : w'.session.view.isRunning = true → w'.session.epoch ∈ w.intervals) :
    w'.Timed where
  owned := howned
  started := by rw [hsame]; exact hstarted
  le_epoch := by
    intro n hn
    rw [hsame] at hn
    exact Nat.le_trans (h.le_epoch n hn) hepoch
  nodup := by rw [hsame]; exact h.nodup

/-- An interval is started in a new epoch, so it is not among the intervals of before. -/
theorem Timed.of_new_interval {w w' : World} (h : w.Timed)
    (hlist : w'.intervals = w.intervals ++ [w.session.epoch + 1])
    (hepoch : w'.session.epoch = w.session.epoch + 1) (hr : w'.session.view.isRunning = true)
    (hinterval : w'.session.interval = some (w.session.epoch + 1)) : w'.Timed where
  owned := by rw [hinterval, hr, hepoch]; rfl
  started := by rw [hlist, hepoch]; simp
  le_epoch := by
    intro n hn
    rw [hlist, List.mem_append, List.mem_singleton] at hn
    rcases hn with hn | rfl
    · have := h.le_epoch n hn
      omega
    · exact Nat.le_of_eq hepoch.symm
  nodup := by
    rw [hlist, List.nodup_append]
    refine ⟨h.nodup, by simp, ?_⟩
    intro n hn n' hn' heq
    rw [List.mem_singleton] at hn'
    have := h.le_epoch n hn
    omega

/-- No interval is started where the session owns none afterwards. -/
theorem intervals_of_interval_eq_none {w : World} {m : Move}
    (h : (w.step m).session.interval = none) : (w.step m).intervals = w.intervals := by
  rw [session_step] at h
  rw [intervals_step, h]
  simp

theorem Timed.step {w : World} (hw : Reachable w) (h : w.Timed) (m : Move) : (w.step m).Timed := by
  cases handled_step hw m with
  | keeps hepoch hinterval hr =>
      have hsame : (w.step m).intervals = w.intervals := by
        rw [session_step] at hinterval
        rw [intervals_step, if_pos hinterval]
      refine h.of_intervals_eq hsame (Nat.le_of_eq hepoch.symm) ?_ ?_
      · rw [hinterval, hepoch, hr, h.owned]
      · rw [hr, hepoch]
        exact h.started
  | renews hepoch hinterval =>
      cases hr : (w.step m).session.view.isRunning with
      | false =>
          have hnone : (w.step m).session.interval = none := by rw [hinterval, hr]; rfl
          refine h.of_intervals_eq (intervals_of_interval_eq_none hnone) (by omega) ?_ ?_
          · rw [hnone, hr]
            rfl
          · rw [hr]
            exact fun hfalse => by cases hfalse
      | true =>
          have hsome : (w.step m).session.interval = some (w.session.epoch + 1) := by
            rw [hinterval, hr]; rfl
          -- The interval that is owned is of the present epoch, not of the one that begins.
          have hne : some (w.session.epoch + 1) ≠ w.session.interval := by
            rw [h.owned]
            split <;> simp
          refine h.of_new_interval ?_ hepoch hr hsome
          rw [session_step] at hsome
          rw [intervals_step, hsome, if_neg hne]
          rfl
  | ends hepoch hinterval hr =>
      have hsame := intervals_of_interval_eq_none hinterval
      refine h.of_intervals_eq hsame (Nat.le_of_eq hepoch.symm) ?_ ?_
      · rw [hinterval, hr]
        rfl
      · rw [hr]
        exact fun hfalse => by cases hfalse

theorem Reachable.timed {w : World} (h : Reachable w) : w.Timed := by
  refine h.induction (P := Timed) ?_ (fun w m hw ht => ht.step hw m)
  exact {
    owned := rfl
    started := fun hr => by cases hr
    le_epoch := fun n hn => by cases hn
    nodup := List.nodup_nil }

/-! ### Ticks that come too late -/

/-- Nothing runs in the epoch of an interval any more. -/
def Spent (w : World) (n : Nat) : Prop :=
  n ≤ w.session.epoch ∧ (w.session.epoch = n → w.session.view.isRunning = false)

theorem Timed.spent_of_not_drives {w : World} (h : w.Timed) {n : Nat} (hn : n ∈ w.intervals)
    (hdrives : w.drives n = false) : w.Spent n := by
  refine ⟨h.le_epoch n hn, fun hepoch => ?_⟩
  rw [← Bool.not_eq_true] at hdrives ⊢
  exact fun hr => hdrives (h.drives_iff.mpr ⟨hr, hepoch⟩)

/-- An epoch in which nothing runs any more is never run in again: a countdown that is started or
resumed gets an epoch of its own. -/
theorem Spent.step {w : World} (hw : Reachable w) {n : Nat} (h : w.Spent n) (m : Move) :
    (w.step m).Spent n := by
  obtain ⟨hle, hquiet⟩ := h
  cases handled_step hw m with
  | keeps hepoch _ hr => exact ⟨by omega, fun heq => by rw [hr, hquiet (by omega)]⟩
  | renews hepoch _ => exact ⟨by omega, fun heq => absurd heq (by omega)⟩
  | ends hepoch _ hr => exact ⟨by omega, fun _ => hr⟩

theorem Spent.run {w : World} (hw : Reachable w) {n : Nat} (h : w.Spent n) (moves : List Move) :
    (w.run moves).Spent n := by
  induction moves generalizing w with
  | nil => exact h
  | cons m moves ih => exact ih (hw.step m) (h.step hw m)

/-- A session takes no notice of a tick of an epoch in which nothing runs any more. -/
theorem Spent.tick_eq {w : World} (hw : w.Timed) {n : Nat} (h : w.Spent n) :
    w.session.tick n = w.session.unchanged := by
  by_cases hn : w.session.epoch = n
  · have hr : w.session.view.isRunning = false := h.2 hn
    have hinterval : w.session.interval = none := by rw [hw.owned, hr]; rfl
    subst hn
    rw [Session.tick_of_not_isRunning hr, ← hinterval]
  · exact Session.tick_of_ne hn

/-- Such a tick is lost: nothing is different afterwards. -/
theorem Spent.step_tick {w : World} (hw : w.Timed) {n : Nat} (h : w.Spent n) :
    w.step (.tick n) = w := by
  simp only [World.step, h.tick_eq hw, absorb_unchanged, ite_self]

/-- **A countdown runs exactly while one interval drives it, and all other intervals are mute.** In
any run there is an interval that the session owns and that was started in the present epoch if and
only if a countdown runs, and there is never a second one. Whatever happens later on, a tick of any
other interval that was ever started changes nothing and emits nothing. -/
theorem isRunning_iff_driven (moves : List Move) :
    let w := initial.run moves
    (w.session.view.isRunning = true ↔ ∃ n ∈ w.intervals, w.drives n = true) ∧
      (w.intervals.filter w.drives).length ≤ 1 ∧
      ∀ n ∈ w.intervals, w.drives n = false →
        ∀ later, (w.run later).step (.tick n) = w.run later := by
  intro w
  have hreach : Reachable w := reachable_run moves
  have h : w.Timed := hreach.timed
  refine ⟨⟨fun hr => ?_, ?_⟩, ?_, ?_⟩
  · exact ⟨w.session.epoch, h.started hr, h.drives_iff.mpr ⟨hr, rfl⟩⟩
  · rintro ⟨n, -, hn⟩
    exact (h.drives_iff.mp hn).1
  · refine length_filter_le_one h.nodup ?_
    intro n _ n' _ hn hn'
    exact (h.drives_iff.mp hn).2.symm.trans (h.drives_iff.mp hn').2
  · intro n hn hdrives later
    have hspent : w.Spent n := h.spent_of_not_drives hn hdrives
    exact (hspent.run hreach later).step_tick (hreach.run later).timed

end World

end Composer
