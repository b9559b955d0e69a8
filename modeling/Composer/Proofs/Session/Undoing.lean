import Composer.Proofs.Session.Countdowns
import Composer.Proofs.Session.Intervals
/-!
# Composer.Proofs.Session.Undoing

**A countdown that cannot be put into motion is as it was.** Where no interval can be started, an
operation that would start or resume the countdown puts it back by a reset or by toggling it again.
This is the countdown of before because it was coherent and up to date. All that is left of the
operation is an epoch in which nothing runs. A session does not depend on the numbers of its epochs
(`Session.perform_aged`), so whatever happens afterwards happens as if the operation had not been
tried (`undone_without_interval`).
-/

namespace Composer

/-! ### Putting a countdown back -/

namespace Countdown

/-- A reset takes back the start of an idle countdown. -/
theorem Coherent.reset_start {c : Countdown} (h : c.Coherent) (hrefresh : c.refresh = c)
    (hidle : c.phase = .idle) : reset { c with isRunning := true } = c := by
  obtain ⟨hcomplete, hrunning, hpaused⟩ := phase_eq_idle_iff.mp hidle
  have hleft : c.remaining = c.total := h.idle hidle
  have htotal : decide (c.total = 0) = c.isComplete := by
    rw [← hleft, hcomplete, decide_eq_false_iff_not, ← h.complete_iff, hcomplete]
    exact Bool.false_ne_true
  have hback : { c with
      remaining := c.total
      isRunning := false
      isPaused := false
      isComplete := c.total = 0 } = c := by
    cases c
    simp_all
  calc reset { c with isRunning := true }
    _ = refresh { c with
          remaining := c.total
          isRunning := false
          isPaused := false
          isComplete := c.total = 0 } := rfl
    _ = c := by rw [hback, hrefresh]

/-- A pause takes back that a paused countdown goes on. -/
theorem pause_resume {c : Countdown} (hphase : c.phase = .paused) :
    { c with isRunning := false, isPaused := true } = c := by
  obtain ⟨-, hrunning, hpaused⟩ := phase_eq_paused_iff.mp hphase
  cases c
  simp_all

end Countdown

/-- A view does not change when it gets the countdown that it shows. -/
theorem View.withCountdown_self {v : View} {c : Countdown} (h : v.countdown? = some c) :
    v.withCountdown c = v := by
  obtain ⟨⟨tool, focused, answer⟩, hm, ha⟩ := View.exists_active_of_countdown? h
  rw [View.withCountdown_eq h, View.withAnswer, hm]
  obtain ⟨mode, active, commands, query, selected⟩ := v
  cases hm
  cases ha
  rfl

namespace Session

/-- Whether an operation puts the countdown that is shown into motion. -/
def setsInMotion (s : Session) : Operation → Bool
  | .startTimer => s.view.countdown?.any (·.phase = .idle)
  | .toggleTimer => s.view.countdown?.any (·.phase = .paused)
  | _ => false

/-! ### The numbers of epochs -/

/-- The session with one epoch more behind it. -/
def aged (s : Session) : Session :=
  { s with epoch := s.epoch + 1, interval := s.interval.map (· + 1) }

end Session

/-- The effect on a session with one epoch more behind it. -/
def Effect.aged (f : Effect) : Effect :=
  { f with session := f.session.aged }

namespace Session

@[simp] theorem view_aged (s : Session) : s.aged.view = s.view := rfl

@[simp] theorem tickets_aged (s : Session) : s.aged.tickets = s.tickets := rfl

theorem setsInMotion_aged (s : Session) (op : Operation) :
    s.aged.setsInMotion op = s.setsInMotion op := by
  cases op <;> rfl

theorem startInterval_aged (s : Session) (canWait : Bool) (undo : Countdown) :
    s.aged.startInterval canWait undo = (s.startInterval canWait undo).aged := by
  cases canWait <;> rfl

theorem beginLookup_aged (s : Session) :
    s.aged.beginLookup = (s.beginLookup.1.aged, s.beginLookup.2) := by
  unfold beginLookup
  simp only [view_aged]
  split
  · split <;> rfl
  · rfl

theorem settle_aged (s : Session) (k : Ticket) (a : Answer) :
    s.aged.settle k a = (s.settle k a).aged := by
  unfold settle
  simp only [view_aged, tickets_aged]
  split <;> rfl

theorem announceLookup_aged (s : Session) (e : Surroundings) :
    s.aged.announceLookup e = (s.announceLookup e).aged := by
  unfold announceLookup
  simp only [beginLookup_aged]
  split
  · rfl
  · split
    · rfl
    · simp only [settle_aged]
      rfl

theorem analyze_aged (s : Session) (e : Surroundings) (text : String) :
    s.aged.analyze e text = (s.analyze e text).aged := by
  unfold analyze
  rw [apply_ite Effect.aged]
  exact congrArg (ite _ _) (announceLookup_aged (s.reading e text) e)

theorem moveSelection_aged (s : Session) (distance : Int) :
    s.aged.moveSelection distance = (s.moveSelection distance).aged := by
  unfold moveSelection
  rw [apply_ite Effect.aged]
  rfl

theorem select_aged (s : Session) (position : Nat) :
    s.aged.select position = (s.select position).aged := by
  unfold select
  rw [apply_ite Effect.aged]
  rfl

theorem execute_aged (s : Session) : s.aged.execute = s.execute.aged := by
  unfold execute
  simp only [view_aged]
  split
  · rfl
  · split <;> rfl

theorem startTimer_aged (s : Session) (e : Surroundings) :
    s.aged.startTimer e = (s.startTimer e).aged := by
  unfold startTimer
  simp only [view_aged]
  cases s.view.countdown?.bind Countdown.start? with
  | none => rfl
  | some c =>
      exact congrArg changed
        (startInterval_aged { s with view := s.view.withCountdown c } e.canWait c.reset)

theorem toggleTimer_aged (s : Session) (e : Surroundings) :
    s.aged.toggleTimer e = (s.toggleTimer e).aged := by
  unfold toggleTimer
  simp only [view_aged]
  cases s.view.countdown? with
  | none => rfl
  | some c =>
      dsimp only
      cases c.toggle? with
      | none => rfl
      | some d =>
          dsimp only
          rw [apply_ite Effect.aged]
          exact congrArg (ite _ _) (congrArg changed
            (startInterval_aged { s with view := s.view.withCountdown d } e.canWait _))

theorem setDuration_aged (s : Session) (seconds : Nat) :
    s.aged.setDuration seconds = (s.setDuration seconds).aged := by
  unfold setDuration
  simp only [view_aged]
  cases s.view.active with
  | none => rfl
  | some m =>
      dsimp only
      rw [apply_ite Effect.aged]
      refine congrArg (ite _ _) ?_
      cases m.countdown? with
      | none => rfl
      | some c =>
          dsimp only
          cases c.setDuration? seconds <;> rfl

theorem copy_aged (s : Session) (e : Surroundings) (text : String) :
    s.aged.copy e text = (s.copy e text).aged := by
  unfold copy
  rw [apply_ite Effect.aged]
  rfl

/-- **What an operation does depends on no epoch.** -/
theorem perform_aged (s : Session) (e : Surroundings) (op : Operation) :
    s.aged.perform e op = (s.perform e op).aged := by
  cases op with
  | analyze text => exact s.analyze_aged e text
  | selectUp => exact s.moveSelection_aged (-1)
  | selectDown => exact s.moveSelection_aged 1
  | select position => exact s.select_aged position
  | execute => exact s.execute_aged
  | focus name =>
      simp only [perform, focus]
      cases Tool.typed? name <;> rfl
  | dismiss => rfl
  | startTimer => exact s.startTimer_aged e
  | toggleTimer => exact s.toggleTimer_aged e
  | resetTimer =>
      simp only [perform, resetTimer, view_aged]
      cases s.view.countdown? <;> rfl
  | setDuration seconds => exact s.setDuration_aged seconds
  | copy text => exact s.copy_aged e text
  | copyCurrent =>
      simp only [perform, copyText?, view_aged]
      cases s.view.answer?.bind Answer.copyText? with
      | none => rfl
      | some text => exact s.copy_aged e text

/-- What an operation answers depends on no epoch. -/
theorem reply_aged (s : Session) (e : Surroundings) (op : Operation) :
    s.aged.reply e op = s.reply e op := by
  cases op <;> simp [reply, analyzedView, analyze_aged, perform_aged, Effect.aged, copyText?]

/-- The same interval ticks under its new number. -/
theorem tick_aged (s : Session) (k : Nat) : s.aged.tick (k + 1) = (s.tick k).aged := by
  by_cases hk : s.epoch = k
  · subst hk
    have hepoch : s.aged.epoch = s.epoch + 1 := rfl
    cases hr : s.view.isRunning with
    | false =>
        rw [tick_of_not_isRunning hr, ← hepoch, tick_of_not_isRunning (s := s.aged) hr]
        rfl
    | true =>
        obtain ⟨c, hc, hrunning⟩ := View.isRunning_eq_true_iff.mp hr
        rw [tick_of_isRunning hc hrunning, ← hepoch, tick_of_isRunning (s := s.aged) hc hrunning]
        simp only [Effect.aged, aged, apply_ite (Option.map (· + 1)), Option.map_none]
  · rw [tick_of_ne hk, tick_of_ne (s := s.aged) (fun h => hk (Nat.succ_inj.mp h))]
    rfl

/-! ### The operation that is undone -/

/-- Turning to the countdown that is shown only begins a new epoch. -/
theorem turnTo_self {s : Session} {c : Countdown} (hc : s.view.countdown? = some c)
    (hr : c.isRunning = false) : s.turnTo c = s.stopInterval := by
  simp [turnTo, stopInterval, View.withCountdown_self hc, hr]

/-- The countdown is put into motion where an interval can be started. Elsewhere it is put back. -/
theorem perform_of_setsInMotion {s : Session} {op : Operation} (hop : s.setsInMotion op = true)
    (e : Surroundings) : ∃ c back, s.view.countdown? = some c ∧ c.isRunning = false ∧
      (c.Coherent → c.refresh = c → back = c) ∧
      s.perform e op = (s.turnTo
        (if e.canWait then { c with isRunning := true, isPaused := false } else back)).changed := by
  cases op with
  | startTimer =>
      obtain ⟨c, hc, hphase⟩ := Option.any_eq_true _ _ |>.mp hop
      have hidle : c.phase = .idle := of_decide_eq_true hphase
      obtain ⟨-, hr, hpaused⟩ := Countdown.phase_eq_idle_iff.mp hidle
      refine ⟨c, Countdown.reset { c with isRunning := true }, hc, hr,
        fun hcoherent hrefresh => hcoherent.reset_start hrefresh hidle, ?_⟩
      simp only [perform, startTimer, hc, Option.bind_some, Countdown.start?, hidle, if_true]
      cases e.canWait with
      | true => rw [startInterval_true s rfl, ← hpaused]; rfl
      | false => rw [startInterval_false hc _ rfl]; rfl
  | toggleTimer =>
      obtain ⟨c, hc, hphase⟩ := Option.any_eq_true _ _ |>.mp hop
      have hpaused : c.phase = .paused := of_decide_eq_true hphase
      obtain ⟨hcomplete, hr, -⟩ := Countdown.phase_eq_paused_iff.mp hpaused
      have hagain : Countdown.phase { c with isRunning := true, isPaused := false } = .running :=
        Countdown.phase_eq_running_iff.mpr ⟨hcomplete, rfl⟩
      refine ⟨c, { c with isRunning := false, isPaused := true }, hc, hr,
        fun _ _ => Countdown.pause_resume hpaused, ?_⟩
      simp only [perform, toggleTimer, hc, Countdown.toggle?, hpaused, hagain, Option.getD_some,
        reduceCtorEq, if_false]
      cases e.canWait with
      | true => rw [startInterval_true s rfl]; rfl
      | false => rw [startInterval_false hc _ rfl]; rfl
  | _ => cases hop

end Session

namespace World

/-- Where no interval can be started, only a new epoch begins. -/
theorem Reachable.perform_undone {w : World} (hw : Reachable w) {e : Surroundings}
    (hwait : e.canWait = false) {op : Operation} (hop : w.session.setsInMotion op = true) :
    w.session.perform e op = w.session.stopInterval.changed ∧
      w.session.view.isRunning = false := by
  obtain ⟨c, back, hc, hr, hback, hperform⟩ := Session.perform_of_setsInMotion hop e
  refine ⟨?_, (View.isRunning_of_countdown? hc).trans hr⟩
  rw [hperform, hwait, hback (hw.coherent c hc) (hw.refresh_eq c hc)]
  exact congrArg Session.changed (Session.turnTo_self hc hr)

/-! ### One epoch more -/

/-- The number of an interval if one epoch more follows epoch `n`. -/
def renumber (n k : Nat) : Nat :=
  if k ≤ n then k else k + 1

theorem renumber_of_le {n k : Nat} (h : k ≤ n) : renumber n k = k :=
  if_pos h

theorem renumber_of_lt {n k : Nat} (h : n < k) : renumber n k = k + 1 :=
  if_neg (Nat.not_le.mpr h)

/-- An interval that comes after epoch `n` has a number that no other one has. -/
theorem succ_mem_map_renumber {n k : Nat} (h : n < k) {l : List Nat} :
    k + 1 ∈ l.map (renumber n) ↔ k ∈ l := by
  rw [List.mem_map]
  constructor
  · rintro ⟨k', hmem, hk'⟩
    unfold renumber at hk'
    split at hk'
    · omega
    · rwa [← Nat.succ_inj.mp hk']
  · exact fun hmem => ⟨k, hmem, renumber_of_lt h⟩

end World

/-- The same move if one epoch more follows epoch `n`. -/
def Move.renumber (n : Nat) : Move → Move
  | .perform e op => .perform e op
  | .tick k => .tick (World.renumber n k)
  | .settle k services => .settle k services

namespace World

/-- The second world is the first one, but that one epoch more follows epoch `n` in it. The log
is not compared. -/
structure Postponed (n : Nat) (w w' : World) : Prop where
  /-- The session has one epoch more behind it. -/
  session : w'.session = w.session.aged
  /-- The intervals of later epochs have the next numbers. -/
  intervals : w'.intervals = w.intervals.map (renumber n)
  /-- The same lookups are on their way. -/
  lookups : w'.lookups = w.lookups
  /-- The services were asked the same questions. -/
  queries : w'.queries = w.queries
  /-- The clipboard took the same texts. -/
  clipboard : w'.clipboard = w.clipboard

/-- In the epochs before one in which nothing runs any more, nothing runs any more. -/
theorem Spent.mono {w : World} {n k : Nat} (h : w.Spent n) (hk : k ≤ n) : w.Spent k := by
  obtain ⟨hle, hquiet⟩ := h
  exact ⟨Nat.le_trans hk hle, fun heq => hquiet (by omega)⟩

namespace Postponed

variable {n : Nat} {w w' : World}

/-- The same move leads to the same. -/
theorem effect (h : Postponed n w w') (hw : w.Timed) (hspent : w.Spent n) (m : Move) :
    w'.effect (m.renumber n) = (w.effect m).aged := by
  cases m with
  | perform e op =>
      simp only [Move.renumber, World.effect, h.session]
      exact w.session.perform_aged e op
  | tick k =>
      simp only [Move.renumber, World.effect, h.session, h.intervals]
      by_cases hk : k ≤ n
      · -- Neither world takes notice of it.
        have hne : w.session.aged.epoch ≠ k := by
          have hle : n ≤ w.session.epoch := hspent.1
          have hepoch : w.session.aged.epoch = w.session.epoch + 1 := rfl
          omega
        rw [renumber_of_le hk, Session.tick_of_ne hne, (hspent.mono hk).tick_eq hw, ite_self,
          ite_self]
        rfl
      · have hlt : n < k := Nat.not_le.mp hk
        rw [renumber_of_lt hlt, w.session.tick_aged k, apply_ite Effect.aged]
        simp only [succ_mem_map_renumber hlt]
        rfl
  | settle k services =>
      simp only [Move.renumber, World.effect, h.session, h.lookups]
      cases w.lookups.find? (·.ticket = k) with
      | none => rfl
      | some l => exact w.session.settle_aged k _

theorem absorb (h : Postponed n w w') {f : Effect}
    (hnew : ∀ k, f.session.interval = some k → f.session.interval ≠ w.session.interval → n < k) :
    Postponed n (w.absorb f) (w'.absorb f.aged) where
  session := rfl
  intervals := by
    have hinterval : w'.session.interval = w.session.interval.map (· + 1) := by rw [h.session]; rfl
    have haged : f.aged.session.interval = f.session.interval.map (· + 1) := rfl
    simp only [World.absorb, haged, hinterval, h.intervals]
    by_cases hsame : f.session.interval = w.session.interval
    · rw [if_pos hsame, if_pos (by rw [hsame])]
    · have hne : f.session.interval.map (· + 1) ≠ w.session.interval.map (· + 1) :=
        fun heq => hsame (Option.map_injective Nat.succ_injective heq)
      rw [if_neg hsame, if_neg hne, List.map_append]
      cases hk : f.session.interval with
      | none => rfl
      | some k => simp [renumber_of_lt (hnew k hk hsame)]
  lookups := by simp only [World.absorb, h.lookups]; rfl
  queries := by simp only [World.absorb, h.queries]; rfl
  clipboard := by simp only [World.absorb, h.clipboard]; rfl

theorem step (h : Postponed n w w') (hw : Reachable w) (hspent : w.Spent n) (m : Move) :
    Postponed n (w.step m) (w'.step (m.renumber n)) := by
  have heffect := h.effect hw.timed hspent m
  -- An interval that is started belongs to the epoch that begins.
  have hnew : ∀ k, (w.effect m).session.interval = some k →
      (w.effect m).session.interval ≠ w.session.interval → n < k := by
    intro k hk hne
    rw [← session_step] at hk hne
    have hle : n ≤ w.session.epoch := hspent.1
    cases handled_step hw m with
    | keeps _ hinterval _ => exact absurd hinterval hne
    | renews _ hinterval =>
        rw [hinterval] at hk
        split at hk
        · cases hk
          omega
        · cases hk
    | ends _ hinterval _ =>
        rw [hinterval] at hk
        cases hk
  cases m with
  | perform e op =>
      have habsorb := h.absorb hnew
      rw [← heffect] at habsorb
      exact habsorb
  | tick k =>
      have hmove : Move.renumber n (.tick k) = .tick (renumber n k) := rfl
      rw [hmove] at heffect ⊢
      rw [step_tick, step_tick, heffect]
      exact h.absorb hnew
  | settle k services =>
      have hmove : Move.renumber n (.settle k services) = .settle k services := rfl
      rw [hmove] at heffect ⊢
      rw [step_settle, step_settle, heffect]
      have hrest : Postponed n { w with lookups := w.lookups.filter (·.ticket ≠ k) }
          { w' with lookups := w'.lookups.filter (·.ticket ≠ k) } :=
        ⟨h.session, h.intervals, by rw [h.lookups], h.queries, h.clipboard⟩
      exact hrest.absorb hnew

/-- Whatever happens later happens in the same way, and emits the same. -/
theorem run (h : Postponed n w w') (hw : Reachable w) (hspent : w.Spent n) (later : List Move) :
    Postponed n (w.run later) (w'.run (later.map (.renumber n))) ∧
      w'.emitted (later.map (.renumber n)) = w.emitted later := by
  induction later generalizing w w' with
  | nil => exact ⟨h, (emitted_nil w').trans (emitted_nil w).symm⟩
  | cons m later ih =>
      obtain ⟨hrun, hemitted⟩ := ih (h.step hw hspent m) (hw.step m) (hspent.step hw m)
      refine ⟨hrun, ?_⟩
      have hfirst : w'.emitted [m.renumber n] = w.emitted [m] := by
        rw [emitted_singleton, emitted_singleton, h.effect hw.timed hspent m]
        rfl
      calc w'.emitted ([m.renumber n] ++ later.map (.renumber n))
        _ = w.emitted [m] ++ (w.step m).emitted later := by
          rw [emitted_append, hfirst]
          exact congrArg _ hemitted
        _ = w.emitted ([m] ++ later) := (emitted_append w [m] later).symm

end Postponed

/-! ### As if nothing had been tried -/

/-- The intervals that there are belong to epochs that have come already. -/
theorem Timed.map_renumber {w : World} (h : w.Timed) :
    w.intervals.map (renumber w.session.epoch) = w.intervals := by
  rw [List.map_congr_left fun k hk => renumber_of_le (h.le_epoch k hk), List.map_id']

/-- Where no interval can be started, what is left of the operation is one epoch more. -/
theorem Reachable.postponed {w : World} (hw : Reachable w) {e : Surroundings}
    (hwait : e.canWait = false) {op : Operation} (hop : w.session.setsInMotion op = true) :
    Postponed w.session.epoch w (w.step (.perform e op)) := by
  obtain ⟨hundone, hr⟩ := hw.perform_undone hwait hop
  have hnone : w.session.interval = none := by rw [hw.timed.owned, hr]; rfl
  have hstep : w.step (.perform e op) = w.absorb w.session.stopInterval.changed :=
    congrArg w.absorb hundone
  rw [hstep]
  exact {
    session := by simp [absorb, Session.changed, Session.stopInterval, Session.aged, hnone]
    intervals := by
      simp [absorb, Session.changed, Session.stopInterval, hnone, hw.timed.map_renumber]
    lookups := by simp [absorb, Session.changed]
    queries := by simp [absorb, Session.changed]
    clipboard := by simp [absorb, Session.changed] }

/-- **Where no interval can be started, the countdown is as it was.** An operation that would start
an idle countdown or resume a paused one then leaves the view as it is, which it announces, and no
interval. The same operation puts the countdown into motion as soon as an interval can be started.
Whatever happens later on, the host sees, hears and is told the same as if the operation had not
been tried. -/
theorem undone_without_interval (moves : List Move) (e : Surroundings) (op : Operation)
    (hwait : e.canWait = false)
    (hop : (initial.run moves).session.setsInMotion op = true) :
    let w := initial.run moves
    let w' := w.step (.perform e op)
    w'.session.view = w.session.view ∧
      w.session.reply e op = .view w.session.view ∧
      w.emitted [.perform e op] = [.viewChanged w.session.view] ∧
      w'.session.interval = none ∧ w'.intervals = w.intervals ∧
      (∀ e', e'.canWait = true → ∃ c, w.session.view.countdown? = some c ∧
        (w'.step (.perform e' op)).session.view =
          w.session.view.withCountdown { c with isRunning := true, isPaused := false } ∧
        ∃ k ∈ (w'.step (.perform e' op)).intervals, (w'.step (.perform e' op)).drives k = true) ∧
      ∀ later, Postponed w.session.epoch (w.run later)
          (w'.run (later.map (.renumber w.session.epoch))) ∧
        w'.emitted (later.map (.renumber w.session.epoch)) = w.emitted later ∧
        ∀ e' op', (w'.run (later.map (.renumber w.session.epoch))).session.reply e' op' =
          (w.run later).session.reply e' op' := by
  intro w w'
  have hw : Reachable w := reachable_run moves
  obtain ⟨hundone, hr⟩ := hw.perform_undone hwait hop
  have hpostponed : Postponed w.session.epoch w w' := hw.postponed hwait hop
  have hspent : w.Spent w.session.epoch := ⟨Nat.le_refl _, fun _ => hr⟩
  have hview : w'.session.view = w.session.view := by rw [hpostponed.session]; rfl
  have hsession : w'.session = w.session.stopInterval := congrArg Effect.session hundone
  refine ⟨hview, ?_, ?_, ?_, ?_, fun e' hwait' => ?_, fun later => ?_⟩
  · have hreply : w.session.reply e op = .view (w.session.perform e op).session.view := by
      cases op with
      | startTimer | toggleTimer => rfl
      | _ => cases hop
    rw [hreply, hundone]
    rfl
  · rw [emitted_singleton]
    exact congrArg Effect.events hundone
  · rw [hsession]
    rfl
  · rw [hpostponed.intervals, hw.timed.map_renumber]
  · have hop' : w'.session.setsInMotion op = true := by
      rw [hpostponed.session, Session.setsInMotion_aged]
      exact hop
    obtain ⟨c, back, hc, -, -, hperform⟩ := Session.perform_of_setsInMotion hop' e'
    rw [hwait', if_pos rfl] at hperform
    have hstarted : (w'.step (.perform e' op)).session.view =
        w'.session.view.withCountdown { c with isRunning := true, isPaused := false } :=
      congrArg (·.session.view) hperform
    have hrunning : (w'.step (.perform e' op)).session.view.isRunning = true := by
      rw [hstarted, View.isRunning_withCountdown hc]
    have htimed : (w'.step (.perform e' op)).Timed := ((hw.step _).step _).timed
    rw [hview] at hc hstarted
    exact ⟨c, hc, hstarted, _, htimed.started hrunning, htimed.drives_iff.mpr ⟨hrunning, rfl⟩⟩
  · obtain ⟨hrun, hemitted⟩ := hpostponed.run hw hspent later
    exact ⟨hrun, hemitted, fun e' op' => by rw [hrun.session, Session.reply_aged]⟩

/-- A countdown that was paused after its first second cannot be resumed where there are no
intervals. It still has 59 seconds, and it loses the next one when it was resumed elsewhere. -/
theorem undone_after_pause :
    let here : Surroundings := ⟨.default, 0, 0, true, true⟩
    let away : Surroundings := { here with canWait := false }
    let w := initial.run [.perform here (.focus "timer"), .perform here (.setDuration 60),
      .perform here .startTimer, .tick 2, .perform here .toggleTimer]
    let w' := w.step (.perform away .toggleTimer)
    away.canWait = false ∧ w.session.setsInMotion .toggleTimer = true ∧
      w'.session.view = w.session.view ∧
      w'.session.view.countdown?.map (·.remaining) = some 59 ∧
      w'.emitted [.perform here .toggleTimer, .tick 5] =
        w.emitted [.perform here .toggleTimer, .tick 4] := by
  intro here away w w'
  have hop : w.session.setsInMotion .toggleTimer = true := by decide +kernel
  obtain ⟨hview, -, -, -, -, -, hlater⟩ := undone_without_interval
    [.perform here (.focus "timer"), .perform here (.setDuration 60), .perform here .startTimer,
      .tick 2, .perform here .toggleTimer] away .toggleTimer rfl hop
  refine ⟨rfl, hop, hview, ?_, (hlater [.perform here .toggleTimer, .tick 4]).2.1⟩
  rw [hview]
  decide +kernel

end World

end Composer
