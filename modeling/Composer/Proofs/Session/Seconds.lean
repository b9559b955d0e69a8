import Composer.Proofs.Session.Countdowns
import Mathlib.Data.List.Induction
/-!
# Composer.Proofs.Session.Seconds

**Every second of a countdown is announced once, and the last one completes it.** A countdown that
was started may pause and go on, texts are ignored, ticks come too late: until the countdown is
reset or replaced, the seconds it has lost are the ticks that were announced since its start.
`Countdown.Advances` is this account for any stretch of events, and stretches add up. The main
statement is `completed_on_last_second`.
-/

namespace Composer

/-! ### What is announced about countdowns -/

/-- Whether an event announces a second of a countdown. -/
def Event.isTick : Event → Bool
  | .ticked _ => true
  | _ => false

/-- Whether an event announces the end of a countdown. -/
def Event.isCompletion : Event → Bool
  | .completed _ _ => true
  | _ => false

/-- Whether an event announces neither a second nor the end of a countdown. -/
def Event.isQuiet (ev : Event) : Bool :=
  !ev.isTick && !ev.isCompletion

theorem countP_isTick_of_quiet {events : List Event} (h : ∀ ev ∈ events, ev.isQuiet = true) :
    events.countP Event.isTick = 0 := by
  rw [List.countP_eq_zero]
  intro ev hev
  have := h ev hev
  simp only [Event.isQuiet, Bool.and_eq_true, Bool.not_eq_true'] at this
  simp [this.1]

theorem filter_isCompletion_of_quiet {events : List Event}
    (h : ∀ ev ∈ events, ev.isQuiet = true) : events.filter Event.isCompletion = [] := by
  rw [List.filter_eq_nil_iff]
  intro ev hev
  have := h ev hev
  simp only [Event.isQuiet, Bool.and_eq_true, Bool.not_eq_true'] at this
  simp [this.2]

namespace Countdown

/-- Countdown `d` is what becomes of `c` while some events are emitted. It is for the same thing,
it has lost a second for each tick among them, and its end is among them exactly if the last second
passed meanwhile. -/
structure Advances (c d : Countdown) (events : List Event) : Prop where
  /-- The duration is the same. -/
  total_eq : d.total = c.total
  /-- It is for the same thing. -/
  label_eq : d.label = c.label
  /-- Every tick is one of the seconds that were left. -/
  remaining_eq : c.remaining = d.remaining + events.countP Event.isTick
  /-- The end is announced with the last second. -/
  completions_eq : events.filter Event.isCompletion =
    if c.remaining ≠ 0 ∧ d.remaining = 0 then [.completed c.label c.total] else []

theorem Advances.of_quiet {c d : Countdown} {events : List Event} (htotal : d.total = c.total)
    (hlabel : d.label = c.label) (hremaining : d.remaining = c.remaining)
    (hquiet : ∀ ev ∈ events, ev.isQuiet = true) : c.Advances d events where
  total_eq := htotal
  label_eq := hlabel
  remaining_eq := by rw [countP_isTick_of_quiet hquiet, hremaining, Nat.add_zero]
  completions_eq := by
    rw [filter_isCompletion_of_quiet hquiet, if_neg]
    rw [hremaining]
    exact fun h => h.1 h.2

/-- The account of a second. -/
theorem Coherent.advances_tick {c : Countdown} (h : c.Coherent) (hr : c.isRunning = true)
    (v : View) :
    c.Advances c.tick
      ([.ticked c.tick] ++ (if c.completes then [.completed c.label c.total] else []) ++
        [.viewChanged v]) := by
  obtain ⟨hleft, hcompletes⟩ := h.tick_running hr
  have hpos : c.remaining ≠ 0 := by omega
  refine ⟨c.total_tick, c.label_tick, ?_, ?_⟩
  · rw [hleft]
    split <;> rfl
  · by_cases hlast : c.tick.remaining = 0
    · rw [if_pos (hcompletes.mpr hlast), if_pos ⟨hpos, hlast⟩]
      rfl
    · rw [if_neg (mt hcompletes.mp hlast), if_neg (fun hboth => hlast hboth.2)]
      rfl

/-- Accounts of two stretches make one of both. The end is in the first of them or in the second
one: once no second is left, none is lost. -/
theorem Advances.trans {c d b : Countdown} {events more : List Event} (h : c.Advances d events)
    (h' : d.Advances b more) : c.Advances b (events ++ more) where
  total_eq := h'.total_eq.trans h.total_eq
  label_eq := h'.label_eq.trans h.label_eq
  remaining_eq := by
    rw [List.countP_append, h.remaining_eq, h'.remaining_eq]
    omega
  completions_eq := by
    have hc := h.remaining_eq
    have hd := h'.remaining_eq
    rw [List.filter_append, h.completions_eq, h'.completions_eq, h.label_eq, h.total_eq]
    by_cases hleft : d.remaining = 0
    · have hb : b.remaining = 0 := by omega
      simp [hleft, hb]
    · have hpos : c.remaining ≠ 0 := by omega
      simp [hleft, hpos]

end Countdown

namespace Session

/-- No operation announces a second or the end of a countdown. -/
theorem isQuiet_of_performs {s : Session} {e : Surroundings} {op : Operation} {f : Effect}
    (h : s.Performs e op f) : ∀ ev ∈ f.events, ev.isQuiet = true := by
  intro ev hev
  cases h with
  | stays _ _ hcopied =>
      subst hcopied
      obtain ⟨text, -, rfl⟩ := List.mem_map.mp hev
      rfl
  | replaces _ _ hmore =>
      rcases List.mem_cons.mp hev with rfl | hev
      · rfl
      · obtain ⟨command, action, rfl⟩ := hmore ev hev
        rfl
  | fails _ _ _ _ _ _ =>
      rcases List.mem_cons.mp hev with rfl | hev
      · rfl
      · rw [List.mem_singleton.mp hev]
        rfl
  | ignores _ => cases hev
  | stops _ => cases hev
  | _ =>
      rw [List.mem_singleton.mp hev]
      rfl

theorem isQuiet_of_settle (s : Session) (k : Ticket) (a : Answer) :
    ∀ ev ∈ (s.settle k a).events, ev.isQuiet = true := by
  intro ev hev
  rcases s.settle_cases k a with h | ⟨-, -, -, h⟩
  · rw [h] at hev
    cases hev
  · rw [h] at hev
    rw [List.mem_singleton.mp hev]
    rfl

end Session

namespace World

theorem isQuiet_of_perform (w : World) (e : Surroundings) (op : Operation) :
    ∀ ev ∈ w.emitted [.perform e op], ev.isQuiet = true := by
  rw [emitted_singleton]
  exact Session.isQuiet_of_performs (w.session.performs e op)

theorem isQuiet_of_settle (w : World) (k : Ticket) (services : Services) :
    ∀ ev ∈ w.emitted [.settle k services], ev.isQuiet = true := by
  rw [emitted_singleton]
  rcases w.effect_settle_cases k services with h | ⟨a, h⟩
  · rw [h]
    exact fun ev hev => by cases hev
  · rw [h]
    exact w.session.isQuiet_of_settle k a

/-! ### From a start on -/

/-- The world after the host has asked for the start of the countdown. -/
def afterStart (w : World) (e : Surroundings) : World :=
  w.step (.perform e .startTimer)

/-- The host can start the countdown: no countdown runs, and one runs afterwards. -/
def Starts (w : World) (e : Surroundings) : Prop :=
  w.session.view.isRunning = false ∧ (w.afterStart e).session.view.isRunning = true

/-- Whether a move resets the countdown or replaces all that is shown. -/
def Discards (w : World) : Move → Prop
  | .perform _ op => w.session.discards op = true
  | .tick _ => False
  | .settle _ _ => False

/-- A countdown that was started has all its seconds left, and it has some. -/
theorem Starts.exists_countdown {w : World} (hw : Reachable w) {e : Surroundings}
    (h : w.Starts e) :
    ∃ c, (w.afterStart e).session.view.countdown? = some c ∧ c.phase ≠ .idle ∧
      c.remaining = c.total ∧ c.total ≠ 0 := by
  obtain ⟨hbefore, hafter⟩ := h
  obtain ⟨d, hd, hr⟩ := View.isRunning_eq_true_iff.mp hafter
  cases Session.treats (w.session.performs e .startTimer) with
  | keeps _ hsame =>
      rw [View.isRunning_of_countdown? (hsame.symm.trans hd), hr] at hbefore
      cases hbefore
  | drops hdiscards _ => cases hdiscards
  | sets _ hsome =>
      cases hsome.symm.trans hd
      cases hr
  | @turns c _ hc hturn hsome =>
      cases hsome.symm.trans hd
      cases hturn with
      | start _ hidle =>
          have hcoherent := hw.coherent c hc
          have hcomplete := (Countdown.phase_eq_idle_iff.mp hidle).1
          have hleft : c.remaining = c.total := hcoherent.idle hidle
          refine ⟨_, hd, ?_, hleft, ?_⟩
          · simp [Countdown.phase_eq_idle_iff]
          · intro hzero
            rw [hcoherent.complete_iff.mpr (hleft.trans hzero)] at hcomplete
            cases hcomplete
      | startUndone _ _ => cases hr
  | resets _ hset hsome =>
      cases hsome.symm.trans hd
      obtain ⟨-, -, hidle⟩ := Countdown.coherent_of_setDuration hset
      rw [(Countdown.phase_eq_idle_iff.mp hidle).2.1] at hr
      cases hr

/-- A countdown that was started stays so, and its account is kept, unless a move discards it. -/
theorem advances_step {w : World} (hw : Reachable w) {c : Countdown}
    (hc : w.session.view.countdown? = some c) (hphase : c.phase ≠ .idle) {m : Move}
    (hm : ¬ w.Discards m) :
    ∃ d, (w.step m).session.view.countdown? = some d ∧ d.phase ≠ .idle ∧
      c.Advances d (w.emitted [m]) := by
  cases m with
  | perform e op =>
      have hquiet := w.isQuiet_of_perform e op
      cases Session.treats (w.session.performs e op) with
      | keeps _ hsame => exact ⟨c, hsame.trans hc, hphase, .of_quiet rfl rfl rfl hquiet⟩
      | drops hdiscards _ => exact absurd hdiscards hm
      | sets hwhen _ =>
          rcases hwhen with hdiscards | hnone
          · exact absurd hdiscards hm
          · rw [hnone] at hc
            cases hc
      | @turns _ d hc' hturn hsome =>
          cases hc'.symm.trans hc
          -- Idle countdowns are started, but this one has been started already.
          cases hturn with
          | start _ hidle => exact absurd hidle hphase
          | startUndone _ hidle => exact absurd hidle hphase
          | pause hrunning =>
              refine ⟨_, hsome, ?_, .of_quiet rfl rfl rfl hquiet⟩
              simp [Countdown.phase_eq_idle_iff]
          | resume _ hpaused =>
              refine ⟨_, hsome, ?_, .of_quiet rfl rfl rfl hquiet⟩
              simp [Countdown.phase_eq_idle_iff]
          | resumeUndone _ hpaused =>
              refine ⟨_, hsome, ?_, .of_quiet rfl rfl rfl hquiet⟩
              simp [Countdown.phase_eq_idle_iff]
          | reset => exact absurd rfl hm
      | resets hc' hset _ =>
          cases hc'.symm.trans hc
          exact absurd (Countdown.coherent_of_setDuration hset).2.1 hphase
  | tick n =>
      rcases w.countdown?_tick n with ⟨hsame, hnone⟩ | ⟨c', v, hc', hr, hsome, hevents⟩
      · rw [hnone]
        exact ⟨c, hsame.trans hc, hphase, .of_quiet rfl rfl rfl (by simp)⟩
      · cases hc'.symm.trans hc
        have hcoherent := hw.coherent c hc
        rw [hevents]
        exact ⟨c.tick, hsome, hcoherent.phase_tick_ne_idle hr, hcoherent.advances_tick hr v⟩
  | settle k services =>
      have hquiet := w.isQuiet_of_settle k services
      exact ⟨c, (countdown?_settle hw k services).trans hc, hphase, .of_quiet rfl rfl rfl hquiet⟩

theorem advances_run {w : World} (hw : Reachable w) {c : Countdown}
    (hc : w.session.view.countdown? = some c) (hphase : c.phase ≠ .idle) {moves : List Move}
    (hmoves : w.Along (fun w m => ¬ w.Discards m) moves) :
    ∃ d, (w.run moves).session.view.countdown? = some d ∧ c.Advances d (w.emitted moves) := by
  induction moves generalizing w c with
  | nil => exact ⟨c, hc, .of_quiet rfl rfl rfl (by simp)⟩
  | cons m moves ih =>
      obtain ⟨hm, hrest⟩ := hmoves
      obtain ⟨d, hd, hphase', hfirst⟩ := advances_step hw hc hphase hm
      obtain ⟨b, hb, hsecond⟩ := ih (hw.step m) hd hphase' hrest
      refine ⟨b, hb, ?_⟩
      rw [show m :: moves = [m] ++ moves from rfl, emitted_append]
      exact hfirst.trans hsecond

/-- What the ticks since a start tell about the countdown, and when its end was announced. -/
theorem Starts.counted {w : World} (hw : Reachable w) {e : Surroundings} (h : w.Starts e)
    {moves : List Move} (hmoves : (w.afterStart e).Along (fun w m => ¬ w.Discards m) moves) :
    ∃ c d, (w.afterStart e).session.view.countdown? = some c ∧
      ((w.afterStart e).run moves).session.view.countdown? = some d ∧
      c.remaining = c.total ∧ c.total ≠ 0 ∧
      c.Advances d ((w.afterStart e).emitted moves) := by
  obtain ⟨c, hc, hphase, hleft, hpos⟩ := h.exists_countdown hw
  obtain ⟨d, hd, hadvances⟩ := advances_run (hw.step _) hc hphase hmoves
  exact ⟨c, d, hc, hd, hleft, hpos, hadvances⟩

/-! ### Back to the start -/

/-- A countdown under way was under way before, or it was started just now. -/
theorem underWay_step {w : World} (hw : Reachable w) {m : Move} {d : Countdown}
    (hd : (w.step m).session.view.countdown? = some d) (hunder : d.UnderWay) :
    (¬ w.Discards m ∧ ∃ c, w.session.view.countdown? = some c ∧ c.UnderWay) ∨
      ∃ e, m = .perform e .startTimer ∧ w.Starts e := by
  cases m with
  | perform e op =>
      cases Session.treats (w.session.performs e op) with
      | keeps hkept hsame =>
          refine Or.inl ⟨?_, d, hsame.symm.trans hd, hunder⟩
          intro hdiscards
          rw [show w.session.discards op = true from hdiscards] at hkept
          cases hkept
      | drops _ hnone => cases hnone.symm.trans hd
      | sets _ hsome =>
          cases hsome.symm.trans hd
          exact absurd hunder (Countdown.not_underWay rfl rfl)
      | @turns c _ hc hturn hsome =>
          have heq := hsome.symm.trans hd
          cases hturn with
          | start _ hidle =>
              have hr := (Countdown.phase_eq_idle_iff.mp hidle).2.1
              refine Or.inr ⟨e, rfl, (View.isRunning_of_countdown? hc).trans hr, ?_⟩
              exact View.isRunning_of_countdown? hsome
          | startUndone _ _ =>
              cases heq
              exact absurd hunder (Countdown.not_underWay rfl rfl)
          | pause hrunning => exact Or.inl ⟨nofun, c, hc, Or.inl hrunning⟩
          | resume _ hpaused => exact Or.inl ⟨nofun, c, hc, Or.inr hpaused⟩
          | resumeUndone _ hpaused => exact Or.inl ⟨nofun, c, hc, Or.inr hpaused⟩
          | reset =>
              cases heq
              exact absurd hunder (Countdown.not_underWay rfl rfl)
      | resets _ hset hsome =>
          cases hsome.symm.trans hd
          obtain ⟨-, hrunning, hpaused⟩ :=
            Countdown.phase_eq_idle_iff.mp (Countdown.coherent_of_setDuration hset).2.2
          exact absurd hunder (Countdown.not_underWay hrunning hpaused)
  | tick n =>
      rcases w.countdown?_tick n with ⟨hsame, -⟩ | ⟨c, v, hc, hr, -, -⟩
      · exact Or.inl ⟨id, d, hsame.symm.trans hd, hunder⟩
      · exact Or.inl ⟨id, c, hc, (hw.coherent c hc).underWay hr⟩
  | settle k services =>
      exact Or.inl ⟨id, d, (countdown?_settle hw k services).symm.trans hd, hunder⟩

/-- A countdown under way was started some time ago, and nothing has discarded it since. -/
theorem exists_start (moves : List Move) {d : Countdown}
    (hd : (initial.run moves).session.view.countdown? = some d) (hunder : d.UnderWay) :
    ∃ before e after, moves = before ++ .perform e .startTimer :: after ∧
      (initial.run before).Starts e ∧
      ((initial.run before).afterStart e).Along (fun w m => ¬ w.Discards m) after := by
  induction moves using List.reverseRecOn generalizing d with
  | nil => cases hd
  | append_singleton moves m ih =>
      rw [run_append] at hd
      rcases underWay_step (reachable_run moves) hd hunder with
        ⟨hm, c, hc, hunder'⟩ | ⟨e, rfl, hstarts⟩
      · obtain ⟨before, e, after, rfl, hstarts, hafter⟩ := ih hc hunder'
        refine ⟨before, e, after ++ [m], by simp, hstarts, ?_⟩
        rw [run_append] at hm
        exact along_append.mpr ⟨hafter, along_singleton.mpr hm⟩
      · exact ⟨moves, e, [], rfl, hstarts, trivial⟩

/-- Only a tick announces the end of a countdown, and it is the last second of the countdown. -/
theorem completes_of_mem_emitted {w : World} {m : Move} {ev : Event} (hev : ev ∈ w.emitted [m])
    (hcompletion : ev.isCompletion = true) :
    ∃ n c, m = .tick n ∧ w.session.view.countdown? = some c ∧ c.isRunning = true ∧
      (w.step m).session.view.countdown? = some c.tick ∧ c.completes = true ∧
      ev = .completed c.label c.total := by
  have hloud : ev.isQuiet = false := by simp [Event.isQuiet, hcompletion]
  cases m with
  | perform e op =>
      rw [w.isQuiet_of_perform e op ev hev] at hloud
      cases hloud
  | tick n =>
      rcases w.countdown?_tick n with ⟨-, hnone⟩ | ⟨c, v, hc, hr, hsome, hevents⟩
      · rw [hnone] at hev
        cases hev
      · rw [hevents] at hev
        cases hcompletes : c.completes with
        | false =>
            simp only [hcompletes, List.mem_append, List.mem_singleton] at hev
            rcases hev with (rfl | hev) | rfl
            · cases hcompletion
            · cases hev
            · cases hcompletion
        | true =>
            simp only [hcompletes, List.mem_append, List.mem_singleton, if_true] at hev
            rcases hev with (rfl | rfl) | rfl
            · cases hcompletion
            · exact ⟨n, c, rfl, hc, hr, hsome, hcompletes, rfl⟩
            · cases hcompletion
  | settle k services =>
      rw [w.isQuiet_of_settle k services ev hev] at hloud
      cases hloud

/-- The end that is announced is the end of a countdown that was started, and of its last second. -/
theorem exists_start_of_completion {moves : List Move} {m : Move} {ev : Event}
    (hev : ev ∈ (initial.run moves).emitted [m]) (hcompletion : ev.isCompletion = true) :
    ∃ before e after c, moves = before ++ .perform e .startTimer :: after ∧
      (initial.run before).Starts e ∧
      ((initial.run before).afterStart e).Along (fun w m => ¬ w.Discards m) after ∧
      ((initial.run before).afterStart e).session.view.countdown? = some c ∧
      ev = .completed c.label c.total ∧ (∃ n, m = .tick n) ∧
      (((initial.run before).afterStart e).emitted after).countP Event.isTick + 1 = c.total ∧
      (((initial.run before).afterStart e).emitted (after ++ [m])).countP Event.isTick =
        c.total := by
  obtain ⟨n, d, rfl, hd, hr, hlast, hcompletes, rfl⟩ := completes_of_mem_emitted hev hcompletion
  have hcoherent : d.Coherent := (reachable_run moves).coherent d hd
  obtain ⟨before, e, after, rfl, hstarts, hafter⟩ := exists_start moves hd (hcoherent.underWay hr)
  rw [run_append, run_cons] at hd hlast
  -- The account is taken twice, before the tick and after it.
  have hafter' : ((initial.run before).afterStart e).Along (fun w m => ¬ w.Discards m)
      (after ++ [.tick n]) := along_append.mpr ⟨hafter, along_singleton.mpr id⟩
  obtain ⟨c, d', hc, hd', hleft, -, hadvances⟩ := hstarts.counted (reachable_run before) hafter
  obtain ⟨c', b, hc', hb, -, -, hadvances'⟩ := hstarts.counted (reachable_run before) hafter'
  rw [run_append] at hb
  obtain rfl : c = c' := Option.some.inj (hc.symm.trans hc')
  obtain rfl : d' = d := Option.some.inj (hd'.symm.trans hd)
  obtain rfl : d'.tick = b := Option.some.inj (hlast.symm.trans hb)
  have hcount := hadvances.remaining_eq
  have hcount' := hadvances'.remaining_eq
  obtain ⟨hstep, hzero⟩ := hcoherent.tick_running hr
  have hnone : d'.tick.remaining = 0 := hzero.mp hcompletes
  refine ⟨before, e, after, c, rfl, hstarts, hafter, hc, ?_, ⟨n, rfl⟩, by omega, by omega⟩
  rw [hadvances.label_eq, hadvances.total_eq]

/-- **A countdown completes with the last of its seconds, and at no other time.** First, take any
start that a countdown runs after, and any moves since then that neither reset nor replace it: the
seconds that are gone are the ticks that were announced, and the end has been announced, once, if
there are as many of them as the countdown has seconds, and not at all otherwise. Secondly,
whenever an end is announced in any run, it is by a tick of an interval, the last second of such a
countdown. -/
theorem completed_on_last_second :
    (∀ (before after : List Move) (e : Surroundings),
      let start := (initial.run before).afterStart e
      (initial.run before).Starts e → start.Along (fun w m => ¬ w.Discards m) after →
        ∃ c d, start.session.view.countdown? = some c ∧
          (start.run after).session.view.countdown? = some d ∧
          d.total = c.total ∧ d.label = c.label ∧ d.remaining ≤ d.total ∧
          d.total - d.remaining = (start.emitted after).countP Event.isTick ∧
          (start.emitted after).filter Event.isCompletion =
            if (start.emitted after).countP Event.isTick = c.total then
              [.completed c.label c.total]
            else []) ∧
      ∀ (moves : List Move) (m : Move) (ev : Event),
        ev ∈ (initial.run moves).emitted [m] → ev.isCompletion = true →
          ∃ before e after c,
            let start := (initial.run before).afterStart e
            moves = before ++ .perform e .startTimer :: after ∧
              (initial.run before).Starts e ∧ start.Along (fun w m => ¬ w.Discards m) after ∧
              start.session.view.countdown? = some c ∧ ev = .completed c.label c.total ∧
              (∃ n, m = .tick n) ∧
              (start.emitted after).countP Event.isTick + 1 = c.total ∧
              (start.emitted (after ++ [m])).countP Event.isTick = c.total := by
  constructor
  · intro before after e start hstarts hafter
    obtain ⟨c, d, hc, hd, hleft, hpos, hadvances⟩ := hstarts.counted (reachable_run before) hafter
    have hcount : c.remaining = d.remaining + (start.emitted after).countP Event.isTick :=
      hadvances.remaining_eq
    have htotal := hadvances.total_eq
    refine ⟨c, d, hc, hd, htotal, hadvances.label_eq, by omega, by omega, ?_⟩
    rw [hadvances.completions_eq]
    -- No second is left exactly if all of them were ticks.
    exact if_congr (by omega) rfl rfl
  · exact fun moves m ev hev hcompletion => exists_start_of_completion hev hcompletion

/-- Two seconds with a pause in between, and ticks that come too late. -/
example :
    let e : Surroundings := ⟨.default, 0, 0, true, true⟩
    let moves := [.perform e (.focus "timer"), .perform e (.setDuration 2),
      .perform e .startTimer, .tick 2, .perform e .toggleTimer, .tick 2, .perform e .toggleTimer,
      .tick 2, .tick 4, .tick 4]
    (initial.run moves).log.filter Event.isCompletion = [.completed none 2] := by
  decide +kernel

end World

end Composer
