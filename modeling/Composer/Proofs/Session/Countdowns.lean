import Composer.Proofs.Countdown.History
import Composer.Proofs.Session.Shape
/-!
# Composer.Proofs.Session.Countdowns

**The countdown that is shown, from one move to the next.** `Session.Treats` lists what an operation
can make of it, and says which operations reset or replace it. From this the countdown that is shown
is a new one with a history, wherever a session can come to, and so it is coherent and up to date.
-/

namespace Composer

/-- What the host makes of a countdown is made by actions. Where there is no interval, what an
operation did is taken back by another action. -/
theorem Countdown.Turn.exists_run {canWait : Bool} {op : Operation} {c d : Countdown}
    (h : c.Turn canWait op d) : ∃ history, c.run history = d := by
  cases h with
  | start _ hidle => exact ⟨[.start], act_start hidle⟩
  | startUndone _ hidle => exact ⟨[.start, .reset], congrArg Countdown.reset (act_start hidle)⟩
  | pause hphase => exact ⟨[.toggle], act_toggle_running hphase⟩
  | resume _ hphase => exact ⟨[.toggle], act_toggle_paused hphase⟩
  | resumeUndone _ hphase =>
      have hagain : phase { c with isRunning := true, isPaused := false } = .running :=
        phase_eq_running_iff.mpr ⟨(phase_eq_paused_iff.mp hphase).1, rfl⟩
      refine ⟨[.toggle, .toggle], ?_⟩
      rw [run_cons, act_toggle_paused hphase]
      exact act_toggle_running hagain
  | reset => exact ⟨[.reset], rfl⟩

namespace Session

/-! ### Operations -/

/-- Whether an operation resets the countdown or replaces all that is shown. A text does so unless
it is ignored. -/
def discards (s : Session) : Operation → Bool
  | .analyze _ => !s.view.isCounting
  | .resetTimer => true
  | op => s.replaces op

theorem discards_eq_false {s : Session} {op : Operation} (hop : s.supersedes op = false)
    (hreset : op ≠ .resetTimer) : s.discards op = false := by
  cases op with
  | analyze _ => cases hop
  | resetTimer => exact absurd rfl hreset
  | _ => exact hop

theorem discards_of_replaces {s : Session} {op : Operation} (h : s.replaces op = true) :
    s.discards op = true := by
  cases op with
  | analyze _ => cases h
  | resetTimer => rfl
  | _ => exact h

/-- What an operation makes of the countdown that is shown. -/
inductive Treats (s : Session) (e : Surroundings) (op : Operation) (v : View) : Prop
  /-- The countdown stays as it is. -/
  | keeps : s.discards op = false → v.countdown? = s.view.countdown? → Treats s e op v
  /-- No countdown is shown any more. -/
  | drops : s.discards op = true → v.countdown? = none → Treats s e op v
  /-- A countdown is set, in place of what was shown or where there was none. -/
  | sets {total : Nat} {label : Option String} :
      s.discards op = true ∨ s.view.countdown? = none →
      v.countdown? = some (.ofSeconds total label) → Treats s e op v
  /-- The countdown is started, paused, resumed or reset. -/
  | turns {c d : Countdown} : s.view.countdown? = some c → c.Turn e.canWait op d →
      v.countdown? = some d → Treats s e op v
  /-- The countdown gets another duration. -/
  | resets {c d : Countdown} {seconds : Nat} : s.view.countdown? = some c →
      c.setDuration? seconds = some d → v.countdown? = some d → Treats s e op v

/-- What a text leaves of the countdown of before. -/
theorem treats_reading {s : Session} {e : Surroundings} {text : String}
    (h : s.view.isCounting = false) :
    s.Treats e (.analyze text) (s.reading e text).view := by
  have hdiscards : s.discards (.analyze text) = true := by simp [discards, h]
  cases hc : (s.reading e text).view.countdown? with
  | none => exact .drops hdiscards hc
  | some c =>
      obtain ⟨total, label, rfl⟩ := View.countdown?_ofText hc
      exact .sets (Or.inl hdiscards) hc

theorem treats {s : Session} {e : Surroundings} {op : Operation} {f : Effect}
    (h : s.Performs e op f) : s.Treats e op f.session.view := by
  cases h with
  | stays hop hreset _ => exact .keeps (discards_eq_false hop hreset) rfl
  | selects hop hreset _ _ => exact .keeps (discards_eq_false hop hreset) rfl
  | replaces hop hv _ =>
      refine .drops (discards_of_replaces hop) ?_
      rcases hv with rfl | ⟨t, rfl⟩
      · rfl
      · rfl
  | ignores hcounting => exact .keeps (by simp [discards, hcounting]) rfl
  | reads hcounting _ => exact treats_reading hcounting
  | asks hcounting _ hm _ htool _ =>
      exact .drops (by simp [discards, hcounting]) (View.countdown?_withAnswer_markLoading hm htool)
  | fails hcounting _ hm _ htool _ =>
      exact .drops (by simp [discards, hcounting])
        (View.countdown?_withAnswer_withError hm htool _)
  | turns hc hturn => exact .turns hc hturn (View.countdown?_withCountdown hc _)
  | stops hc => exact .drops rfl hc
  | sets hm _ hc _ => exact .sets (Or.inr hc) (View.countdown?_withAnswer hm _)
  | resets hc hd => exact .resets hc hd (View.countdown?_withCountdown hc _)

end Session

/-! ### Moves -/

namespace World

/-- The countdown after a tick: one second later if the tick counts, and as it was otherwise. -/
theorem countdown?_tick (w : World) (n : Nat) :
    ((w.step (.tick n)).session.view.countdown? = w.session.view.countdown? ∧
        w.emitted [.tick n] = []) ∨
      ∃ c v, w.session.view.countdown? = some c ∧ c.isRunning = true ∧
        (w.step (.tick n)).session.view.countdown? = some c.tick ∧
        w.emitted [.tick n] =
          [.ticked c.tick] ++ (if c.completes then [.completed c.label c.total] else []) ++
            [.viewChanged v] := by
  rw [session_step, emitted_singleton]
  rcases w.effect_tick_cases n with h | h
  · rw [h]
    exact Or.inl ⟨rfl, rfl⟩
  · rw [h]
    rcases w.session.tick_cases n with ⟨hv, hevents⟩ | ⟨c, hc, hr, hv, hevents⟩
    · exact Or.inl ⟨congrArg View.countdown? hv, hevents⟩
    · refine Or.inr ⟨c, _, hc, hr, ?_, hevents⟩
      rw [hv]
      exact View.countdown?_withCountdown hc _

theorem countdown?_settle {w : World} (hw : Reachable w) (k : Ticket) (services : Services) :
    (w.step (.settle k services)).session.view.countdown? = w.session.view.countdown? := by
  rw [session_step]
  rcases w.effect_settle_cases k services with h | ⟨a, h⟩
  · rw [h]
    rfl
  · rw [h]
    exact Session.countdown?_settle hw.fits k a

/-- Every countdown that is shown was a new one, and has a history since. -/
theorem Reachable.exists_history {w : World} (h : Reachable w) :
    ∀ c, w.session.view.countdown? = some c →
      ∃ total label history, (Countdown.ofSeconds total label).run history = c := by
  refine h.induction (P := fun w => ∀ c, w.session.view.countdown? = some c →
    ∃ total label history, (Countdown.ofSeconds total label).run history = c)
    (fun c hc => by cases hc) (fun w m hw ih d hd => ?_)
  -- What happens now goes to the end of the history of before.
  have hnext : ∀ c, w.session.view.countdown? = some c → ∀ more, c.run more = d →
      ∃ total label history, (Countdown.ofSeconds total label).run history = d := by
    intro c hc more hmore
    obtain ⟨total, label, history, rfl⟩ := ih c hc
    exact ⟨total, label, history ++ more, by rw [Countdown.run_append, hmore]⟩
  cases m with
  | perform e op =>
      cases Session.treats (w.session.performs e op) with
      | keeps _ hsame => exact ih d (hsame.symm.trans hd)
      | drops _ hnone =>
          have hnone' : (w.step (.perform e op)).session.view.countdown? = none := hnone
          rw [hnone'] at hd
          cases hd
      | @sets total label _ hsome =>
          cases hsome.symm.trans hd
          exact ⟨total, label, [], rfl⟩
      | turns hc hturn hsome =>
          cases hsome.symm.trans hd
          obtain ⟨more, hmore⟩ := hturn.exists_run
          exact hnext _ hc more hmore
      | resets hc hset hsome =>
          cases hsome.symm.trans hd
          exact hnext _ hc [.setDuration _] (Countdown.act_setDuration hset)
  | tick n =>
      rcases w.countdown?_tick n with ⟨hsame, -⟩ | ⟨c, v, hc, -, hsome, -⟩
      · exact ih d (hsame.symm.trans hd)
      · cases hsome.symm.trans hd
        exact hnext c hc [.tick] rfl
  | settle k services => exact ih d ((countdown?_settle hw k services).symm.trans hd)

/-- Every countdown that is shown is coherent. -/
theorem Reachable.coherent {w : World} (h : Reachable w) :
    ∀ c, w.session.view.countdown? = some c → c.Coherent := by
  intro c hc
  obtain ⟨total, label, history, rfl⟩ := h.exists_history c hc
  exact (Countdown.coherent_ofSeconds total label).run history

/-- Every countdown that is shown is up to date. -/
theorem Reachable.refresh_eq {w : World} (h : Reachable w) :
    ∀ c, w.session.view.countdown? = some c → c.refresh = c := by
  intro c hc
  obtain ⟨total, label, history, rfl⟩ := h.exists_history c hc
  exact Countdown.refresh_run rfl history

end World

end Composer
