import Composer.Session.Operation
import Composer.Proofs.Answer
import Composer.Proofs.Session.View
/-!
# Composer.Proofs.Session.Performing

**Everything that an operation can do to a session.** `Performs` lists it case by case, with the
conditions that were checked, and `performs` says that there is nothing else. What an operation
keeps is then shown by going through these cases, never by opening the operations again.

Operations of the countdown are one case with a relation of their own (`Countdown.Turn`): they
differ in what they make of the countdown, and they all treat the interval in the same way.
-/

namespace Composer

/-! ### Countdowns -/

/-- What the host can make of a countdown, depending on whether intervals can be started. -/
inductive Countdown.Turn (canWait : Bool) : Operation → Countdown → Countdown → Prop
  /-- An idle countdown is put into motion. -/
  | start {c : Countdown} : canWait = true → c.phase = .idle →
      Turn canWait .startTimer c { c with isRunning := true }
  /-- It was put into motion, but there is no interval for it. -/
  | startUndone {c : Countdown} : canWait = false → c.phase = .idle →
      Turn canWait .startTimer c (Countdown.reset { c with isRunning := true })
  /-- A running countdown pauses. -/
  | pause {c : Countdown} : c.phase = .running →
      Turn canWait .toggleTimer c { c with isRunning := false, isPaused := true }
  /-- A paused countdown goes on. -/
  | resume {c : Countdown} : canWait = true → c.phase = .paused →
      Turn canWait .toggleTimer c { c with isRunning := true, isPaused := false }
  /-- It would go on, but there is no interval for it. -/
  | resumeUndone {c : Countdown} : canWait = false → c.phase = .paused →
      Turn canWait .toggleTimer c { c with isRunning := false, isPaused := true }
  /-- A countdown goes back to its beginning. -/
  | reset {c : Countdown} : Turn canWait .resetTimer c c.reset

namespace Session

/-! ### Operations that replace what is shown -/

/-- Whether an operation opens a tool or dismisses what is shown. A command that is run opens its
tool; for an action of the host the palette is dismissed. -/
def replaces (s : Session) : Operation → Bool
  | .focus name => (Tool.typed? name).isSome
  | .execute => s.view.selectedCommand?.isSome
  | .dismiss => true
  | _ => false

/-- Whether an operation is a new text, opens a tool or dismisses what is shown. -/
def supersedes (s : Session) : Operation → Bool
  | .analyze _ => true
  | op => s.replaces op

/-! ### The cases -/

/-- The session that reads a text, before it starts a lookup. -/
def reading (s : Session) (e : Surroundings) (text : String) : Session where
  view := s.view.ofText (Text.trim text.toList) e.settings.trigger e.context
  tickets := s.tickets.invalidateAll
  epoch := s.epoch + 1
  interval := none

theorem fits_reading (s : Session) (e : Surroundings) (text : String) :
    (s.reading e text).view.Fits :=
  View.fits_ofText _ _ _ _

/-- The session with another countdown and a new epoch, in which there is an interval exactly if
the countdown runs. -/
def turnTo (s : Session) (c : Countdown) : Session where
  view := s.view.withCountdown c
  tickets := s.tickets
  epoch := s.epoch + 1
  interval := if c.isRunning then some (s.epoch + 1) else none

/-- The session whose answer was marked because a lookup on a channel completes it. -/
def begun (s : Session) (c : Channel) (a : Answer) : Session :=
  { s with view := s.view.withAnswer a.markLoading, tickets := s.tickets.begin c }

/-- Everything that an operation can do to a session. -/
inductive Performs (s : Session) (e : Surroundings) : Operation → Effect → Prop
  /-- The session stays as it is; a text may have been copied. -/
  | stays {op : Operation} {events : List Event} {copied : Option String} :
      s.supersedes op = false → op ≠ .resetTimer → events = copied.toList.map .copied →
      Performs s e op { session := s, events := events, copied := copied }
  /-- Another command is selected. -/
  | selects {op : Operation} {position : Nat} : s.supersedes op = false → op ≠ .resetTimer →
      s.view.mode = .commands → position < s.view.commands.length →
      Performs s e op (changed { s with view := { s.view with selected := position } })
  /-- A tool is opened without an answer, or nothing is shown any more. -/
  | replaces {op : Operation} {v : View} {more : List Event} : s.replaces op = true →
      (v = .hidden ∨ ∃ t, v = .ofActive ⟨t, true, none⟩) →
      (∀ ev ∈ more, ∃ command action, ev = .hostAction command action) →
      Performs s e op { session := s.replaceView v, events := .viewChanged v :: more }
  /-- A text does not count while a countdown does. -/
  | ignores {text : String} : s.view.isCounting = true → Performs s e (.analyze text) s.unchanged
  /-- A text is read, and its answer needs no lookup. -/
  | reads {text : String} : s.view.isCounting = false →
      (∀ a, (s.reading e text).view.answer? = some a → a.needsLookup = false) →
      Performs s e (.analyze text) (s.reading e text).changed
  /-- A text is read, and its answer waits for a lookup. -/
  | asks {text : String} {m : Active} {c : Channel} {a : Answer} : s.view.isCounting = false →
      e.canWait = true → (s.reading e text).view.active = some m → m.answer = some a →
      a.tool = c.tool → a.needsLookup = true →
      Performs s e (.analyze text)
        { ((s.reading e text).begun c a).changed with
          lookup := some ⟨((s.reading e text).begun c a).tickets.ticket c, a.markLoading⟩ }
  /-- A text is read, and the lookup for its answer fails because there can be none. -/
  | fails {text : String} {m : Active} {c : Channel} {a : Answer} :
      s.view.isCounting = false → e.canWait = false →
      (s.reading e text).view.active = some m → m.answer = some a →
      a.tool = c.tool → a.needsLookup = true →
      Performs s e (.analyze text)
        { session := { (s.reading e text).begun c a with
            view := (s.reading e text).view.withAnswer
              (a.markLoading.withError "Lookup unavailable") }
          events := [
            .viewChanged ((s.reading e text).view.withAnswer a.markLoading),
            .viewChanged ((s.reading e text).view.withAnswer
              (a.markLoading.withError "Lookup unavailable"))] }
  /-- The countdown turns into another one. -/
  | turns {op : Operation} {c d : Countdown} : s.view.countdown? = some c →
      c.Turn e.canWait op d → Performs s e op (s.turnTo d).changed
  /-- Where no countdown is shown, a reset makes the interval stale without a word. -/
  | stops : s.view.countdown? = none → Performs s e .resetTimer s.stopInterval.unchanged
  /-- The timer gets a countdown. -/
  | sets {m : Active} {seconds : Nat} : s.view.active = some m → m.tool = .timer →
      s.view.countdown? = none → seconds ≠ 0 →
      Performs s e (.setDuration seconds)
        (changed { s with view := s.view.withAnswer (.timer (.ofSeconds seconds none)) })
  /-- The countdown gets another duration. -/
  | resets {c d : Countdown} {seconds : Nat} : s.view.countdown? = some c →
      c.setDuration? seconds = some d →
      Performs s e (.setDuration seconds) (changed { s with view := s.view.withCountdown d })

/-! ### Lookups -/

/-- What the lookup of a current ticket brings is taken if it belongs to the tool of its channel
and that tool is shown. -/
theorem accept?_of_isCurrent {t : Tickets} {v : View} {k : Ticket} {a : Answer} {m : Active}
    (hk : t.isCurrent k = true) (hm : v.active = some m) (htool : m.tool = k.channel.tool)
    (ha : a.tool = m.tool) : t.accept? v k a = some (v.withAnswer a) := by
  simp [Tickets.accept?, hk, hm, htool, ha]

/-- A lookup is started exactly for an answer that needs one. -/
theorem beginLookup_cases {s : Session} (hfits : s.view.Fits) :
    (s.beginLookup = (s, none) ∧ ∀ a, s.view.answer? = some a → a.needsLookup = false) ∨
      ∃ m c a, s.view.active = some m ∧ m.answer = some a ∧ a.tool = c.tool ∧
        a.needsLookup = true ∧
        s.beginLookup = (s.begun c a, some ⟨(s.begun c a).tickets.ticket c, a.markLoading⟩) := by
  cases hanswer : s.view.answer? with
  | none => exact Or.inl ⟨by simp [beginLookup, hanswer], fun a ha => by cases ha⟩
  | some a =>
      obtain ⟨m, hm, ha⟩ := View.answer?_eq_some_iff.mp hanswer
      have htool : a.tool = m.tool := hfits m a hm ha
      cases hneeds : a.needsLookup with
      | false =>
          refine Or.inl ⟨?_, fun b hb => by cases hb; exact hneeds⟩
          cases hc : m.tool.channel? <;> simp [beginLookup, hanswer, hm, hc, hneeds]
      | true =>
          obtain ⟨c, hc⟩ := Answer.exists_channel_of_needsLookup hneeds
          have hchannel : m.tool.channel? = some c :=
            Tool.channel?_eq_some_iff.mpr (htool.symm.trans hc)
          refine Or.inr ⟨m, c, a, hm, ha, hc, hneeds, ?_⟩
          simp [beginLookup, hanswer, hm, hchannel, hneeds, begun]

/-! ### There is nothing else -/

theorem performs_analyze (s : Session) (e : Surroundings) (text : String) :
    s.Performs e (.analyze text) (s.analyze e text) := by
  unfold analyze
  cases hcounting : s.view.isCounting with
  | true => exact .ignores hcounting
  | false =>
      have hfits : (s.reading e text).view.Fits := s.fits_reading e text
      show s.Performs e (.analyze text) ((s.reading e text).announceLookup e)
      unfold announceLookup
      rcases beginLookup_cases hfits with ⟨hbegin, hneeds⟩ | ⟨m, c, a, hm, ha, hc, hneeds, hbegin⟩
      · rw [hbegin]
        exact .reads hcounting hneeds
      · rw [hbegin]
        cases hwait : e.canWait with
        | true => exact .asks hcounting hwait hm ha hc hneeds
        | false =>
            -- The lookup has the ticket that was just counted, so its failure is accepted.
            have haccept : ((s.reading e text).begun c a).tickets.accept?
                ((s.reading e text).begun c a).view
                (((s.reading e text).begun c a).tickets.ticket c)
                (a.markLoading.withError "Lookup unavailable") =
                some ((s.reading e text).view.withAnswer
                  (a.markLoading.withError "Lookup unavailable")) := by
              have htool : a.tool = m.tool := hfits m a hm ha
              rw [accept?_of_isCurrent (m := { m with answer := some a.markLoading })
                (Tickets.isCurrent_ticket _ _) (by simp [begun, hm]) (htool.symm.trans hc)
                (by simp [htool])]
              simp [begun]
            dsimp only [settle]
            rw [haccept]
            exact .fails hcounting hwait hm ha hc hneeds

theorem performs_moveSelection {s : Session} {e : Surroundings} {op : Operation}
    (hop : s.supersedes op = false) (hreset : op ≠ .resetTimer) (distance : Int) :
    s.Performs e op (s.moveSelection distance) := by
  unfold moveSelection
  split
  · rename_i h
    have hpos : 0 < s.view.commands.length := List.length_pos_iff.mpr h.2
    have hlt := Int.emod_lt_of_pos
      (((min s.view.selected (s.view.commands.length - 1) : Nat) : Int) + distance)
      (Int.natCast_pos.mpr hpos)
    simp only [View.moveSelection, Nat.ne_of_gt hpos, if_false]
    exact .selects hop hreset h.1 (by omega)
  · exact .stays hop hreset (by simp)

theorem performs_select (s : Session) (e : Surroundings) (position : Nat) :
    s.Performs e (.select position) (s.select position) := by
  unfold select
  split
  · rename_i h
    exact .selects rfl nofun h.1 h.2
  · exact .stays rfl nofun (by simp)

theorem performs_focus (s : Session) (e : Surroundings) (name : String) :
    s.Performs e (.focus name) (s.focus name) := by
  unfold focus
  cases hname : Tool.typed? name with
  | none => exact .stays (by simp [supersedes, Session.replaces, hname]) nofun (by simp)
  | some t =>
      exact .replaces (by simp [Session.replaces, hname]) (Or.inr ⟨t, rfl⟩) (by simp)

theorem performs_execute (s : Session) (e : Surroundings) :
    s.Performs e .execute s.execute := by
  unfold execute
  cases hc : s.view.selectedCommand? with
  | none => exact .stays (by simp [supersedes, Session.replaces, hc]) nofun (by simp)
  | some c =>
      have hreplaces : s.replaces .execute = true := by simp [Session.replaces, hc]
      dsimp only
      split
      · rename_i t _
        exact .replaces hreplaces (Or.inr ⟨t, rfl⟩) (by simp)
      · exact .replaces hreplaces (Or.inl rfl) (by simp)

/-- A countdown that was put into motion keeps moving where there are intervals. -/
theorem startInterval_true (s : Session) {d : Countdown} (hd : d.isRunning = true)
    (undo : Countdown) :
    startInterval { s with view := s.view.withCountdown d } true undo = s.turnTo d := by
  simp [startInterval, turnTo, hd]

/-- Where there are no intervals, the countdown that is shown instead stands still. -/
theorem startInterval_false {s : Session} {c : Countdown} (hc : s.view.countdown? = some c)
    (d : Countdown) {undo : Countdown} (hundo : undo.isRunning = false) :
    startInterval { s with view := s.view.withCountdown d } false undo = s.turnTo undo := by
  simp [startInterval, turnTo, hundo, View.withCountdown_withCountdown hc]

theorem performs_startTimer (s : Session) (e : Surroundings) :
    s.Performs e .startTimer (s.startTimer e) := by
  unfold startTimer
  cases hc : s.view.countdown? with
  | none => exact .stays rfl nofun (by simp)
  | some c =>
      by_cases hidle : c.phase = .idle
      · simp only [Option.bind_some, Countdown.start?, hidle, if_true]
        cases hwait : e.canWait with
        | true =>
            rw [startInterval_true s rfl]
            exact .turns hc (hwait ▸ .start rfl hidle)
        | false =>
            rw [startInterval_false hc _ rfl]
            exact .turns hc (hwait ▸ .startUndone rfl hidle)
      · simp only [Option.bind_some, Countdown.start?, hidle, if_false]
        exact .stays rfl nofun (by simp)

theorem performs_toggleTimer (s : Session) (e : Surroundings) :
    s.Performs e .toggleTimer (s.toggleTimer e) := by
  unfold toggleTimer
  cases hc : s.view.countdown? with
  | none => exact .stays rfl nofun (by simp)
  | some c =>
      cases hphase : c.phase with
      | idle => simpa [Countdown.toggle?, hphase] using .stays rfl nofun (by simp)
      | complete => simpa [Countdown.toggle?, hphase] using .stays rfl nofun (by simp)
      | running =>
          simp only [Countdown.toggle?, hphase, if_true]
          exact .turns hc (.pause hphase)
      | paused =>
          have hcomplete := (Countdown.phase_eq_paused_iff.mp hphase).1
          -- Where no interval can be started, the countdown is toggled once more.
          have hagain :
              Countdown.phase { c with isRunning := true, isPaused := false } = .running :=
            Countdown.phase_eq_running_iff.mpr ⟨hcomplete, rfl⟩
          simp only [Countdown.toggle?, hphase, hagain, Option.getD_some, reduceCtorEq, if_false]
          cases hwait : e.canWait with
          | true =>
              rw [startInterval_true s rfl]
              exact .turns hc (hwait ▸ .resume rfl hphase)
          | false =>
              rw [startInterval_false hc _ rfl]
              exact .turns hc (hwait ▸ .resumeUndone rfl hphase)

theorem performs_resetTimer (s : Session) (e : Surroundings) :
    s.Performs e .resetTimer s.resetTimer := by
  unfold resetTimer
  cases hc : s.view.countdown? with
  | none => exact .stops hc
  | some c => exact .turns hc .reset

theorem performs_setDuration (s : Session) (e : Surroundings) (seconds : Nat) :
    s.Performs e (.setDuration seconds) (s.setDuration seconds) := by
  unfold setDuration
  cases hm : s.view.active with
  | none => exact .stays rfl nofun (by simp)
  | some m =>
      have hcountdown : s.view.countdown? = m.countdown? := by simp [View.countdown?, hm]
      dsimp only
      split
      · exact .stays rfl nofun (by simp)
      · rename_i hok
        simp only [not_or, Decidable.not_not] at hok
        cases hc : m.countdown? with
        | none => exact .sets hm hok.1 (hcountdown.trans hc) hok.2
        | some c =>
            dsimp only
            cases hd : c.setDuration? seconds with
            | none => exact .stays rfl nofun (by simp)
            | some d => exact .resets (hcountdown.trans hc) hd

theorem performs_copy {s : Session} {op : Operation} (hop : s.supersedes op = false)
    (hreset : op ≠ .resetTimer) (e : Surroundings) (text : String) :
    s.Performs e op (s.copy e text) := by
  unfold copy
  split
  · exact .stays hop hreset (by simp)
  · exact .stays hop hreset (by simp)

/-- **Nothing else can happen.** What an operation leads to is one of the cases. -/
theorem performs (s : Session) (e : Surroundings) (op : Operation) :
    s.Performs e op (s.perform e op) := by
  cases op with
  | analyze text => exact performs_analyze s e text
  | selectUp => exact performs_moveSelection rfl (by simp) (-1)
  | selectDown => exact performs_moveSelection rfl (by simp) 1
  | select position => exact performs_select s e position
  | execute => exact performs_execute s e
  | focus name => exact performs_focus s e name
  | dismiss => exact .replaces rfl (Or.inl rfl) (by simp)
  | startTimer => exact performs_startTimer s e
  | toggleTimer => exact performs_toggleTimer s e
  | resetTimer => exact performs_resetTimer s e
  | setDuration seconds => exact performs_setDuration s e seconds
  | copy text => exact performs_copy rfl (by simp) e text
  | copyCurrent =>
      dsimp only [perform]
      split
      · exact performs_copy rfl (by simp) e _
      · exact .stays rfl nofun (by simp)

/-! ### Ticks and settlements -/

/-- A tick of an epoch that has passed is not counted. -/
theorem tick_of_ne {s : Session} {n : Nat} (h : s.epoch ≠ n) : s.tick n = s.unchanged := by
  simp [tick, h]

/-- A tick without a countdown to count for gives its interval up. -/
theorem tick_of_not_isRunning {s : Session} (h : s.view.isRunning = false) :
    s.tick s.epoch = unchanged { s with interval := none } := by
  have hnone : s.view.countdown?.filter (·.isRunning) = none := by
    rw [Option.filter_eq_none_iff]
    intro c hc hr
    rw [View.isRunning_of_countdown? hc, hr] at h
    cases h
  simp [tick, hnone]

/-- A tick of the present epoch is counted while the countdown runs. -/
theorem tick_of_isRunning {s : Session} {c : Countdown} (hc : s.view.countdown? = some c)
    (hr : c.isRunning = true) :
    s.tick s.epoch =
      { session := { s with
          view := s.view.withCountdown c.tick
          interval := if c.completes then none else s.interval }
        events := [.ticked c.tick] ++ (if c.completes then [.completed c.label c.total] else []) ++
          [.viewChanged (s.view.withCountdown c.tick)] } := by
  have hsome : s.view.countdown?.filter (·.isRunning) = some c :=
    Option.filter_eq_some_iff.mpr ⟨hc, hr⟩
  simp [tick, hsome]

/-- A tick counts a second for the countdown that runs, or it is lost on the view and on the
host. -/
theorem tick_cases (s : Session) (n : Nat) :
    ((s.tick n).session.view = s.view ∧ (s.tick n).events = []) ∨
      ∃ c, s.view.countdown? = some c ∧ c.isRunning = true ∧
        (s.tick n).session.view = s.view.withCountdown c.tick ∧
        (s.tick n).events =
          [.ticked c.tick] ++ (if c.completes then [.completed c.label c.total] else []) ++
            [.viewChanged (s.view.withCountdown c.tick)] := by
  by_cases hn : s.epoch = n
  · subst hn
    cases hr : s.view.isRunning with
    | false =>
        rw [tick_of_not_isRunning hr]
        exact Or.inl ⟨rfl, rfl⟩
    | true =>
        obtain ⟨c, hc, hrunning⟩ := View.isRunning_eq_true_iff.mp hr
        rw [tick_of_isRunning hc hrunning]
        exact Or.inr ⟨c, hc, hrunning, rfl, rfl⟩
  · rw [tick_of_ne hn]
    exact Or.inl ⟨rfl, rfl⟩

/-- A tick starts no lookup and counts no channel on. -/
theorem tickets_tick (s : Session) (n : Nat) :
    (s.tick n).session.tickets = s.tickets ∧ (s.tick n).lookup = none := by
  unfold tick
  split
  · exact ⟨rfl, rfl⟩
  · split <;> exact ⟨rfl, rfl⟩

/-- What a lookup brings starts no other lookup and counts no channel on. -/
theorem tickets_settle (s : Session) (k : Ticket) (a : Answer) :
    (s.settle k a).session.tickets = s.tickets ∧ (s.settle k a).lookup = none := by
  unfold settle
  split <;> exact ⟨rfl, rfl⟩

/-- What a lookup brings is taken as the answer of the tool of its channel, or not at all. -/
theorem settle_cases (s : Session) (k : Ticket) (a : Answer) :
    s.settle k a = s.unchanged ∨
      s.tickets.isCurrent k = true ∧ (∃ m, s.view.active = some m ∧ a.tool = m.tool) ∧
        a.tool = k.channel.tool ∧
        s.settle k a = changed { s with view := s.view.withAnswer a } := by
  cases hk : s.tickets.isCurrent k with
  | false => exact Or.inl (by simp [settle, Tickets.accept?, hk])
  | true =>
      cases hm : s.view.active with
      | none => exact Or.inl (by simp [settle, Tickets.accept?, hk, hm])
      | some m =>
          by_cases htool : m.tool = k.channel.tool ∧ a.tool = m.tool
          · have haccept := accept?_of_isCurrent hk hm htool.1 htool.2
            exact Or.inr ⟨rfl, ⟨m, rfl, htool.2⟩, htool.2.trans htool.1, by simp [settle, haccept]⟩
          · exact Or.inl (by simp [settle, Tickets.accept?, hk, hm, htool])

end Session

end Composer
