import Composer.Proofs.Countdown.Label
import Composer.Proofs.Session.Countdowns
import Mathlib.Data.List.Induction
/-!
# Composer.Proofs.Session.Durations

**Where a countdown has its duration from.** A countdown that is shown keeps the duration that one
move of the run gave it (`Gives`): a typed text or the operation that sets it. What is typed is
between a second and 99 hours, but an operation sets any duration above zero
(`total_between_or_set`).
-/

namespace Composer

open Text

/-- What the host makes of a countdown keeps its duration. -/
theorem Countdown.Turn.total_eq {canWait : Bool} {op : Operation} {c d : Countdown}
    (h : c.Turn canWait op d) : d.total = c.total := by
  cases h <;> rfl

theorem Countdown.total_of_setDuration {c d : Countdown} {seconds : Nat}
    (h : c.setDuration? seconds = some d) : seconds ≠ 0 ∧ d.total = seconds := by
  unfold setDuration? at h
  split at h
  · cases h
  · next hok =>
    obtain rfl := Option.some.inj h
    exact ⟨fun hzero => hok (Or.inl hzero), rfl⟩

/-- A countdown that is detected was typed, and it is between a second and 99 hours. -/
theorem Countdown.of_detect {text : List Char} {c : Countdown} (h : Countdown.detect text = some c) :
    (1 ≤ c.total ∧ c.total ≤ Countdown.maxSeconds) ∧
      Countdown.typed? text = some (c.total, c.label) := by
  obtain ⟨⟨seconds, label⟩, htyped, rfl⟩ := Option.map_eq_some_iff.mp h
  exact ⟨(Countdown.typed?_eq_some htyped).1, htyped⟩

/-! ### Texts -/

/-- Only the timer detects a countdown. -/
theorem Detection.focused_eq_timer {t : Tool} {text : List Char} {ctx : Context} {c : Countdown}
    (h : Detection.focused t text ctx = some (.timer c)) :
    Countdown.detect (trim text) = some c := by
  obtain rfl : Tool.timer = t := (Detection.focused_eq_some h).1
  have hdetect : (Countdown.detect (trim text)).map Answer.timer = some (.timer c) := by
    unfold Detection.focused at h
    dsimp only at h
    split at h
    · cases h
    · exact h
  obtain ⟨d, hd, heq⟩ := Option.map_eq_some_iff.mp hdetect
  obtain rfl := Answer.timer.inj heq
  exact hd

/-- A countdown that a text asks for was typed into the timer. -/
theorem View.detect_of_countdown?_ofText {current : View} {text : List Char} {trigger : Char}
    {ctx : Context} {c : Countdown}
    (hc : (ofText current text trigger ctx).countdown? = some c) :
    Countdown.detect (trim text) = some c := by
  obtain ⟨m, hm, ha⟩ := exists_active_of_countdown? hc
  unfold ofText at hm
  split at hm
  · obtain rfl := Option.some.inj hm
    exact Detection.focused_eq_timer ha
  · split at hm
    · cases hm
    · split at hm
      · cases hm
      · split at hm
        · next a hfound =>
          obtain rfl := Option.some.inj hm
          obtain rfl := Option.some.inj ha
          -- A text that is not typed into the timer is not read as a duration.
          have hasked : Tool.timer ∈ Detection.order := (Detection.auto_eq_some hfound).1
          exact absurd hasked (by decide)
        · cases hm

namespace World

/-! ### Moves -/

/-- A move that gives the countdown its duration. -/
inductive Gives (seconds : Nat) : Move → Prop
  /-- The duration was typed, perhaps with a label. -/
  | typed {e : Surroundings} {text : String} {label : Option String} :
      1 ≤ seconds → seconds ≤ Countdown.maxSeconds →
      Countdown.typed? (trim text.toList) = some (seconds, label) →
      Gives seconds (.perform e (.analyze text))
  /-- It was set. -/
  | set {e : Surroundings} : seconds ≠ 0 → Gives seconds (.perform e (.setDuration seconds))

/-- The world shows a countdown of a duration. -/
def Shows (w : World) (seconds : Nat) : Prop :=
  ∃ c, w.session.view.countdown? = some c ∧ c.total = seconds

/-- An operation keeps the duration of the countdown, or gives it another one. -/
theorem shows_of_performs {w : World} {e : Surroundings} {op : Operation} {f : Effect}
    (h : w.session.Performs e op f) {d : Countdown} (hd : f.session.view.countdown? = some d) :
    w.Shows d.total ∨ Gives d.total (.perform e op) := by
  cases h with
  | stays => exact Or.inl ⟨d, hd, rfl⟩
  | selects => exact Or.inl ⟨d, hd, rfl⟩
  | replaces _ hv =>
      rcases hv with rfl | ⟨t, rfl⟩
      · cases hd
      · cases hd
  | ignores => exact Or.inl ⟨d, hd, rfl⟩
  | reads =>
      obtain ⟨⟨hpos, hle⟩, htyped⟩ :=
        Countdown.of_detect (View.detect_of_countdown?_ofText hd)
      rw [trim_trim] at htyped
      exact Or.inr (.typed hpos hle htyped)
  | asks _ _ hm _ htool =>
      have hnone := View.countdown?_withAnswer_markLoading hm htool
      cases hd.symm.trans hnone
  | fails _ _ hm _ htool =>
      have hnone := View.countdown?_withAnswer_withError hm htool "Lookup unavailable"
      cases hd.symm.trans hnone
  | @turns _ c c' hc hturn =>
      have hsome := View.countdown?_withCountdown hc c'
      obtain rfl := Option.some.inj (hd.symm.trans hsome)
      exact Or.inl ⟨c, hc, hturn.total_eq.symm⟩
  | stops hc =>
      cases hd.symm.trans hc
  | @sets m seconds hm _ _ hpos =>
      have hsome := View.countdown?_withAnswer hm (.timer (.ofSeconds seconds none))
      obtain rfl := Option.some.inj (hd.symm.trans hsome)
      exact Or.inr (.set hpos)
  | @resets c c' seconds hc hset =>
      have hsome := View.countdown?_withCountdown hc c'
      obtain rfl := Option.some.inj (hd.symm.trans hsome)
      obtain ⟨hpos, rfl⟩ := Countdown.total_of_setDuration hset
      exact Or.inr (.set hpos)

/-- Seconds and lookups keep the duration of the countdown that is shown. -/
theorem shows_step {w : World} (hw : Reachable w) {m : Move} {d : Countdown}
    (hd : (w.step m).session.view.countdown? = some d) : w.Shows d.total ∨ Gives d.total m := by
  cases m with
  | perform e op => exact shows_of_performs (w.session.performs e op) hd
  | tick n =>
      rcases w.countdown?_tick n with ⟨hsame, -⟩ | ⟨c, v, hc, -, hsome, -⟩
      · exact Or.inl ⟨d, hsame.symm.trans hd, rfl⟩
      · obtain rfl := Option.some.inj (hd.symm.trans hsome)
        exact Or.inl ⟨c, hc, (Countdown.total_tick c).symm⟩
  | settle k services =>
      exact Or.inl ⟨d, (countdown?_settle hw k services).symm.trans hd, rfl⟩

/-! ### Runs -/

/-- Some move of a run gave the countdown that is shown its duration, and none has changed it
since. -/
theorem exists_gives (moves : List Move) {d : Countdown}
    (hd : (initial.run moves).session.view.countdown? = some d) :
    ∃ before m after, moves = before ++ m :: after ∧ Gives d.total m ∧
      ∀ mid, mid <+: after → (initial.run (before ++ m :: mid)).Shows d.total := by
  induction moves using List.reverseRecOn generalizing d with
  | nil => cases hd
  | append_singleton moves m ih =>
      have hshows : (initial.run (moves ++ [m])).Shows d.total := ⟨d, hd, rfl⟩
      rw [run_append] at hd
      rcases shows_step (reachable_run moves) hd with ⟨c, hc, htotal⟩ | hgives
      · obtain ⟨before, m', after, rfl, hgives, hsince⟩ := ih hc
        rw [htotal] at hgives hsince
        refine ⟨before, m', after ++ [m], by simp, hgives, fun mid hmid => ?_⟩
        rcases List.prefix_concat_iff.mp hmid with rfl | hmid
        · rw [List.append_assoc, List.cons_append] at hshows
          exact hshows
        · exact hsince mid hmid
      · refine ⟨moves, m, [], rfl, hgives, fun mid hmid => ?_⟩
        obtain rfl := List.prefix_nil.mp hmid
        exact hshows

/-- Any duration above zero can be set while a timer is shown whose countdown, if it has one, was
not started. -/
theorem shows_setDuration {w : World} {m : Active} (hm : w.session.view.active = some m)
    (htool : m.tool = .timer) (hidle : ∀ c, w.session.view.countdown? = some c → c.phase = .idle)
    (e : Surroundings) {seconds : Nat} (hpos : seconds ≠ 0) :
    (w.step (.perform e (.setDuration seconds))).Shows seconds := by
  have hcountdown : w.session.view.countdown? = m.countdown? := by simp [View.countdown?, hm]
  have hok : ¬ (m.tool ≠ .timer ∨ seconds = 0) := by simp [htool, hpos]
  have hstep : (w.step (.perform e (.setDuration seconds))).session =
      (w.session.setDuration seconds).session := rfl
  rw [Shows, hstep, Session.setDuration, hm]
  dsimp only
  rw [if_neg hok]
  cases hc : m.countdown? with
  | none => exact ⟨_, View.countdown?_withAnswer hm _, rfl⟩
  | some c =>
      have hshown : w.session.view.countdown? = some c := hcountdown.trans hc
      have hset : c.setDuration? seconds =
          some (Countdown.refresh { c with total := seconds, remaining := seconds }) :=
        if_neg (by simp [hpos, hidle c hshown])
      simp only [hset]
      exact ⟨_, View.countdown?_withCountdown hshown _, rfl⟩

/-- **Durations in a session.** A countdown that a run shows has a second at least. It has 99 hours
at most, unless an operation of the run set its duration, and it has had this duration ever since.
Only there the limit can be passed: where the run shows a timer that has no countdown, or one that
was not started, any duration above zero can be set next. -/
theorem total_between_or_set (moves : List Move) :
    (∀ c, (initial.run moves).session.view.countdown? = some c →
      1 ≤ c.total ∧ (c.total ≤ Countdown.maxSeconds ∨
        ∃ before e after, moves = before ++ .perform e (.setDuration c.total) :: after ∧
          ∀ mid, mid <+: after →
            (initial.run (before ++ .perform e (.setDuration c.total) :: mid)).Shows c.total)) ∧
      ∀ m e seconds, (initial.run moves).session.view.active = some m → m.tool = .timer →
        (∀ c, (initial.run moves).session.view.countdown? = some c → c.phase = .idle) →
          seconds ≠ 0 →
            (initial.run (moves ++ [.perform e (.setDuration seconds)])).Shows seconds := by
  constructor
  · intro c hc
    obtain ⟨before, m, after, rfl, hgives, hsince⟩ := exists_gives moves hc
    cases hgives with
    | typed hpos hle => exact ⟨hpos, Or.inl hle⟩
    | set hpos => exact ⟨Nat.pos_of_ne_zero hpos, Or.inr ⟨before, _, after, rfl, hsince⟩⟩
  · intro m e seconds hm htool hidle hpos
    rw [run_append]
    exact shows_setDuration hm htool hidle e hpos

/-- The longest duration is typed, and a second more than 99 hours is set where it cannot be
typed. -/
theorem total_between_or_set_long :
    let e : Surroundings := ⟨.default, 0, 0, true, true⟩
    (∃ c, (initial.run [.perform e (.focus "timer"),
        .perform e (.analyze "99:00:00")]).session.view.countdown? = some c ∧
      1 ≤ c.total ∧ c.total = Countdown.maxSeconds) ∧
      (initial.run [.perform e (.focus "timer"),
        .perform e (.analyze "99:00:01")]).session.view.countdown? = none ∧
      ∃ c, (initial.run [.perform e (.focus "timer"),
        .perform e (.setDuration 356401)]).session.view.countdown? = some c ∧
      Countdown.maxSeconds < c.total := by
  intro e
  have htyped : (initial.run [.perform e (.focus "timer"),
      .perform e (.analyze "99:00:00")]).session.view.countdown?.map (·.total) =
        some Countdown.maxSeconds := by decide +kernel
  obtain ⟨c, hc, htotal⟩ := Option.map_eq_some_iff.mp htyped
  obtain ⟨hbounds, -⟩ := total_between_or_set [.perform e (.focus "timer"),
    .perform e (.analyze "99:00:00")]
  obtain ⟨-, hset⟩ := total_between_or_set [.perform e (.focus "timer")]
  obtain ⟨d, hd, hlong⟩ := hset ⟨.timer, true, none⟩ e 356401 (by decide +kernel) rfl
    (fun d hd => by cases hd) (by decide)
  exact ⟨⟨c, hc, (hbounds c hc).1, htotal⟩, by decide +kernel, d, hd, by rw [hlong]; decide⟩

end World

end Composer
