import Composer.Session.View
import Composer.Proofs.Answer
import Composer.Proofs.Detection
/-!
# Composer.Proofs.Session.View

**How views change.** Only a few things ever happen to a view: its answer is exchanged, its
countdown is exchanged, or a text replaces all of it. Here is what each of them leaves behind, and
that the answer which is shown always belongs to the tool that is shown (`View.Fits`).
-/

namespace Composer.View

/-! ### The answer that is shown -/

theorem answer?_eq_some_iff {v : View} {a : Answer} :
    v.answer? = some a ↔ ∃ m, v.active = some m ∧ m.answer = some a := by
  simp [answer?, Option.bind_eq_some_iff]

theorem countdown?_eq_some_iff {v : View} {c : Countdown} :
    v.countdown? = some c ↔ v.answer? = some (.timer c) := by
  have htimer : ∀ a : Answer, a.countdown? = some c ↔ a = .timer c := by
    intro a
    cases a <;> simp [Answer.countdown?]
  simp [countdown?, answer?, Active.countdown?, Option.bind_eq_some_iff, htimer]

theorem countdown?_of_answer? {v : View} {a : Answer} (h : v.answer? = some a) :
    v.countdown? = a.countdown? := by
  obtain ⟨m, hm, ha⟩ := answer?_eq_some_iff.mp h
  simp [countdown?, Active.countdown?, hm, ha]

/-- Whether the answer that is shown waits for a lookup. -/
def isLoading (v : View) : Bool :=
  v.answer?.any Answer.isLoading

/-- Whether a countdown is shown for which seconds count. -/
def isRunning (v : View) : Bool :=
  v.countdown?.any (·.isRunning)

theorem isLoading_of_answer? {v : View} {a : Answer} (h : v.answer? = some a) :
    v.isLoading = a.isLoading := by
  simp [isLoading, h]

theorem isRunning_of_countdown? {v : View} {c : Countdown} (h : v.countdown? = some c) :
    v.isRunning = c.isRunning := by
  simp [isRunning, h]

theorem isRunning_eq_true_iff {v : View} :
    v.isRunning = true ↔ ∃ c, v.countdown? = some c ∧ c.isRunning = true := by
  simp [isRunning, Option.any_eq_true]

/-- A countdown needs no lookup. -/
theorem isLoading_of_countdown? {v : View} {c : Countdown} (h : v.countdown? = some c) :
    v.isLoading = false := by
  rw [isLoading_of_answer? (countdown?_eq_some_iff.mp h)]
  rfl

/-- While a focused countdown counts, its seconds count. -/
theorem isRunning_of_isCounting {v : View} (h : v.isCounting = true) : v.isRunning = true := by
  simp only [isCounting, Bool.and_eq_true] at h
  exact h.2

/-! ### Another answer, another countdown -/

@[simp] theorem active_withAnswer (a : Answer) (v : View) :
    (v.withAnswer a).active = v.active.map fun m => { m with answer := some a } := rfl

theorem answer?_withAnswer {v : View} {m : Active} (hm : v.active = some m) (a : Answer) :
    (v.withAnswer a).answer? = some a := by
  simp [answer?, hm]

theorem isLoading_withAnswer {v : View} {m : Active} (hm : v.active = some m) (a : Answer) :
    (v.withAnswer a).isLoading = a.isLoading :=
  isLoading_of_answer? (answer?_withAnswer hm a)

/-- The last of several answers is the one that is shown. -/
@[simp] theorem withAnswer_withAnswer (a b : Answer) (v : View) :
    (v.withAnswer a).withAnswer b = v.withAnswer b := by
  simp [withAnswer, Option.map_map, Function.comp_def]

/-- A countdown is exchanged as an answer is. -/
theorem withCountdown_eq {v : View} {c : Countdown} (h : v.countdown? = some c)
    (d : Countdown) : v.withCountdown d = v.withAnswer (.timer d) := by
  simp [withCountdown, h]

theorem countdown?_withAnswer {v : View} {m : Active} (hm : v.active = some m) (a : Answer) :
    (v.withAnswer a).countdown? = a.countdown? :=
  countdown?_of_answer? (answer?_withAnswer hm a)

/-- An answer of a tool with lookups shows no countdown. -/
theorem countdown?_withAnswer_of_channel {v : View} {m : Active} (hm : v.active = some m)
    {a : Answer} {c : Channel} (ha : a.tool = c.tool) : (v.withAnswer a).countdown? = none := by
  rw [countdown?_withAnswer hm, Answer.countdown?_eq_none (ha ▸ Channel.tool_ne_timer c)]

/-- A text that is asked about shows no countdown, and neither does one that failed. -/
theorem countdown?_withAnswer_markLoading {v : View} {m : Active} (hm : v.active = some m)
    {a : Answer} {c : Channel} (ha : a.tool = c.tool) :
    (v.withAnswer a.markLoading).countdown? = none :=
  countdown?_withAnswer_of_channel hm ((Answer.tool_markLoading a).trans ha)

theorem countdown?_withAnswer_withError {v : View} {m : Active} (hm : v.active = some m)
    {a : Answer} {c : Channel} (ha : a.tool = c.tool) (message : String) :
    (v.withAnswer (a.markLoading.withError message)).countdown? = none := by
  refine countdown?_withAnswer_of_channel (c := c) hm ?_
  rw [Answer.tool_withError, Answer.tool_markLoading, ha]

theorem isRunning_withAnswer {v : View} {m : Active} (hm : v.active = some m) (a : Answer) :
    (v.withAnswer a).isRunning = a.countdown?.any (·.isRunning) := by
  rw [isRunning, countdown?_withAnswer hm]

theorem isRunning_of_countdown?_eq_none {v : View} (h : v.countdown? = none) :
    v.isRunning = false := by
  rw [isRunning, h]
  rfl

theorem exists_active_of_countdown? {v : View} {c : Countdown} (h : v.countdown? = some c) :
    ∃ m, v.active = some m ∧ m.answer = some (.timer c) :=
  answer?_eq_some_iff.mp (countdown?_eq_some_iff.mp h)

theorem countdown?_withCountdown {v : View} {c : Countdown} (h : v.countdown? = some c)
    (d : Countdown) : (v.withCountdown d).countdown? = some d := by
  obtain ⟨m, hm, -⟩ := exists_active_of_countdown? h
  rw [withCountdown_eq h, countdown?_withAnswer hm]
  rfl

theorem isRunning_withCountdown {v : View} {c : Countdown} (h : v.countdown? = some c)
    (d : Countdown) : (v.withCountdown d).isRunning = d.isRunning :=
  isRunning_of_countdown? (countdown?_withCountdown h d)

/-- The last of several countdowns is the one that is shown. -/
theorem withCountdown_withCountdown {v : View} {c : Countdown} (h : v.countdown? = some c)
    (d d' : Countdown) : (v.withCountdown d).withCountdown d' = v.withCountdown d' := by
  rw [withCountdown_eq (countdown?_withCountdown h d), withCountdown_eq h, withCountdown_eq h,
    withAnswer_withAnswer]

/-! ### The tool of the answer -/

/-- The answer that is shown belongs to the tool that is shown. -/
def Fits (v : View) : Prop :=
  ∀ m a, v.active = some m → m.answer = some a → a.tool = m.tool

theorem fits_of_answer?_eq_none {v : View} (h : v.answer? = none) : v.Fits := by
  intro m a hm ha
  simp [answer?, hm, ha] at h

/-- An answer that is exchanged has to belong to the tool. -/
theorem fits_withAnswer {v : View} {m : Active} {a : Answer} (hm : v.active = some m)
    (ha : a.tool = m.tool) : (v.withAnswer a).Fits := by
  intro m' a' hm' ha'
  rw [active_withAnswer, hm, Option.map_some, Option.some.injEq] at hm'
  subst hm'
  cases ha'
  exact ha

theorem Fits.withCountdown {v : View} {c : Countdown} (h : v.Fits) (hc : v.countdown? = some c)
    (d : Countdown) : (v.withCountdown d).Fits := by
  obtain ⟨m, hm, ha⟩ := exists_active_of_countdown? hc
  rw [withCountdown_eq hc]
  exact fits_withAnswer hm (h m (.timer c) hm ha)

/-- A countdown is shown by the timer. -/
theorem Fits.tool_of_countdown? {v : View} {m : Active} {c : Countdown} (h : v.Fits)
    (hm : v.active = some m) (hc : v.countdown? = some c) : m.tool = .timer := by
  obtain ⟨m', hm', ha⟩ := exists_active_of_countdown? hc
  rw [hm] at hm'
  cases hm'
  exact (h m (.timer c) hm ha).symm

/-- The timer waits for no lookup. -/
theorem Fits.isLoading_of_timer {v : View} {m : Active} (h : v.Fits) (hm : v.active = some m)
    (htool : m.tool = .timer) : v.isLoading = false := by
  cases ha : m.answer with
  | none => simp [isLoading, answer?, hm, ha]
  | some a =>
      rw [isLoading_of_answer? (answer?_eq_some_iff.mpr ⟨m, hm, ha⟩)]
      exact Answer.isLoading_of_timer ((h m a hm ha).trans htool)

/-- Only the timer shows a countdown. -/
theorem Fits.countdown?_eq_none {v : View} (h : v.Fits) {m : Active} (hm : v.active = some m)
    (htool : m.tool ≠ .timer) : v.countdown? = none := by
  cases hc : v.countdown? with
  | none => rfl
  | some c => exact absurd (h.tool_of_countdown? hm hc) htool

/-! ### Texts -/

/-- A text is answered by a fresh answer of the tool that is shown then. -/
theorem ofText_answer {current : View} {text : List Char} {trigger : Char} {ctx : Context}
    {m : Active} {a : Answer} (hm : (ofText current text trigger ctx).active = some m)
    (ha : m.answer = some a) : a.tool = m.tool ∧ a.Fresh := by
  unfold ofText at hm
  -- A text goes to the tool that is open, to nothing, to the palette or to detection.
  split at hm
  · simp only [ofActive, Option.some.injEq] at hm
    subst hm
    exact Detection.focused_eq_some ha
  · split at hm
    · cases hm
    · split at hm
      · cases hm
      · split at hm
        · rename_i found hfound
          simp only [ofActive, Option.some.injEq] at hm
          subst hm
          cases ha
          exact ⟨rfl, (Detection.auto_eq_some hfound).2⟩
        · cases hm

theorem fits_ofText (current : View) (text : List Char) (trigger : Char) (ctx : Context) :
    (ofText current text trigger ctx).Fits :=
  fun _ _ hm ha => (ofText_answer hm ha).1

/-- A text starts no lookup by itself. -/
theorem isLoading_ofText (current : View) (text : List Char) (trigger : Char) (ctx : Context) :
    (ofText current text trigger ctx).isLoading = false := by
  cases ha : (ofText current text trigger ctx).answer? with
  | none => simp [isLoading, ha]
  | some a =>
      obtain ⟨m, hm, hma⟩ := answer?_eq_some_iff.mp ha
      rw [isLoading_of_answer? ha]
      exact (ofText_answer hm hma).2.isLoading_eq

/-- A countdown that a text asks for has only been set. -/
theorem countdown?_ofText {current : View} {text : List Char} {trigger : Char} {ctx : Context}
    {c : Countdown} (hc : (ofText current text trigger ctx).countdown? = some c) :
    ∃ total label, c = .ofSeconds total label := by
  obtain ⟨m, hm, ha⟩ := exists_active_of_countdown? hc
  exact (ofText_answer hm ha).2.countdown_eq c rfl

/-- A text starts no countdown. -/
theorem isRunning_ofText (current : View) (text : List Char) (trigger : Char) (ctx : Context) :
    (ofText current text trigger ctx).isRunning = false := by
  rw [← Bool.not_eq_true]
  intro hrunning
  obtain ⟨c, hc, hr⟩ := isRunning_eq_true_iff.mp hrunning
  obtain ⟨total, label, rfl⟩ := countdown?_ofText hc
  cases hr

end Composer.View
