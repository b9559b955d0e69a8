import Composer.Proofs.Session.Consistency
/-!
# Composer.Proofs.Session.Focus

**A tool that was opened stays open.** Texts, ticks, lookups, the palette, the clipboard and the
operations of the countdown all leave it where it is; only opening a tool or dismissing what is
shown takes it away, and nothing else opens one (`World.open_until_reopened`). While it is open it
alone answers, whatever was typed before.
-/

namespace Composer

/-- The tool is shown, and it was opened on purpose. -/
def View.Opened (v : View) (t : Tool) : Prop :=
  v.mode = .tool ∧ ∃ m, v.active = some m ∧ m.tool = t ∧ m.focused = true

namespace View

variable {v : View} {t : Tool}

theorem isFocused_eq_true_iff : v.isFocused = true ↔ ∃ t, v.Opened t := by
  simp [isFocused, Opened, Option.any_eq_true]

theorem opened_withAnswer (a : Answer) : (v.withAnswer a).Opened t ↔ v.Opened t := by
  simp [Opened, withAnswer]

theorem opened_withCountdown (c : Countdown) : (v.withCountdown c).Opened t ↔ v.Opened t := by
  unfold withCountdown
  split
  · exact opened_withAnswer _
  · rfl

theorem Opened.filter_focused (h : v.Opened t) :
    ∃ m, v.active.filter (·.focused) = some m ∧ m.tool = t := by
  obtain ⟨-, m, hm, htool, hfocused⟩ := h
  exact ⟨m, by simp [hm, hfocused], htool⟩

/-- The tool that is open answers a text alone. -/
theorem Opened.ofText (h : v.Opened t) (text : List Char) (trigger : Char) (ctx : Context) :
    ofText v text trigger ctx = ofActive ⟨t, true, Detection.focused t text ctx⟩ := by
  obtain ⟨m, hm, rfl⟩ := h.filter_focused
  simp [View.ofText, hm]

theorem opened_ofActive (t : Tool) (answer : Option Answer) :
    (ofActive ⟨t, true, answer⟩).Opened t :=
  ⟨rfl, _, rfl, rfl, rfl⟩

/-- Where no tool is open, a text opens none. -/
theorem not_opened_ofText (hv : v.Consistent) (h : v.isFocused = false) (text : List Char)
    (trigger : Char) (ctx : Context) : (View.ofText v text trigger ctx).isFocused = false := by
  have hnone : v.active.filter (·.focused) = none := by
    rw [Option.filter_eq_none_iff]
    intro m hm hfocused
    have hmode : v.mode = .tool := hv.mode_iff.mpr (by rw [hm]; rfl)
    rw [isFocused_eq_true_iff.mpr ⟨m.tool, hmode, m, hm, rfl, hfocused⟩] at h
    cases h
  unfold View.ofText
  rw [hnone]
  dsimp only
  -- The text goes to nothing, to the palette or to detection.
  split
  · rfl
  · split
    · rfl
    · split <;> rfl

/-- A countdown that runs in an open tool makes texts count for nothing. -/
theorem Opened.isCounting_eq (h : v.Opened t) : v.isCounting = v.isRunning := by
  rw [isCounting, isFocused_eq_true_iff.mpr ⟨t, h⟩, Bool.true_and]
  rfl

end View

/-- Whether an operation opens a tool by a known name or dismisses what is shown. -/
def Operation.reopens : Operation → Bool
  | .focus name => (Tool.typed? name).isSome
  | .dismiss => true
  | _ => false

/-- Whether a move opens a tool by a known name or dismisses what is shown. -/
def Move.reopens : Move → Bool
  | .perform _ op => op.reopens
  | .tick _ => false
  | .settle _ _ => false

/-- Whether a move is a text, a tick or what a lookup brings. -/
def Move.isPassive : Move → Bool
  | .perform _ (.analyze _) => true
  | .perform _ _ => false
  | .tick _ => true
  | .settle _ _ => true

namespace Session

variable {s : Session} {t : Tool}

/-- No command is selected while a tool is shown, so running one opens nothing. -/
theorem replaces_eq_reopens (h : s.view.Opened t) (op : Operation) :
    s.replaces op = op.reopens := by
  cases op with
  | execute => simp [Session.replaces, Operation.reopens, View.selectedCommand?, h.1]
  | _ => rfl

theorem opened_reading (h : s.view.Opened t) (e : Surroundings) (text : String) :
    (s.reading e text).view =
      .ofActive ⟨t, true, Detection.focused t (Text.trim text.toList) e.context⟩ :=
  h.ofText _ _ _

theorem opened_perform {e : Surroundings} {op : Operation} {f : Effect} (hf : s.Performs e op f)
    (h : s.view.Opened t) (hop : op.reopens = false) : f.session.view.Opened t := by
  cases hf with
  | stays _ _ _ => exact h
  | selects _ _ _ _ => exact h
  | replaces hreplaces _ _ =>
      rw [replaces_eq_reopens h, hop] at hreplaces
      cases hreplaces
  | ignores _ => exact h
  | reads _ _ =>
      show (s.reading e _).view.Opened t
      rw [opened_reading h]
      exact View.opened_ofActive _ _
  | asks _ _ _ _ _ _ =>
      refine (View.opened_withAnswer _).mpr ?_
      rw [opened_reading h]
      exact View.opened_ofActive _ _
  | fails _ _ _ _ _ _ =>
      refine (View.opened_withAnswer _).mpr ?_
      rw [opened_reading h]
      exact View.opened_ofActive _ _
  | turns _ _ => exact (View.opened_withCountdown _).mpr h
  | stops _ => exact h
  | sets _ _ _ _ => exact (View.opened_withAnswer _).mpr h
  | resets _ _ => exact (View.opened_withCountdown _).mpr h

theorem opened_tick (s : Session) (n : Nat) :
    (s.tick n).session.view.Opened t ↔ s.view.Opened t := by
  rcases s.tick_cases n with ⟨hv, -⟩ | ⟨c, -, -, hv, -⟩
  · rw [hv]
  · rw [hv]
    exact View.opened_withCountdown _

theorem opened_settle (s : Session) (k : Ticket) (a : Answer) :
    (s.settle k a).session.view.Opened t ↔ s.view.Opened t := by
  rcases s.settle_cases k a with hs | ⟨-, -, -, hs⟩
  · rw [hs]
    rfl
  · rw [hs]
    exact View.opened_withAnswer _

/-- The answer with which a text is shown: marked if a lookup has to complete it. -/
def shownAnswer (t : Tool) (text : List Char) (ctx : Context) : Option Answer :=
  (Detection.focused t text ctx).map fun a => if a.needsLookup then a.markLoading else a

/-- What is left of the answer where no lookup can be started: the lookup has failed. -/
def failedAnswer (a : Answer) : Answer :=
  if a.isLoading then a.withError "Lookup unavailable" else a

/-- What the open tool shows after a text that counts. -/
theorem view_analyze (h : s.view.Opened t) (hrunning : s.view.isRunning = false)
    (e : Surroundings) (text : String) :
    (s.analyze e text).session.view =
      .ofActive ⟨t, true,
        let shown := shownAnswer t (Text.trim text.toList) e.context
        if e.canWait then shown else shown.map failedAnswer⟩ := by
  have hview := opened_reading h e text
  have hcounting : s.view.isCounting = false := h.isCounting_eq.trans hrunning
  have hf := s.performs e (.analyze text)
  change s.Performs e (.analyze text) (s.analyze e text) at hf
  generalize s.analyze e text = f at hf ⊢
  -- A text that counts is read; the answer may be asked for or fail at once.
  cases hf with
  | stays hop _ _ => cases hop
  | selects hop _ _ _ => cases hop
  | replaces hop _ _ => cases hop
  | turns _ hturn => cases hturn
  | ignores hignores =>
      rw [hcounting] at hignores
      cases hignores
  | reads _ hneeds =>
      show (s.reading e text).view = _
      rw [hview] at hneeds ⊢
      cases hd : Detection.focused t (Text.trim text.toList) e.context with
      | none => simp [shownAnswer, hd]
      | some a =>
          have hquiet : a.needsLookup = false := hneeds a hd
          have hfresh : a.isLoading = false := (Detection.focused_eq_some hd).2.isLoading_eq
          simp [shownAnswer, failedAnswer, hd, hquiet, hfresh]
  | @asks _ _ _ a _ hwait hm ha _ hneeds =>
      rw [hview] at hm
      cases hm
      dsimp only at ha
      show (s.reading e text).view.withAnswer a.markLoading = _
      simp [hview, shownAnswer, ha, hneeds, hwait, View.ofActive, View.withAnswer]
  | @fails _ _ _ a _ hwait hm ha _ hneeds =>
      rw [hview] at hm
      cases hm
      dsimp only at ha
      show (s.reading e text).view.withAnswer (a.markLoading.withError "Lookup unavailable") = _
      simp [hview, shownAnswer, failedAnswer, ha, hneeds, hwait, Answer.isLoading_markLoading,
        View.ofActive, View.withAnswer]

end Session

namespace World

/-- A tool stays open as long as no move opens a tool or dismisses what is shown. -/
theorem opened_step {w : World} {t : Tool} (h : w.session.view.Opened t) {m : Move}
    (hm : m.reopens = false) : (w.step m).session.view.Opened t := by
  rw [session_step]
  cases m with
  | perform e op => exact Session.opened_perform (w.session.performs e op) h hm
  | tick n =>
      rcases w.effect_tick_cases n with hn | hn
      · rw [hn]
        exact h
      · rw [hn]
        exact (w.session.opened_tick n).mpr h
  | settle k services =>
      rcases w.effect_settle_cases k services with hk | ⟨a, hk⟩
      · rw [hk]
        exact h
      · rw [hk]
        exact (w.session.opened_settle k a).mpr h

theorem opened_run {w : World} {t : Tool} (h : w.session.view.Opened t) {moves : List Move}
    (hmoves : ∀ m ∈ moves, m.reopens = false) : (w.run moves).session.view.Opened t := by
  induction moves generalizing w with
  | nil => exact h
  | cons m moves ih =>
      refine ih (opened_step h (hmoves m List.mem_cons_self)) fun m' hm' => ?_
      exact hmoves m' (List.mem_cons_of_mem m hm')

/-- While the countdown of the open tool runs, a text changes nothing at all. -/
theorem step_analyze_of_isRunning {w : World} {t : Tool} (h : w.session.view.Opened t)
    (hrunning : w.session.view.isRunning = true) (e : Surroundings) (text : String) :
    w.step (.perform e (.analyze text)) = w := by
  have hcounting : w.session.view.isCounting = true := h.isCounting_eq.trans hrunning
  have hsame : w.session.analyze e text = w.session.unchanged := by
    simp [Session.analyze, hcounting]
  show w.absorb (w.session.analyze e text) = w
  rw [hsame, absorb_unchanged]

/-- Neither a text nor a tick nor a lookup opens a tool. -/
theorem isFocused_step_of_isPassive {w : World} (hw : Reachable w)
    (h : w.session.view.isFocused = false) {m : Move} (hm : m.isPassive = true) :
    (w.step m).session.view.isFocused = false := by
  have hnone : ∀ t, ¬ w.session.view.Opened t := fun t ht => by
    rw [View.isFocused_eq_true_iff.mpr ⟨t, ht⟩] at h
    cases h
  rw [← Bool.not_eq_true, View.isFocused_eq_true_iff, session_step]
  rintro ⟨t, ht⟩
  cases m with
  | perform e op =>
      cases op with
      | analyze text =>
          -- An answer changes nothing about what is open, so only the reading counts.
          have hreading : (w.session.reading e text).view.isFocused = false :=
            View.not_opened_ofText hw.consistent h _ _ _
          rw [← Bool.not_eq_true, View.isFocused_eq_true_iff, not_exists] at hreading
          have hf := w.session.performs e (.analyze text)
          change (w.session.perform e (.analyze text)).session.view.Opened t at ht
          generalize w.session.perform e (.analyze text) = f at hf ht
          cases hf with
          | stays hop _ _ => cases hop
          | selects hop _ _ _ => cases hop
          | replaces hop _ _ => cases hop
          | turns _ hturn => cases hturn
          | ignores _ => exact hnone t ht
          | reads _ _ => exact hreading t ht
          | asks _ _ _ _ _ _ => exact hreading t ((View.opened_withAnswer _).mp ht)
          | fails _ _ _ _ _ _ => exact hreading t ((View.opened_withAnswer _).mp ht)
      | _ => cases hm
  | tick n =>
      rcases w.effect_tick_cases n with hn | hn
      · rw [hn] at ht
        exact hnone t ht
      · rw [hn] at ht
        exact hnone t ((w.session.opened_tick n).mp ht)
  | settle k services =>
      rcases w.effect_settle_cases k services with hk | ⟨a, hk⟩
      · rw [hk] at ht
        exact hnone t ht
      · rw [hk] at ht
        exact hnone t ((w.session.opened_settle k a).mp ht)

/-- **A tool stays open until another one is opened or it is dismissed**, and answers alone.

* Moves that neither open a tool nor dismiss it leave it open.
* A text that counts is answered by the open tool, whatever was typed before. An answer that needs
  a lookup is marked; the host is told so at once, and where no lookup can be started the view goes
  on to the failure.
* While its countdown runs, a text changes nothing.
* Neither a text nor a tick nor a lookup opens a tool. -/
theorem open_until_reopened :
    (∀ (before after : List Move) (t : Tool), (initial.run before).session.view.Opened t →
      (∀ m ∈ after, m.reopens = false) →
      (initial.run (before ++ after)).session.view.Opened t) ∧
    (∀ (moves : List Move) (t : Tool) (e : Surroundings) (text : String),
      (initial.run moves).session.view.Opened t →
      (initial.run moves).session.view.isRunning = false →
      let shown := (Detection.focused t (Text.trim text.toList) e.context).map fun a =>
        if a.needsLookup then a.markLoading else a
      (initial.run moves).session.reply e (.analyze text) = .view (.ofActive ⟨t, true, shown⟩) ∧
      (initial.run (moves ++ [.perform e (.analyze text)])).session.view =
        .ofActive ⟨t, true,
          if e.canWait then shown
          else shown.map fun a =>
            if a.isLoading then a.withError "Lookup unavailable" else a⟩) ∧
    (∀ (moves : List Move) (t : Tool) (e : Surroundings) (text : String),
      (initial.run moves).session.view.Opened t →
      (initial.run moves).session.view.isRunning = true →
      initial.run (moves ++ [.perform e (.analyze text)]) = initial.run moves) ∧
    ∀ (moves : List Move) (m : Move), m.isPassive = true →
      (initial.run moves).session.view.isFocused = false →
      (initial.run (moves ++ [m])).session.view.isFocused = false := by
  refine ⟨fun before after t h hafter => ?_, fun moves t e text h hrunning => ⟨?_, ?_⟩,
    fun moves t e text h hrunning => ?_, fun moves m hm h => ?_⟩
  · rw [run_append]
    exact opened_run h hafter
  · have hanswered := Session.view_analyze h hrunning { e with canWait := true } text
    exact congrArg Reply.view hanswered
  · rw [run_append]
    exact Session.view_analyze h hrunning e text
  · rw [run_append]
    exact step_analyze_of_isRunning h hrunning e text
  · rw [run_append]
    exact isFocused_step_of_isPassive ⟨moves, rfl⟩ h hm

end World

end Composer
