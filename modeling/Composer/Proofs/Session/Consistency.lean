import Composer.Proofs.Session.Shape
/-!
# Composer.Proofs.Session.Consistency

**The parts of a view belong together.** A view stores a mode beside a tool, a list beside the query
it was found by, and a tool beside its answer, so it could contradict itself. Wherever a session can
come to it does not (`World.view_consistent`). That the answer belongs to the tool is `View.Fits`;
the other rules are `View.Consistent`.
-/

namespace Composer

namespace View

/-- The parts of a view agree with its mode, and a tool that was not opened on purpose shows an
answer, which is no countdown. -/
structure Consistent (v : View) : Prop where
  mode_iff : v.mode = .tool ↔ v.active.isSome = true
  unlisted : v.mode ≠ .commands → v.commands = [] ∧ v.query = "" ∧ v.selected = 0
  listed : v.mode = .commands → v.commands = Group.flatten (searchCommands v.query.toList)
  selected_lt : v.mode = .commands →
    v.selected < v.commands.length ∨ v.commands = [] ∧ v.selected = 0
  answered : ∀ m, v.active = some m → m.focused = false → ∃ a, m.answer = some a
  counted : ∀ m c, v.active = some m → m.answer = some (.timer c) → m.focused = true

theorem consistent_hidden : hidden.Consistent where
  mode_iff := by simp [hidden]
  unlisted := fun _ => ⟨rfl, rfl, rfl⟩
  listed := fun h => by cases h
  selected_lt := fun h => by cases h
  answered := fun m hm => by cases hm
  counted := fun m c hm => by cases hm

/-- A tool that was opened may show any answer or none. -/
theorem consistent_ofFocused (t : Tool) (answer : Option Answer) :
    (ofActive ⟨t, true, answer⟩).Consistent where
  mode_iff := ⟨fun _ => rfl, fun _ => rfl⟩
  unlisted := fun _ => ⟨rfl, rfl, rfl⟩
  listed := fun h => by cases h
  selected_lt := fun h => by cases h
  answered := fun m hm hfocused => by cases hm; cases hfocused
  counted := fun m c hm _ => by cases hm; rfl

/-- What is found in a text is no countdown, since the timer is not asked. -/
theorem consistent_ofAnswer {a : Answer} (ha : a.tool ≠ .timer) :
    (ofActive (.ofAnswer a)).Consistent where
  mode_iff := ⟨fun _ => rfl, fun _ => rfl⟩
  unlisted := fun _ => ⟨rfl, rfl, rfl⟩
  listed := fun h => by cases h
  selected_lt := fun h => by cases h
  answered := fun m hm _ => by cases hm; exact ⟨a, rfl⟩
  counted := fun m c hm hanswer => by cases hm; cases hanswer; exact absurd rfl ha

theorem consistent_ofQuery (query : List Char) : (ofQuery query).Consistent where
  mode_iff := by simp [ofQuery]
  unlisted := fun h => absurd rfl h
  listed := fun _ => by simp [ofQuery, foundCommands]
  selected_lt := fun _ => by
    rcases hlist : foundCommands query with _ | ⟨c, cs⟩
    · exact Or.inr ⟨hlist, rfl⟩
    · exact Or.inl (by simp [ofQuery, hlist])
  answered := fun m hm => by cases hm
  counted := fun m c hm => by cases hm

theorem consistent_ofText (current : View) (text : List Char) (trigger : Char) (ctx : Context) :
    (ofText current text trigger ctx).Consistent := by
  unfold ofText
  split
  · exact consistent_ofFocused _ _
  · split
    · exact consistent_hidden
    · split
      · exact consistent_ofQuery _
      · split
        · rename_i a ha
          refine consistent_ofAnswer fun htimer => ?_
          have hmem := (Detection.auto_eq_some ha).1
          rw [htimer] at hmem
          exact absurd hmem (by decide)
        · exact consistent_hidden

namespace Consistent

variable {v : View}

theorem select (h : v.Consistent) (hmode : v.mode = .commands) {position : Nat}
    (hlt : position < v.commands.length) : Consistent { v with selected := position } where
  mode_iff := h.mode_iff
  unlisted := fun hne => absurd hmode hne
  listed := h.listed
  selected_lt := fun _ => Or.inl hlt
  answered := h.answered
  counted := h.counted

/-- The timer is always opened on purpose. -/
theorem focused_of_timer (h : v.Consistent) (hfits : v.Fits) {m : Active}
    (hm : v.active = some m) (htool : m.tool = .timer) : m.focused = true := by
  cases hfocused : m.focused with
  | true => rfl
  | false =>
      obtain ⟨a, ha⟩ := h.answered m hm hfocused
      have hatool : a.tool = .timer := (hfits m a hm ha).trans htool
      cases a with
      | timer c => exact hfocused.symm.trans (h.counted m c hm ha)
      | _ => cases hatool

theorem withAnswer (h : v.Consistent) (hfits : v.Fits) {m : Active} (hm : v.active = some m)
    {a : Answer} (ha : a.tool = m.tool) : (v.withAnswer a).Consistent where
  mode_iff := by
    rw [active_withAnswer, Option.isSome_map]
    exact h.mode_iff
  unlisted := h.unlisted
  listed := h.listed
  selected_lt := h.selected_lt
  answered := fun m' hm' _ => by
    rw [active_withAnswer, hm] at hm'
    cases hm'
    exact ⟨a, rfl⟩
  counted := fun m' c hm' hanswer => by
    rw [active_withAnswer, hm, Option.map_some, Option.some.injEq] at hm'
    subst hm'
    cases hanswer
    show m.focused = true
    exact h.focused_of_timer hfits hm ha.symm

theorem withCountdown (h : v.Consistent) (hfits : v.Fits) {c : Countdown}
    (hc : v.countdown? = some c) (d : Countdown) : (v.withCountdown d).Consistent := by
  obtain ⟨m, hm, ha⟩ := exists_active_of_countdown? hc
  rw [withCountdown_eq hc]
  exact h.withAnswer hfits hm (hfits m (.timer c) hm ha)

end Consistent

end View

namespace Session

theorem consistent_perform {s : Session} {e : Surroundings} {op : Operation} {f : Effect}
    (hf : s.Performs e op f) (h : s.view.Consistent) (hfits : s.view.Fits) :
    f.session.view.Consistent := by
  cases hf with
  | stays _ _ _ => exact h
  | selects _ _ hmode hlt => exact h.select hmode hlt
  | replaces _ hv _ =>
      rcases hv with rfl | ⟨t, rfl⟩
      · exact View.consistent_hidden
      · exact View.consistent_ofFocused t none
  | ignores _ => exact h
  | reads _ _ => exact View.consistent_ofText _ _ _ _
  | @asks text m _ a _ _ hm ha _ _ =>
      have hreading : (s.reading e text).view.Consistent := View.consistent_ofText _ _ _ _
      -- The mark of a lookup leaves the tool of the answer as it is, and so does its failure.
      have htool := s.fits_reading e text m a hm ha
      exact hreading.withAnswer (s.fits_reading e text) hm (by simpa using htool)
  | @fails text m _ a _ _ hm ha _ _ =>
      have hreading : (s.reading e text).view.Consistent := View.consistent_ofText _ _ _ _
      have htool := s.fits_reading e text m a hm ha
      exact hreading.withAnswer (s.fits_reading e text) hm (by simpa using htool)
  | turns hc _ => exact h.withCountdown hfits hc _
  | stops _ => exact h
  | sets hm htool _ _ => exact h.withAnswer hfits hm htool.symm
  | resets hc _ => exact h.withCountdown hfits hc _

theorem consistent_tick {s : Session} (h : s.view.Consistent) (hfits : s.view.Fits) (n : Nat) :
    (s.tick n).session.view.Consistent := by
  rcases s.tick_cases n with ⟨hv, -⟩ | ⟨c, hc, -, hv, -⟩
  · rw [hv]
    exact h
  · rw [hv]
    exact h.withCountdown hfits hc _

theorem consistent_settle {s : Session} (h : s.view.Consistent) (hfits : s.view.Fits) (k : Ticket)
    (a : Answer) : (s.settle k a).session.view.Consistent := by
  rcases s.settle_cases k a with hs | ⟨-, ⟨m, hm, htool⟩, -, hs⟩
  · rw [hs]
    exact h
  · rw [hs]
    exact h.withAnswer hfits hm htool

end Session

namespace World

theorem Reachable.consistent {w : World} (h : Reachable w) : w.session.view.Consistent := by
  refine h.induction (P := fun w => w.session.view.Consistent) View.consistent_hidden
    (fun w m hreach hw => ?_)
  have hfits := hreach.fits
  rw [session_step]
  cases m with
  | perform e op => exact Session.consistent_perform (w.session.performs e op) hw hfits
  | tick n =>
      rcases w.effect_tick_cases n with h | h
      · rw [h]
        exact hw
      · rw [h]
        exact Session.consistent_tick hw hfits n
  | settle k services =>
      rcases w.effect_settle_cases k services with h | ⟨a, h⟩
      · rw [h]
        exact hw
      · rw [h]
        exact Session.consistent_settle hw hfits k a

/-- **What is shown never contradicts itself.** After any moves, the mode for tools and a tool come
together; commands, query and selection are empty outside the mode for commands, and inside it the
commands are those that the query finds, one of which is selected. A tool that was not opened has an
answer, every answer belongs to the tool that is shown, and a countdown is shown only by a tool that
was opened. -/
theorem view_consistent (moves : List Move) :
    let v := (initial.run moves).session.view
    (v.mode = .tool ↔ v.active.isSome = true) ∧
      (v.mode ≠ .commands → v.commands = [] ∧ v.query = "" ∧ v.selected = 0) ∧
      (v.mode = .commands →
        v.commands = Group.flatten (searchCommands v.query.toList) ∧
          (v.selected < v.commands.length ∨ v.commands = [] ∧ v.selected = 0)) ∧
      (∀ m, v.active = some m → m.focused = false → ∃ a, m.answer = some a) ∧
      (∀ m a, v.active = some m → m.answer = some a → a.tool = m.tool) ∧
      ∀ m c, v.active = some m → m.answer = some (.timer c) → m.focused = true := by
  intro v
  have hreach : Reachable (initial.run moves) := reachable_run moves
  have h : v.Consistent := hreach.consistent
  have hfits : v.Fits := hreach.fits
  exact ⟨h.mode_iff, h.unlisted, fun hmode => ⟨h.listed hmode, h.selected_lt hmode⟩, h.answered,
    hfits, h.counted⟩

end World

end Composer
