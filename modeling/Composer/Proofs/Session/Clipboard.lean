import Composer.Proofs.Answer.Resolving
import Composer.Proofs.Session.Announcements
import Composer.Proofs.Session.Lookups
import Composer.Proofs.Session.Questions
/-!
# Composer.Proofs.Session.Clipboard

**What is copied is announced, and only what is final is copied.** The clipboard may refuse any
text, so it is asked first and the copy is announced afterwards (`Effect.Copies`). Whether the
answer that is shown can be copied is only asked of its mark as partial; that this is enough rests
on an invariant of every session: an answer that waits for a lookup, or whose lookup failed, is
partial (`Answer.Withholds`). The main statement is `World.copied_is_final`.
-/

namespace Composer

namespace Answer

/-! ### What an answer withholds -/

/-- The answer is partial as long as a lookup is on its way for it, and after one has failed. -/
structure Withholds (a : Answer) : Prop where
  loading : a.isLoading = true → a.isPartial = true
  failed : ∀ e, a.error = some e → a.isPartial = true

theorem Withholds.of_isPartial {a : Answer} (h : a.isPartial = true) : a.Withholds :=
  ⟨fun _ => h, fun _ _ => h⟩

theorem Withholds.of_settled {a : Answer} (hloading : a.isLoading = false)
    (herror : a.error = none) : a.Withholds where
  loading := fun h => by rw [hloading] at h; cases h
  failed := fun e h => by rw [herror] at h; cases h

theorem withholds_timer (c : Countdown) : (timer c).Withholds :=
  .of_settled rfl rfl

theorem Fresh.withholds {a : Answer} (h : a.Fresh) : a.Withholds :=
  .of_settled h.isLoading_eq h.error_eq

@[simp] theorem isPartial_markLoading (a : Answer) : a.markLoading.isPartial = a.isPartial := by
  cases a <;> rfl

@[simp] theorem isPartial_withError (message : String) (a : Answer) :
    (a.withError message).isPartial = a.isPartial := by
  cases a <;> rfl

/-- Whatever the services say, an answer that stays without their value stays partial. -/
theorem withholds_resolve {a : Answer} (hneeds : a.needsLookup = true)
    (hpartial : a.isPartial = true) (s : Services) : (a.resolve s).Withholds := by
  obtain ⟨q, -, -, -, hsettled⟩ := settled_resolve s.backend hneeds hpartial
  cases hsettled with
  | final hfinal => exact .of_settled (isLoading_resolve s hneeds) hfinal.error_eq
  | failed _ hfailed => exact .of_isPartial hfailed.isPartial_eq

/-- Partial answers and countdowns have nothing to copy. -/
theorem of_copyText?_eq_some {a : Answer} {text : String} (h : a.copyText? = some text) :
    a.isPartial = false ∧ a.tool ≠ .timer := by
  unfold copyText? at h
  split at h
  · cases h
  · rename_i hpartial
    refine ⟨by simpa using hpartial, fun htool => ?_⟩
    cases a with
    | timer _ => cases h
    | _ => cases htool

/-- What can be copied is final. -/
theorem Withholds.of_copyText?_eq_some {a : Answer} (h : a.Withholds) {text : String}
    (htext : a.copyText? = some text) :
    a.isPartial = false ∧ a.isLoading = false ∧ a.error = none ∧ a.tool ≠ .timer := by
  obtain ⟨hpartial, htool⟩ := Answer.of_copyText?_eq_some htext
  refine ⟨hpartial, ?_, ?_, htool⟩
  · rw [← Bool.not_eq_true]
    intro hloading
    rw [h.loading hloading] at hpartial
    cases hpartial
  · cases herror : a.error with
    | none => rfl
    | some e =>
        rw [h.failed e herror] at hpartial
        cases hpartial

end Answer

/-! ### What is shown -/

namespace View

/-- The answer that is shown withholds what is not final. -/
def Withholds (v : View) : Prop :=
  ∀ a, v.answer? = some a → a.Withholds

theorem withholds_withAnswer {v : View} {m : Active} (hm : v.active = some m) {a : Answer}
    (h : a.Withholds) : (v.withAnswer a).Withholds := by
  intro b hb
  rw [answer?_withAnswer hm] at hb
  cases hb
  exact h

theorem withholds_withCountdown {v : View} {c : Countdown} (hc : v.countdown? = some c)
    (d : Countdown) : (v.withCountdown d).Withholds := by
  obtain ⟨m, hm, -⟩ := exists_active_of_countdown? hc
  rw [withCountdown_eq hc]
  exact withholds_withAnswer hm (Answer.withholds_timer d)

end View

namespace Session

/-- Operations show answers that withhold what is not final, and the lookups that they start are for
partial answers. -/
theorem withholds_of_performs {s : Session} {e : Surroundings} {op : Operation} {f : Effect}
    (hf : s.Performs e op f) (h : s.view.Withholds) :
    f.session.view.Withholds ∧ ∀ l, f.lookup = some l → l.answer.isPartial = true := by
  cases hf with
  | stays _ _ _ => exact ⟨h, fun _ hl => by cases hl⟩
  | selects _ _ _ _ => exact ⟨h, fun _ hl => by cases hl⟩
  | replaces _ hv _ =>
      refine ⟨fun a ha => ?_, fun _ hl => by cases hl⟩
      rcases hv with rfl | ⟨t, rfl⟩ <;> cases ha
  | ignores _ => exact ⟨h, fun _ hl => by cases hl⟩
  | reads _ _ =>
      refine ⟨fun a ha => ?_, fun _ hl => by cases hl⟩
      obtain ⟨m, hm, hma⟩ := View.answer?_eq_some_iff.mp ha
      exact (View.ofText_answer hm hma).2.withholds
  | asks _ _ hm ha _ hneeds =>
      -- A lookup is started for a fresh answer, which is partial because it waits for it.
      have hpartial := (View.ofText_answer hm ha).2.isPartial_of_needsLookup hneeds
      rw [← Answer.isPartial_markLoading] at hpartial
      refine ⟨View.withholds_withAnswer hm (.of_isPartial hpartial), fun l hl => ?_⟩
      cases hl
      exact hpartial
  | fails _ _ hm ha _ hneeds =>
      have hpartial := (View.ofText_answer hm ha).2.isPartial_of_needsLookup hneeds
      exact ⟨View.withholds_withAnswer hm (.of_isPartial (by simpa using hpartial)),
        fun _ hl => by cases hl⟩
  | turns hc _ => exact ⟨View.withholds_withCountdown hc _, fun _ hl => by cases hl⟩
  | stops _ => exact ⟨h, fun _ hl => by cases hl⟩
  | sets hm _ _ _ =>
      exact ⟨View.withholds_withAnswer hm (Answer.withholds_timer _), fun _ hl => by cases hl⟩
  | resets hc _ => exact ⟨View.withholds_withCountdown hc _, fun _ hl => by cases hl⟩

theorem withholds_tick {s : Session} (h : s.view.Withholds) (n : Nat) :
    (s.tick n).session.view.Withholds := by
  rcases s.tick_cases n with ⟨hv, -⟩ | ⟨c, hc, -, hv, -⟩
  · rw [hv]
    exact h
  · rw [hv]
    exact View.withholds_withCountdown hc _

theorem withholds_settle {s : Session} (h : s.view.Withholds) (k : Ticket) {a : Answer}
    (ha : a.Withholds) : (s.settle k a).session.view.Withholds := by
  rcases s.settle_cases k a with hs | ⟨-, ⟨m, hm, -⟩, -, hs⟩
  · rw [hs]
    exact h
  · rw [hs]
    exact View.withholds_withAnswer hm ha

end Session

/-! ### What is announced -/

/-- The text that an event announces as copied. -/
def Event.copiedText? : Event → Option String
  | .copied text => some text
  | _ => none

/-- The effect announces the text that the clipboard took, and no other. -/
def Effect.Copies (f : Effect) : Prop :=
  f.events.filterMap Event.copiedText? = f.copied.toList

namespace Session

theorem copies_perform {s : Session} {e : Surroundings} {op : Operation} {f : Effect}
    (h : s.Performs e op f) : f.Copies := by
  cases h with
  | @stays _ events copied _ _ hcopied =>
      subst hcopied
      cases copied <;> rfl
  | @replaces _ v more _ _ hmore =>
      show more.filterMap Event.copiedText? = []
      rw [List.filterMap_eq_nil_iff]
      intro ev hev
      obtain ⟨command, action, rfl⟩ := hmore ev hev
      rfl
  | _ => rfl

theorem copies_tick (s : Session) (n : Nat) : (s.tick n).Copies := by
  unfold tick
  split
  · rfl
  · split
    · rfl
    · rename_i c _
      dsimp only
      cases c.completes <;> rfl

theorem copies_settle (s : Session) (k : Ticket) (a : Answer) : (s.settle k a).Copies := by
  rcases s.settle_cases k a with h | ⟨-, -, -, h⟩ <;> rw [h] <;> rfl

end Session

namespace World

theorem copies_effect (w : World) (m : Move) : (w.effect m).Copies := by
  cases m with
  | perform e op => exact Session.copies_perform (w.session.performs e op)
  | tick n =>
      rcases w.effect_tick_cases n with h | h
      · rw [h]
        rfl
      · rw [h]
        exact w.session.copies_tick n
  | settle k services =>
      rcases w.effect_settle_cases k services with h | ⟨a, h⟩
      · rw [h]
        rfl
      · rw [h]
        exact w.session.copies_settle k a

theorem clipboard_step (w : World) (m : Move) :
    (w.step m).clipboard = w.clipboard ++ (w.effect m).copied.toList := by
  cases m with
  | perform e op => rfl
  | tick n => rw [step_tick]; rfl
  | settle k services => rw [step_settle]; rfl

/-- The log tells exactly which texts the clipboard took. -/
theorem Reachable.copied_log {w : World} (h : Reachable w) :
    w.log.filterMap Event.copiedText? = w.clipboard := by
  refine h.invariant (P := fun w => w.log.filterMap Event.copiedText? = w.clipboard) rfl
    (fun w m hw => ?_)
  rw [log_step, List.filterMap_append, hw, w.copies_effect m, clipboard_step]

/-- What is shown withholds what is not final, and the lookups on their way are for partial
answers. -/
structure Withholds (w : World) : Prop where
  shown : w.session.view.Withholds
  awaited : ∀ l ∈ w.lookups, l.answer.isPartial = true

theorem Withholds.step {w : World} (h : w.Withholds) (hattended : w.Attended) (m : Move) :
    (w.step m).Withholds := by
  have hawaited (hnew : ∀ l, (w.effect m).lookup = some l → l.answer.isPartial = true) :
      ∀ l ∈ (w.step m).lookups, l.answer.isPartial = true := fun l hl =>
    (mem_or_started_of_mem_step hl).elim (h.awaited l) (hnew l)
  cases m with
  | perform e op =>
      have hop := Session.withholds_of_performs (w.session.performs e op) h.shown
      exact ⟨hop.1, hawaited hop.2⟩
  | tick n =>
      refine ⟨?_, w.lookups_tick n ▸ h.awaited⟩
      rw [session_step]
      rcases w.effect_tick_cases n with heffect | heffect
      · rw [heffect]
        exact h.shown
      · rw [heffect]
        exact Session.withholds_tick h.shown n
  | settle k services =>
      refine ⟨?_, fun l hl => h.awaited l ?_⟩
      · rw [session_step, effect]
        split
        · exact h.shown
        · rename_i l hl
          have hmem := List.mem_of_find?_eq_some hl
          exact Session.withholds_settle h.shown k
            (Answer.withholds_resolve (hattended.needs l hmem).1 (h.awaited l hmem) services)
      · rw [lookups_settle] at hl
        exact List.mem_of_mem_filter hl

theorem Reachable.withholds {w : World} (h : Reachable w) : w.Withholds :=
  h.induction (P := Withholds) ⟨fun _ ha => (by cases ha), fun _ hl => (by cases hl)⟩
    fun _ m hreach hw => hw.step hreach.attended m

/-! ### Copying -/

/-- The messages about copies are the texts that the clipboard took. -/
theorem Reachable.ofTopic_bus_copied {w : World} (h : Reachable w) :
    w.bus.ofTopic "contour:copied" =
      w.clipboard.map fun text => ⟨"contour:copied", .object [("text", .string text)]⟩ := by
  rw [← h.copied_log]
  refine w.ofTopic_bus_eq (fun ev => ?_)
  cases ev <;> simp [Event.topic, Event.copiedText?, Event.payload]

/-- The world after one more text was copied: the clipboard took it, it was announced, and all else
is as before. -/
def withCopied (w : World) (text : String) : World :=
  { w with log := w.log ++ [.copied text], clipboard := w.clipboard ++ [text] }

theorem step_copy (w : World) (e : Surroundings) (text : String) :
    w.step (.perform e (.copy text)) = if e.canCopy then w.withCopied text else w := by
  show w.absorb (w.session.copy e text) = _
  unfold Session.copy
  split
  · simp [absorb, withCopied]
  · exact w.absorb_unchanged

/-- The answer that is shown is copied if it has something to copy and the clipboard takes it. -/
theorem step_copyCurrent (w : World) (e : Surroundings) :
    w.step (.perform e .copyCurrent) =
      (w.session.view.answer?.bind Answer.copyText?).elim w
        fun text => if e.canCopy then w.withCopied text else w := by
  cases htext : w.session.view.answer?.bind Answer.copyText? with
  | none =>
      have hperform : w.session.perform e .copyCurrent = w.session.unchanged := by
        simp [Session.perform, Session.copyText?, htext]
      show w.absorb (w.session.perform e .copyCurrent) = w
      rw [hperform, absorb_unchanged]
  | some text =>
      have hperform : w.session.perform e .copyCurrent = w.session.copy e text := by
        simp [Session.perform, Session.copyText?, htext]
      show w.absorb (w.session.perform e .copyCurrent) = _
      rw [hperform]
      exact w.step_copy e text

/-- **Only what is final is copied, and every copy is announced.** After any moves, however often
the clipboard refused, the messages about copies are the texts that it took, in their order. Copying
a text changes the clipboard and the log and nothing else, or nothing at all if the clipboard
refuses. Copying the answer that is shown changes nothing, or it is the copy of the text of this
answer, which then is neither partial nor loading, carries no error and is no countdown; and if an
answer with a text is shown and the clipboard takes it, then it is copied. -/
theorem copied_is_final (moves : List Move) (e : Surroundings) :
    let w := initial.run moves
    w.bus.ofTopic "contour:copied" =
        w.clipboard.map (fun text => ⟨"contour:copied", .object [("text", .string text)]⟩) ∧
      (∀ text, w.step (.perform e (.copy text)) = if e.canCopy then w.withCopied text else w) ∧
      (w.step (.perform e .copyCurrent) = w ∨
        ∃ a text, w.session.view.answer? = some a ∧ a.isPartial = false ∧ a.isLoading = false ∧
          a.error = none ∧ a.tool ≠ .timer ∧ a.copyText? = some text ∧
          w.step (.perform e .copyCurrent) = w.withCopied text) ∧
      ∀ a text, w.session.view.answer? = some a → a.copyText? = some text → e.canCopy = true →
        w.step (.perform e .copyCurrent) = w.withCopied text := by
  intro w
  have hreach : Reachable w := reachable_run moves
  refine ⟨hreach.ofTopic_bus_copied, w.step_copy e, ?_, fun a text ha htext hcopy => ?_⟩
  · rw [step_copyCurrent]
    cases htext : w.session.view.answer?.bind Answer.copyText? with
    | none => exact Or.inl rfl
    | some text =>
        obtain ⟨a, ha, hatext⟩ := Option.bind_eq_some_iff.mp htext
        obtain ⟨hpartial, hloading, herror, htool⟩ :=
          (hreach.withholds.shown a ha).of_copyText?_eq_some hatext
        rw [Option.elim_some]
        split
        · exact Or.inr ⟨a, text, ha, hpartial, hloading, herror, htool, hatext, rfl⟩
        · exact Or.inl rfl
  · rw [step_copyCurrent, ha, Option.bind_some, htext, Option.elim_some, if_pos hcopy]

end World

end Composer
