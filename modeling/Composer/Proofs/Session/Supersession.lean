import Composer.Session.Rehearsal
import Composer.Proofs.Session.Lookups
/-!
# Composer.Proofs.Session.Supersession

**What a lookup brings is written exactly if nothing has superseded its text.** A text, a tool that
is opened and a dismissal count all channels on, so that no ticket of before is current afterwards;
nothing else moves a count. The main statement, `written_iff_not_superseded`, follows a lookup from
the text that started it to its settlement, with any moves in between.
-/

namespace Composer

namespace Session

/-- A session counts all its channels on, or none of them. It does so for each text, for each tool
that is opened and for each dismissal, unless a running countdown makes it ignore the text. -/
theorem tickets_perform {s : Session} {e : Surroundings} {op : Operation} {f : Effect}
    (h : s.Performs e op f) :
    (f.session.tickets = s.tickets ∧ (s.supersedes op = false ∨ s.view.isCounting = true)) ∨
      s.supersedes op = true ∧ ∀ c, s.tickets.current c < f.session.tickets.current c := by
  cases h with
  | stays hop _ _ => exact Or.inl ⟨rfl, Or.inl hop⟩
  | selects hop _ _ _ => exact Or.inl ⟨rfl, Or.inl hop⟩
  | replaces hop _ _ =>
      refine Or.inr ⟨?_, fun c => by simp [replaceView]⟩
      cases op <;> first | exact hop | rfl
  | ignores hcounting => exact Or.inl ⟨rfl, Or.inr hcounting⟩
  | reads _ _ => exact Or.inr ⟨rfl, fun c => by simp [reading, changed]⟩
  | asks _ _ _ _ _ _ => exact Or.inr ⟨rfl, Tickets.current_lt_begin _ _⟩
  | fails _ _ _ _ _ _ => exact Or.inr ⟨rfl, Tickets.current_lt_begin _ _⟩
  | turns _ hturn => exact Or.inl ⟨rfl, Or.inl (by cases hturn <;> rfl)⟩
  | stops _ => exact Or.inl ⟨rfl, Or.inl rfl⟩
  | sets _ _ _ _ => exact Or.inl ⟨rfl, Or.inl rfl⟩
  | resets _ _ => exact Or.inl ⟨rfl, Or.inl rfl⟩

/-- A lookup is started with a ticket that is current. -/
theorem isCurrent_of_performs {s : Session} {e : Surroundings} {op : Operation} {f : Effect}
    {l : Lookup} (h : s.Performs e op f) (hl : f.lookup = some l) :
    f.session.tickets.isCurrent l.ticket = true := by
  cases h with
  | asks _ _ _ _ _ _ =>
      cases hl
      exact Tickets.isCurrent_ticket _ _
  | _ => cases hl

end Session

namespace World

/-! ### Moves that supersede a lookup -/

/-- Whether a move is a new text, opens a tool or dismisses what is shown. -/
def Supersedes (w : World) : Move → Prop
  | .perform _ op => w.session.supersedes op = true
  | .tick _ => False
  | .settle _ _ => False

theorem tickets_step_of_not_supersedes {w : World} {m : Move} (h : ¬ w.Supersedes m) :
    (w.step m).session.tickets = w.session.tickets := by
  cases m with
  | perform e op =>
      rcases Session.tickets_perform (w.session.performs e op) with ⟨hsame, -⟩ | ⟨hop, -⟩
      · exact hsame
      · exact absurd hop h
  | tick n => exact w.tickets_step_tick n
  | settle k services => exact w.tickets_step_settle k services

/-- While a lookup is awaited, no countdown runs, so every move that is there to supersede it does:
all channels count on. -/
theorem current_lt_step_of_supersedes {w : World} (hw : w.Attended) {l : Lookup}
    (hl : w.Awaits l) {m : Move} (h : w.Supersedes m) (c : Channel) :
    w.session.tickets.current c < (w.step m).session.tickets.current c := by
  have hcounting : w.session.view.isCounting = false := by
    rw [← Bool.not_eq_true]
    intro hcounting
    -- A countdown would be shown, but the answer of the lookup is shown instead.
    obtain ⟨d, hd, -⟩ := View.isRunning_eq_true_iff.mp (View.isRunning_of_isCounting hcounting)
    exact hw.not_awaits (View.isLoading_of_countdown? hd) l hl
  cases m with
  | perform e op =>
      rcases Session.tickets_perform (w.session.performs e op) with ⟨-, hop | hop⟩ | ⟨-, hlt⟩
      · have hsupersedes : w.session.supersedes op = true := h
        rw [hop] at hsupersedes
        cases hsupersedes
      · rw [hop] at hcounting
        cases hcounting
      · exact hlt c
  | tick n => cases h
  | settle k services => cases h

/-- No count ever goes back. -/
theorem current_le_step (w : World) (m : Move) (c : Channel) :
    w.session.tickets.current c ≤ (w.step m).session.tickets.current c := by
  cases m with
  | perform e op =>
      rcases Session.tickets_perform (w.session.performs e op) with ⟨hsame, -⟩ | ⟨-, hlt⟩
      · exact Nat.le_of_eq (congrArg (·.current c) hsame.symm)
      · exact Nat.le_of_lt (hlt c)
  | tick n => exact Nat.le_of_eq (congrArg (·.current c) (w.tickets_step_tick n).symm)
  | settle k services =>
      exact Nat.le_of_eq (congrArg (·.current c) (w.tickets_step_settle k services).symm)

theorem current_le_run (w : World) (moves : List Move) (c : Channel) :
    w.session.tickets.current c ≤ (w.run moves).session.tickets.current c := by
  induction moves generalizing w with
  | nil => exact Nat.le_refl _
  | cons m moves ih => exact Nat.le_trans (current_le_step w m c) (ih (w.step m))

/-! ### A lookup in the course of a run -/

/-- A lookup stays on its way until it settles. -/
theorem mem_lookups_step {w : World} {l : Lookup} {m : Move} (hl : l ∈ w.lookups)
    (hm : ∀ services, m ≠ .settle l.ticket services) : l ∈ (w.step m).lookups := by
  cases m with
  | perform e op =>
      rw [lookups_perform]
      exact List.mem_append_left _ hl
  | tick n =>
      rw [lookups_tick]
      exact hl
  | settle k services =>
      rw [lookups_settle]
      refine List.mem_filter.mpr ⟨hl, ?_⟩
      have hne : l.ticket ≠ k := fun heq => hm services (by rw [heq])
      simpa using hne

theorem mem_lookups_run {w : World} {l : Lookup} {moves : List Move} (hl : l ∈ w.lookups)
    (hmoves : ∀ services, Move.settle l.ticket services ∉ moves) : l ∈ (w.run moves).lookups := by
  induction moves generalizing w with
  | nil => exact hl
  | cons m moves ih =>
      refine ih (mem_lookups_step hl ?_) ?_
      · intro services heq
        exact hmoves services (by simp [heq])
      · intro services hmem
        exact hmoves services (List.mem_cons_of_mem _ hmem)

/-- An awaited lookup is awaited until it is superseded, and never again after that. -/
theorem awaits_run_iff {w : World} (hw : Reachable w) {l : Lookup} (hl : w.Awaits l)
    {moves : List Move} (hmoves : ∀ services, Move.settle l.ticket services ∉ moves) :
    (w.run moves).Awaits l ↔ w.Along (fun w m => ¬ w.Supersedes m) moves := by
  induction moves generalizing w with
  | nil => simp [Along, hl]
  | cons m moves ih =>
      have hne : ∀ services, m ≠ .settle l.ticket services :=
        fun services heq => hmoves services (by simp [heq])
      have hrest : ∀ services, Move.settle l.ticket services ∉ moves :=
        fun services hmem => hmoves services (List.mem_cons_of_mem _ hmem)
      have hmem := mem_lookups_step hl.1 hne
      by_cases hm : w.Supersedes m
      · -- From here on the count of the channel is beyond the number of the ticket.
        have hlt := current_lt_step_of_supersedes hw.attended hl hm l.ticket.channel
        have hle := current_le_run (w.step m) moves l.ticket.channel
        have hnumber := of_decide_eq_true hl.2
        refine iff_of_false ?_ (fun h => h.1 hm)
        rintro ⟨-, hcurrent⟩
        have := of_decide_eq_true hcurrent
        rw [run_cons] at this
        omega
      · have hcurrent : (w.step m).session.tickets.isCurrent l.ticket = true := by
          rw [tickets_step_of_not_supersedes hm]
          exact hl.2
        rw [run_cons, ih (hw.step m) ⟨hmem, hcurrent⟩ hrest]
        simp [Along, hm]

/-! ### What is written -/

/-- World `w'` is `w` after an answer was written: it is the answer of the tool that is shown, this
is announced, and nothing else about the session is different. -/
def Writes (w : World) (a : Answer) (w' : World) : Prop :=
  ∃ m, w.session.view.active = some m ∧
    w'.session = { w.session with
      view := { w.session.view with active := some { m with answer := some a } } } ∧
    w'.log = w.log ++ [.viewChanged w'.session.view]

theorem writes_of_awaits {w : World} (hw : Reachable w) {l : Lookup} (hl : w.Awaits l)
    (services : Services) :
    w.Writes (l.answer.resolve services) (w.step (.settle l.ticket services)) := by
  obtain ⟨m, hm, -⟩ := View.answer?_eq_some_iff.mp (hw.attended.shown l hl)
  refine ⟨m, hm, ?_, ?_⟩
  · rw [session_step, hw.attended.effect_settle hw.fits hl]
    simp [Session.changed, View.withAnswer, hm]
  · rw [log_step, session_step, hw.attended.effect_settle hw.fits hl]
    rfl

theorem unchanged_of_not_awaits {w : World} (hw : Reachable w) {l : Lookup} (hmem : l ∈ w.lookups)
    (hl : ¬ w.Awaits l) (services : Services) :
    (w.step (.settle l.ticket services)).session = w.session ∧
      (w.step (.settle l.ticket services)).log = w.log := by
  have hnone : ∀ l', w.Awaits l' → l'.ticket ≠ l.ticket := by
    intro l' hl' heq
    rw [hw.attended.eq_of_ticket hl'.1 hmem heq] at hl'
    exact hl hl'
  rw [session_step, log_step, Attended.effect_settle_of_not_awaits hnone]
  exact ⟨rfl, List.append_nil _⟩

/-- **What a lookup brings is written exactly if nothing has superseded its text.** In any run, let
a text start a lookup that settles some time later. If there was no other text, no tool was opened
and nothing dismissed in between, what the services say is written; otherwise the settlement
changes nothing and emits nothing. -/
theorem written_iff_not_superseded (before after : List Move) (e : Surroundings) (text : String)
    (l : Lookup) (services : Services)
    (started : ((initial.run before).session.analyze e text).lookup = some l)
    (unsettled : ∀ s, Move.settle l.ticket s ∉ after) :
    let start := (initial.run before).step (.perform e (.analyze text))
    let w := start.run after
    let w' := w.step (.settle l.ticket services)
    (w.Writes (l.answer.resolve services) w' ↔
        start.Along (fun w m => ¬ w.Supersedes m) after) ∧
      (¬ w.Writes (l.answer.resolve services) w' → w'.session = w.session ∧ w'.log = w.log) := by
  intro start w w'
  have hstart : Reachable start := (reachable_run before).step _
  have hw : Reachable w := hstart.run after
  have hperforms := (initial.run before).session.performs e (.analyze text)
  have hawaits : start.Awaits l := by
    refine ⟨?_, Session.isCurrent_of_performs hperforms started⟩
    rw [lookups_perform]
    refine List.mem_append_right _ ?_
    rw [show ((initial.run before).session.perform e (.analyze text)).lookup = some l from started]
    exact List.mem_singleton_self l
  have hmem : l ∈ w.lookups := mem_lookups_run hawaits.1 unsettled
  have hiff : w.Awaits l ↔ start.Along (fun w m => ¬ w.Supersedes m) after :=
    awaits_run_iff hstart hawaits unsettled
  by_cases hl : w.Awaits l
  · have hwrites := writes_of_awaits hw hl services
    exact ⟨iff_of_true hwrites (hiff.mp hl), fun hnot => absurd hwrites hnot⟩
  · have hunchanged := unchanged_of_not_awaits hw hmem hl services
    refine ⟨iff_of_false ?_ (fun h => hl (hiff.mpr h)), fun _ => hunchanged⟩
    rintro ⟨m, -, -, hlog⟩
    rw [hunchanged.2] at hlog
    simp at hlog

/-- Surroundings in which everything works, with the default settings. -/
def plain : Surroundings :=
  ⟨.default, 0, 0, true, true⟩

/-- The lookup for "apple" after the dictionary was opened. -/
def apple : Lookup :=
  ⟨⟨.dictionary, 3⟩, .dictionary { Lexicon.Definition.ofWord "apple" with isLoading := true }⟩

/-- A lookup that fails is written as well, unless another word has been typed. -/
theorem written_unless_another_word :
    ((initial.run [.perform plain (.focus "dictionary")]).session.analyze plain "apple").lookup =
        some apple ∧
      (initial.run [.perform plain (.focus "dictionary"), .perform plain (.analyze "apple"),
          .perform plain .selectDown]).Writes (apple.answer.resolve (.failing .panicked))
        (initial.run [.perform plain (.focus "dictionary"), .perform plain (.analyze "apple"),
          .perform plain .selectDown, .settle apple.ticket (.failing .panicked)]) ∧
      (initial.run [.perform plain (.focus "dictionary"), .perform plain (.analyze "apple"),
          .perform plain (.analyze "pear"), .settle apple.ticket (.failing .panicked)]).session =
        (initial.run [.perform plain (.focus "dictionary"), .perform plain (.analyze "apple"),
          .perform plain (.analyze "pear")]).session := by
  have started : ((initial.run [.perform plain (.focus "dictionary")]).session.analyze plain
      "apple").lookup = some apple := by decide +kernel
  have kept := written_iff_not_superseded [.perform plain (.focus "dictionary")]
    [.perform plain .selectDown] plain "apple" apple (.failing .panicked) started (by simp)
  have gone := written_iff_not_superseded [.perform plain (.focus "dictionary")]
    [.perform plain (.analyze "pear")] plain "apple" apple (.failing .panicked) started (by simp)
  refine ⟨started, kept.1.mpr (along_singleton.mpr ?_), (gone.2 fun hwrites => ?_).1⟩
  · exact fun hsupersedes => by cases hsupersedes
  · exact along_singleton.mp (gone.1.mp hwrites) rfl

end World

end Composer
