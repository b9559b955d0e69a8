import Composer.Proofs.Session.Shape
/-!
# Composer.Proofs.Session.Lookups

**No answer is left waiting, and no lookup is awaited for another one.** Lookups settle at any time
and in any order, and texts, tools and dismissals come in between. `Attended` ties the lookups on
their way, their tickets, the counts of the channels and the view together, and every move keeps
it. The main statement is `loading_iff_awaits`: an answer is marked as loading exactly while the
one lookup is on its way that will complete it.
-/

namespace Composer

/-! ### Counts of the channels -/

/-- A text that starts a lookup counts every channel on. -/
theorem Tickets.current_lt_begin (t : Tickets) (c d : Channel) :
    t.current d < (t.invalidateAll.begin c).current d := by
  rw [current_begin, current_invalidateAll]
  split <;> omega

namespace World

/-! ### Lookups on their way -/

/-- A lookup is awaited: it has not settled, and its ticket is current. -/
def Awaits (w : World) (l : Lookup) : Prop :=
  l ∈ w.lookups ∧ w.session.tickets.isCurrent l.ticket = true

/-- What the lookups on their way have to do with the counts and with the view. -/
structure Attended (w : World) : Prop where
  /-- Tickets carry numbers that were already counted. -/
  number_le : ∀ l ∈ w.lookups, l.ticket.number ≤ w.session.tickets.current l.ticket.channel
  /-- No two lookups have the same ticket. -/
  nodup : (w.lookups.map (·.ticket)).Nodup
  /-- The answers of lookups are marked, and a service can complete them. -/
  needs : ∀ l ∈ w.lookups, l.answer.needsLookup = true ∧ l.answer.isLoading = true
  /-- The answers of lookups belong to the tools of their channels. -/
  tool : ∀ l ∈ w.lookups, l.answer.tool = l.ticket.channel.tool
  /-- The answer of an awaited lookup is the one that is shown. -/
  shown : ∀ l, w.Awaits l → w.session.view.answer? = some l.answer
  /-- A marked answer that is shown has an awaited lookup. -/
  loading : w.session.view.isLoading = true → ∃ l, w.Awaits l

namespace Attended

variable {w w' : World}

theorem eq_of_ticket (h : w.Attended) {l l' : Lookup} (hl : l ∈ w.lookups) (hl' : l' ∈ w.lookups)
    (hk : l.ticket = l'.ticket) : l = l' :=
  List.inj_on_of_nodup_map h.nodup hl hl' hk

/-- No two lookups are awaited at once: the view shows one answer, so both are on the channel of
its tool, and a channel has one count. -/
theorem unique (h : w.Attended) {l l' : Lookup} (hl : w.Awaits l) (hl' : w.Awaits l') : l = l' := by
  have hanswer : l.answer = l'.answer :=
    Option.some.inj ((h.shown l hl).symm.trans (h.shown l' hl'))
  have hchannel : l.ticket.channel = l'.ticket.channel := by
    apply Channel.tool_injective
    rw [← h.tool l hl.1, ← h.tool l' hl'.1, hanswer]
  have hnumber : l.ticket.number = l'.ticket.number := by
    have hcurrent := of_decide_eq_true hl.2
    have hcurrent' := of_decide_eq_true hl'.2
    rw [← hcurrent, ← hcurrent', hchannel]
  refine h.eq_of_ticket hl.1 hl'.1 ?_
  cases hk : l.ticket
  cases hk' : l'.ticket
  simp_all

/-- Among the lookups on their way there is at most one that is awaited. -/
theorem length_awaited_le_one (h : w.Attended) :
    (w.lookups.filter fun l => w.session.tickets.isCurrent l.ticket).length ≤ 1 := by
  refine length_filter_le_one (List.Nodup.of_map _ h.nodup) ?_
  intro l hl l' hl' hcurrent hcurrent'
  exact h.unique ⟨hl, hcurrent⟩ ⟨hl', hcurrent'⟩

theorem find?_eq (h : w.Attended) {l : Lookup} (hl : l ∈ w.lookups) :
    w.lookups.find? (·.ticket = l.ticket) = some l := by
  cases hfind : w.lookups.find? (·.ticket = l.ticket) with
  | none => exact absurd (List.find?_eq_none.mp hfind l hl) (by simp)
  | some l' =>
      have hticket : l'.ticket = l.ticket := by simpa using List.find?_some hfind
      rw [h.eq_of_ticket (List.mem_of_find?_eq_some hfind) hl hticket]

/-- While no marked answer is shown, no lookup is awaited. -/
theorem not_awaits (h : w.Attended) (hv : w.session.view.isLoading = false) (l : Lookup) :
    ¬ w.Awaits l := by
  intro hl
  rw [View.isLoading_of_answer? (h.shown l hl), (h.needs l hl.1).2] at hv
  cases hv

/-! ### What keeps lookups attended -/

theorem start : initial.Attended where
  number_le := by simp [initial]
  nodup := by simp [initial]
  needs := by simp [initial]
  tool := by simp [initial]
  shown := fun l hl => by simp [Awaits, initial] at hl
  loading := fun h => by cases h

/-- Nothing happens to lookups and counts, and the answer that is shown stays or waits for nothing
before and after. -/
theorem of_kept (h : w.Attended) (hl : w'.lookups = w.lookups)
    (ht : w'.session.tickets = w.session.tickets)
    (hv : w'.session.view.answer? = w.session.view.answer? ∨
      w.session.view.isLoading = false ∧ w'.session.view.isLoading = false) : w'.Attended := by
  have hawaits : ∀ l, w'.Awaits l ↔ w.Awaits l := by simp [Awaits, hl, ht]
  exact {
    number_le := by rw [hl, ht]; exact h.number_le
    nodup := by rw [hl]; exact h.nodup
    needs := by rw [hl]; exact h.needs
    tool := by rw [hl]; exact h.tool
    shown := by
      intro l hawait
      rw [hawaits] at hawait
      rcases hv with hsame | ⟨hquiet, -⟩
      · rw [hsame]
        exact h.shown l hawait
      · exact absurd hawait (h.not_awaits hquiet l)
    loading := by
      intro hloading
      rcases hv with hsame | ⟨-, hquiet⟩
      · have hbefore : w.session.view.isLoading = true := by
          rwa [View.isLoading, hsame] at hloading
        obtain ⟨l, hawait⟩ := h.loading hbefore
        exact ⟨l, (hawaits l).mpr hawait⟩
      · rw [hquiet] at hloading
        cases hloading }

/-- All channels count on, and no marked answer is shown: nothing is awaited any more. -/
theorem of_superseded (h : w.Attended) (hl : w'.lookups = w.lookups)
    (ht : ∀ c, w.session.tickets.current c < w'.session.tickets.current c)
    (hv : w'.session.view.isLoading = false) : w'.Attended := by
  -- Every ticket has a number of before, and its channel has counted past it.
  have hstale : ∀ l, ¬ w'.Awaits l := by
    intro l hawait
    have hle := h.number_le l (hl ▸ hawait.1)
    have hlt := ht l.ticket.channel
    have hcurrent := of_decide_eq_true hawait.2
    omega
  exact {
    number_le := by
      intro l hmem
      exact Nat.le_trans (h.number_le l (hl ▸ hmem)) (Nat.le_of_lt (ht _))
    nodup := by rw [hl]; exact h.nodup
    needs := by rw [hl]; exact h.needs
    tool := by rw [hl]; exact h.tool
    shown := fun l hawait => absurd hawait (hstale l)
    loading := fun hloading => by rw [hv] at hloading; cases hloading }

/-- All channels count on, and a lookup is started for the answer that is shown: it is the only one
that is awaited. -/
theorem of_asked (h : w.Attended) {l : Lookup} (hl : w'.lookups = w.lookups ++ [l])
    (ht : ∀ c, w.session.tickets.current c < w'.session.tickets.current c)
    (hk : w'.session.tickets.isCurrent l.ticket = true)
    (hneeds : l.answer.needsLookup = true ∧ l.answer.isLoading = true)
    (htool : l.answer.tool = l.ticket.channel.tool)
    (hv : w'.session.view.answer? = some l.answer) : w'.Attended := by
  have hnumber : w'.session.tickets.current l.ticket.channel = l.ticket.number :=
    of_decide_eq_true hk
  have hold : ∀ l' ∈ w.lookups,
      l'.ticket.number < w'.session.tickets.current l'.ticket.channel :=
    fun l' hmem => Nat.lt_of_le_of_lt (h.number_le l' hmem) (ht _)
  have hcases : ∀ l' ∈ w'.lookups, l' ∈ w.lookups ∨ l' = l := by
    intro l' hmem
    rw [hl, List.mem_append, List.mem_singleton] at hmem
    exact hmem
  -- The channels have counted past all tickets but the new one.
  have hawaits : ∀ l', w'.Awaits l' → l' = l := by
    rintro l' ⟨hmem, hcurrent⟩
    rcases hcases l' hmem with hmem | rfl
    · have := hold l' hmem
      have := of_decide_eq_true hcurrent
      omega
    · rfl
  have hmem : l ∈ w'.lookups := by
    rw [hl]
    exact List.mem_append_right _ (List.mem_singleton_self l)
  exact {
    number_le := by
      intro l' hmem'
      rcases hcases l' hmem' with hmem' | rfl
      · exact Nat.le_of_lt (hold l' hmem')
      · exact Nat.le_of_eq hnumber.symm
    nodup := by
      rw [hl, List.map_append, List.nodup_append]
      refine ⟨h.nodup, by simp, ?_⟩
      intro k hk' k' hk''
      obtain ⟨l', hmem', rfl⟩ := List.mem_map.mp hk'
      rw [List.map_singleton, List.mem_singleton] at hk''
      subst hk''
      intro heq
      have := hold l' hmem'
      rw [heq, hnumber] at this
      exact Nat.lt_irrefl _ this
    needs := by
      intro l' hmem'
      rcases hcases l' hmem' with hmem' | rfl
      · exact h.needs l' hmem'
      · exact hneeds
    tool := by
      intro l' hmem'
      rcases hcases l' hmem' with hmem' | rfl
      · exact h.tool l' hmem'
      · exact htool
    shown := by
      intro l' hawait
      rw [hawaits l' hawait]
      exact hv
    loading := fun _ => ⟨l, hmem, hk⟩ }

/-- Operations keep lookups attended. -/
theorem of_performs (h : w.Attended) (hfits : w.session.view.Fits) {e : Surroundings}
    {op : Operation} {f : Effect} (hf : w.session.Performs e op f) : (w.absorb f).Attended := by
  cases hf with
  | stays _ _ _ => exact h.of_kept (List.append_nil _) rfl (Or.inl rfl)
  | selects _ _ _ _ => exact h.of_kept (List.append_nil _) rfl (Or.inl rfl)
  | replaces _ hv _ =>
      refine h.of_superseded (List.append_nil _) (fun c => by simp [absorb, Session.replaceView]) ?_
      rcases hv with rfl | ⟨t, rfl⟩ <;> rfl
  | ignores _ => exact h.of_kept (List.append_nil _) rfl (Or.inl rfl)
  | reads _ _ =>
      exact h.of_superseded (List.append_nil _)
        (fun c => by simp [absorb, Session.changed, Session.reading])
        (View.isLoading_ofText _ _ _ _)
  | asks _ _ hm ha htool hneeds =>
      refine h.of_asked rfl (Tickets.current_lt_begin _ _) (Tickets.isCurrent_ticket _ _)
        ⟨?_, ?_⟩ ?_ ?_
      · rw [Answer.needsLookup_markLoading, hneeds]
      · exact Answer.isLoading_markLoading hneeds
      · rw [Answer.tool_markLoading, htool]
        rfl
      · exact View.answer?_withAnswer hm _
  | fails _ _ hm ha htool hneeds =>
      refine h.of_superseded (List.append_nil _) (Tickets.current_lt_begin _ _) ?_
      exact (View.isLoading_withAnswer hm _).trans (Answer.isLoading_withError _ _)
  | turns hc _ =>
      exact h.of_kept (List.append_nil _) rfl (Or.inr ⟨View.isLoading_of_countdown? hc,
        View.isLoading_of_countdown? (View.countdown?_withCountdown hc _)⟩)
  | stops _ => exact h.of_kept (List.append_nil _) rfl (Or.inl rfl)
  | sets hm htool hc _ =>
      exact h.of_kept (List.append_nil _) rfl (Or.inr ⟨hfits.isLoading_of_timer hm htool,
        View.isLoading_withAnswer hm _⟩)
  | resets hc _ =>
      exact h.of_kept (List.append_nil _) rfl (Or.inr ⟨View.isLoading_of_countdown? hc,
        View.isLoading_of_countdown? (View.countdown?_withCountdown hc _)⟩)

/-! ### Settlements -/

/-- An awaited lookup brings the answer that is shown to its end. -/
theorem effect_settle (h : w.Attended) (hfits : w.session.view.Fits) {l : Lookup}
    (hl : w.Awaits l) (services : Services) :
    w.effect (.settle l.ticket services) =
      Session.changed { w.session with
        view := w.session.view.withAnswer (l.answer.resolve services) } := by
  obtain ⟨m, hm, ha⟩ := View.answer?_eq_some_iff.mp (h.shown l hl)
  have htool : l.answer.tool = m.tool := hfits m l.answer hm ha
  have haccept : w.session.tickets.accept? w.session.view l.ticket (l.answer.resolve services) =
      some (w.session.view.withAnswer (l.answer.resolve services)) :=
    Session.accept?_of_isCurrent hl.2 hm (htool.symm.trans (h.tool l hl.1))
      ((Answer.tool_resolve services l.answer).trans htool)
  simp [effect, h.find?_eq hl.1, Session.settle, haccept]

/-- A lookup that is not awaited brings nothing. -/
theorem effect_settle_of_not_awaits {k : Ticket} (hk : ∀ l, w.Awaits l → l.ticket ≠ k)
    (services : Services) : w.effect (.settle k services) = w.session.unchanged := by
  cases hfind : w.lookups.find? (·.ticket = k) with
  | none => simp [effect, hfind]
  | some l =>
      have hticket : l.ticket = k := by simpa using List.find?_some hfind
      have hstale : w.session.tickets.isCurrent k = false := by
        rw [← Bool.not_eq_true]
        intro hcurrent
        exact hk l ⟨List.mem_of_find?_eq_some hfind, hticket ▸ hcurrent⟩ hticket
      simp [effect, hfind, Session.settle, Tickets.accept?, hstale]

/-- Lookups go away, and the counts stay. -/
theorem of_sublist (h : w.Attended) (hl : w'.lookups.Sublist w.lookups)
    (ht : w'.session.tickets = w.session.tickets)
    (hshown : ∀ l, w'.Awaits l → w'.session.view.answer? = some l.answer)
    (hloading : w'.session.view.isLoading = true → ∃ l, w'.Awaits l) : w'.Attended where
  number_le := fun l hmem => by rw [ht]; exact h.number_le l (hl.subset hmem)
  nodup := h.nodup.sublist (hl.map _)
  needs := fun l hmem => h.needs l (hl.subset hmem)
  tool := fun l hmem => h.tool l (hl.subset hmem)
  shown := hshown
  loading := hloading

/-- Settlements keep lookups attended, whatever the services say. -/
theorem of_settle (h : w.Attended) (hfits : w.session.view.Fits) (k : Ticket)
    (services : Services) : (w.step (.settle k services)).Attended := by
  have hsub : (w.step (.settle k services)).lookups.Sublist w.lookups := by
    rw [lookups_settle]
    exact List.filter_sublist
  have ht := w.tickets_step_settle k services
  have hawaits : ∀ l, (w.step (.settle k services)).Awaits l ↔ w.Awaits l ∧ l.ticket ≠ k := by
    intro l
    simp [Awaits, lookups_settle, ht, and_right_comm]
  by_cases hk : ∃ l, w.Awaits l ∧ l.ticket = k
  · obtain ⟨l, hl, rfl⟩ := hk
    -- The lookup that was awaited has gone, and there was no second one.
    have hnone : ∀ l', ¬ (w.step (.settle l.ticket services)).Awaits l' := by
      intro l' hl'
      obtain ⟨hbefore, hne⟩ := (hawaits l').mp hl'
      exact hne (congrArg Lookup.ticket (h.unique hbefore hl))
    have hquiet : (w.step (.settle l.ticket services)).session.view.isLoading = false := by
      obtain ⟨m, hm, -⟩ := View.answer?_eq_some_iff.mp (h.shown l hl)
      rw [session_step, h.effect_settle hfits hl]
      exact (View.isLoading_withAnswer hm _).trans
        (Answer.isLoading_resolve services (h.needs l hl.1).1)
    refine h.of_sublist hsub ht (fun l' hl' => absurd hl' (hnone l')) (fun hloading => ?_)
    rw [hquiet] at hloading
    cases hloading
  · have hne : ∀ l, w.Awaits l → l.ticket ≠ k := fun l hl heq => hk ⟨l, hl, heq⟩
    have hsession : (w.step (.settle k services)).session = w.session := by
      rw [session_step, effect_settle_of_not_awaits hne]
      rfl
    refine h.of_sublist hsub ht (fun l hl => ?_) (fun hloading => ?_)
    · rw [hsession]
      exact h.shown l ((hawaits l).mp hl).1
    · rw [hsession] at hloading
      obtain ⟨l, hl⟩ := h.loading hloading
      exact ⟨l, (hawaits l).mpr ⟨hl, hne l hl⟩⟩

/-- Ticks keep lookups attended. -/
theorem of_tick (h : w.Attended) (n : Nat) : (w.step (.tick n)).Attended := by
  refine h.of_kept (w.lookups_tick n) (w.tickets_step_tick n) ?_
  rw [session_step]
  rcases w.effect_tick_cases n with h | h
  · rw [h]
    exact Or.inl rfl
  · rw [h]
    rcases w.session.tick_cases n with ⟨hv, -⟩ | ⟨c, hc, -, hv, -⟩
    · rw [hv]
      exact Or.inl rfl
    · rw [hv]
      exact Or.inr ⟨View.isLoading_of_countdown? hc,
        View.isLoading_of_countdown? (View.countdown?_withCountdown hc _)⟩

end Attended

/-- Lookups are attended wherever a session can come to. -/
theorem Reachable.attended {w : World} (h : Reachable w) : w.Attended := by
  refine h.induction (P := Attended) Attended.start (fun w m hreach hw => ?_)
  cases m with
  | perform e op => exact hw.of_performs hreach.fits (w.session.performs e op)
  | tick n => exact hw.of_tick n
  | settle k services => exact hw.of_settle hreach.fits k services

/-! ### Marked answers and awaited lookups -/

/-- **An answer is marked as loading exactly while a lookup is awaited.** There is never more than
one such lookup. It is on the channel of the tool that is shown, it was started for the very answer
that is shown, and whatever the services say, it replaces this answer by one that is marked no
longer. -/
theorem loading_iff_awaits (moves : List Move) :
    let w := initial.run moves
    (w.session.view.isLoading = true ↔ ∃ l, w.Awaits l) ∧
      (w.lookups.filter fun l => w.session.tickets.isCurrent l.ticket).length ≤ 1 ∧
      ∀ l, w.Awaits l →
        (∃ m, w.session.view.active = some m ∧ m.tool = l.ticket.channel.tool ∧
          m.answer = some l.answer) ∧
        ∀ services, (w.step (.settle l.ticket services)).session.view.answer? =
            some (l.answer.resolve services) ∧
          (w.step (.settle l.ticket services)).session.view.isLoading = false := by
  intro w
  have hreach : Reachable w := reachable_run moves
  have h : w.Attended := hreach.attended
  refine ⟨⟨h.loading, ?_⟩, ?_, ?_⟩
  · rintro ⟨l, hl⟩
    rw [View.isLoading_of_answer? (h.shown l hl)]
    exact (h.needs l hl.1).2
  · exact h.length_awaited_le_one
  · intro l hl
    obtain ⟨m, hm, ha⟩ := View.answer?_eq_some_iff.mp (h.shown l hl)
    have htool : l.answer.tool = m.tool := hreach.fits m l.answer hm ha
    refine ⟨⟨m, hm, htool.symm.trans (h.tool l hl.1), ha⟩, fun services => ?_⟩
    rw [session_step, h.effect_settle hreach.fits hl]
    exact ⟨View.answer?_withAnswer hm _, (View.isLoading_withAnswer hm _).trans
      (Answer.isLoading_resolve services (h.needs l hl.1).1)⟩

end World

end Composer
