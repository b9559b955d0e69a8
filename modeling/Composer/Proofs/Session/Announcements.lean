import Composer.Session.Bus
import Composer.Proofs.Session.Run
/-!
# Composer.Proofs.Session.Announcements

**Whoever keeps the last announcement sees what the session shows.** A move that changes the view
announces it, and what it announces last is the view that it leaves behind (`Effect.Announces`).
Operations that are refused or ignored, ticks that come late and lookups that are not wanted any
more change nothing. So the last message on the topic of changed views always carries the present
view (`World.bus_mirrors_view`).
-/

namespace Composer

/-- The view that an event announces. -/
def Event.shown? : Event → Option View
  | .viewChanged v => some v
  | _ => none

/-- The views that events announce, the earliest one first. -/
def shownViews (events : List Event) : List View :=
  events.filterMap Event.shown?

theorem shownViews_append (before after : List Event) :
    shownViews (before ++ after) = shownViews before ++ shownViews after :=
  List.filterMap_append

theorem shownViews_eq_nil {events : List Event} (h : ∀ ev ∈ events, ev.shown? = none) :
    shownViews events = [] :=
  List.filterMap_eq_nil_iff.mpr h

/-- An effect on a view: the last announcement is the view afterwards, or there is none and the view
is the one of before. -/
def Effect.Announces (f : Effect) (before : View) : Prop :=
  (shownViews f.events).getLast? = some f.session.view ∨
    shownViews f.events = [] ∧ f.session.view = before

namespace Session

theorem announces_perform {s : Session} {e : Surroundings} {op : Operation} {f : Effect}
    (h : s.Performs e op f) : f.Announces s.view := by
  cases h with
  | stays _ _ hcopied =>
      refine Or.inr ⟨shownViews_eq_nil fun ev hev => ?_, rfl⟩
      subst hcopied
      obtain ⟨text, -, rfl⟩ := List.mem_map.mp hev
      rfl
  | @replaces _ v more _ _ hmore =>
      -- The request for an action of the host comes after the announcement, and announces no view.
      have hnone : shownViews more = [] := by
        refine shownViews_eq_nil fun ev hev => ?_
        obtain ⟨command, action, rfl⟩ := hmore ev hev
        rfl
      refine Or.inl ?_
      show (v :: shownViews more).getLast? = some v
      rw [hnone]
      rfl
  | ignores _ => exact Or.inr ⟨rfl, rfl⟩
  | stops _ => exact Or.inr ⟨rfl, rfl⟩
  | selects _ _ _ _ => exact Or.inl rfl
  | reads _ _ => exact Or.inl rfl
  | asks _ _ _ _ _ _ => exact Or.inl rfl
  | fails _ _ _ _ _ _ => exact Or.inl rfl
  | turns _ _ => exact Or.inl rfl
  | sets _ _ _ _ => exact Or.inl rfl
  | resets _ _ => exact Or.inl rfl

theorem announces_tick (s : Session) (n : Nat) : (s.tick n).Announces s.view := by
  rcases s.tick_cases n with ⟨hv, hevents⟩ | ⟨c, -, -, hv, hevents⟩
  · exact Or.inr ⟨by rw [hevents]; rfl, hv⟩
  · refine Or.inl ?_
    rw [hevents, shownViews_append, hv]
    exact List.getLast?_concat

theorem announces_settle (s : Session) (k : Ticket) (a : Answer) :
    (s.settle k a).Announces s.view := by
  rcases s.settle_cases k a with h | ⟨-, -, -, h⟩
  · rw [h]
    exact Or.inr ⟨rfl, rfl⟩
  · rw [h]
    exact Or.inl rfl

end Session

namespace World

theorem announces_effect (w : World) (m : Move) : (w.effect m).Announces w.session.view := by
  cases m with
  | perform e op => exact Session.announces_perform (w.session.performs e op)
  | tick n =>
      rcases w.effect_tick_cases n with h | h
      · rw [h]
        exact Or.inr ⟨rfl, rfl⟩
      · rw [h]
        exact w.session.announces_tick n
  | settle k services =>
      rcases w.effect_settle_cases k services with h | ⟨a, h⟩
      · rw [h]
        exact Or.inr ⟨rfl, rfl⟩
      · rw [h]
        exact w.session.announces_settle k a

/-- What a host knows of the view from the log: the last announcement is the present view, or
nothing was announced and nothing is shown. -/
def Mirrored (w : World) : Prop :=
  (shownViews w.log).getLast? = some w.session.view ∨
    shownViews w.log = [] ∧ w.session.view = .hidden

theorem Mirrored.step {w : World} (h : w.Mirrored) (m : Move) : (w.step m).Mirrored := by
  have hviews : shownViews (w.step m).log =
      shownViews w.log ++ shownViews (w.effect m).events := by
    rw [log_step, shownViews_append]
  unfold Mirrored
  rw [hviews, session_step]
  rcases w.announces_effect m with hlast | ⟨hnone, hsame⟩
  · left
    rw [List.getLast?_append, hlast]
    rfl
  · rw [hnone, hsame, List.append_nil]
    exact h

theorem Reachable.mirrored {w : World} (h : Reachable w) : w.Mirrored :=
  h.invariant (Or.inr ⟨rfl, rfl⟩) (fun _ m hw => hw.step m)

/-! ### Messages -/

/-- The messages that the events of the log put on a bus. -/
def bus (w : World) : Bus :=
  w.log.foldl (fun b ev => b.emit ev.topic ev.payload) .empty

/-- The messages are the events of the log with their payloads, in their order. -/
theorem messages_bus (w : World) : w.bus.messages = w.log.map fun ev => ⟨ev.topic, ev.payload⟩ := by
  have hemit : ∀ (events : List Event) (b : Bus),
      (events.foldl (fun b ev => b.emit ev.topic ev.payload) b).messages =
        b.messages ++ events.map fun ev => ⟨ev.topic, ev.payload⟩ := by
    intro events
    induction events with
    | nil => simp
    | cons ev events ih =>
        intro b
        rw [List.foldl_cons, ih]
        simp [Bus.emit]
  exact hemit w.log .empty

/-- If the events of a topic are those from which something is read, and its record is their
payload, then the messages of the topic are the records of what is read from the log. -/
theorem ofTopic_bus_eq {α : Type} {topic : String} {read : Event → Option α} {record : α → Json}
    (hread : ∀ ev, if ev.topic = topic then ∃ a, read ev = some a ∧ ev.payload = record a
      else read ev = none) (w : World) :
    w.bus.ofTopic topic = (w.log.filterMap read).map fun a => ⟨topic, record a⟩ := by
  rw [Bus.ofTopic, messages_bus]
  induction w.log with
  | nil => rfl
  | cons ev events ih =>
      have hev := hread ev
      by_cases htopic : ev.topic = topic
      · rw [if_pos htopic] at hev
        obtain ⟨a, ha, hpayload⟩ := hev
        simp [htopic, ha, hpayload, ih]
      · rw [if_neg htopic] at hev
        simp [htopic, hev, ih]

/-- The topic of changed views. -/
def viewTopic : String :=
  "contour:state_changed"

/-- On the topic of changed views are the announced views and nothing else, in their order. -/
theorem ofTopic_bus (w : World) :
    w.bus.ofTopic viewTopic = (shownViews w.log).map fun v => ⟨viewTopic, v.encode⟩ :=
  w.ofTopic_bus_eq fun ev => by
    cases ev <;> simp [Event.topic, Event.shown?, Event.payload, viewTopic]

/-- **The last message about the view carries the present view.** After any moves, the payload of
the last message on the topic of changed views is the record of what is shown, or there was no such
message and nothing has ever been shown. Moreover no move changes the view in silence: if what is
shown before and after a move differs, the last view that the move announces is the one shown
afterwards. -/
theorem bus_mirrors_view :
    (∀ moves : List Move,
      let w := initial.run moves
      w.bus.last? "contour:state_changed" = some w.session.view.encode ∨
        w.bus.last? "contour:state_changed" = none ∧ w.session.view = .hidden) ∧
      ∀ (moves : List Move) (m : Move),
        let w := initial.run moves
        (w.step m).session.view ≠ w.session.view →
          (shownViews (w.emitted [m])).getLast? = some (w.step m).session.view := by
  constructor
  · intro moves w
    have hlast : w.bus.last? viewTopic = ((shownViews w.log).getLast?).map View.encode := by
      rw [Bus.last?, ofTopic_bus, List.getLast?_map, Option.map_map]
      rfl
    show w.bus.last? viewTopic = _ ∨ w.bus.last? viewTopic = _ ∧ _
    rcases (reachable_run moves).mirrored with hshown | ⟨hnone, hhidden⟩
    · exact Or.inl (by rw [hlast, hshown]; rfl)
    · exact Or.inr ⟨by rw [hlast, hnone]; rfl, hhidden⟩
  · intro moves m w hne
    rw [session_step] at hne ⊢
    rw [emitted_singleton]
    rcases w.announces_effect m with hlast | ⟨-, hsame⟩
    · exact hlast
    · exact absurd hsame hne

end World

end Composer
