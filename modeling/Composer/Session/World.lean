import Composer.Session.Operation
/-!
# Composer.Session.World

**A session among everything that runs beside it.** A `World` remembers which intervals were ever
started and which lookups are on their way, so that any of them can act at any later time. A `Move`
is one thing that happens: an operation of the host, a tick of any interval that was ever started,
or the settlement of a lookup, whatever the services say. A run of the program is a list of moves.
-/

namespace Composer

/-- A session and what runs beside it. -/
structure World where
  /-- The session. -/
  session : Session
  /-- The epochs of all intervals that were started. -/
  intervals : List Nat
  /-- The lookups that have not settled, the earliest one first. -/
  lookups : List Lookup
  /-- The questions that the services were asked, the earliest one first. -/
  queries : List Query
  /-- The events that were emitted, the earliest one first. -/
  log : List Event
  /-- The texts that the clipboard took, the earliest one first. -/
  clipboard : List String
deriving DecidableEq

/-- One thing that happens. -/
inductive Move where
  /-- The host does something. -/
  | perform (e : Surroundings) (op : Operation)
  /-- An interval ticks. -/
  | tick (epoch : Nat)
  /-- A lookup settles. -/
  | settle (k : Ticket) (services : Services)

namespace World

/-- The world at the start of a session. -/
def initial : World :=
  ⟨.initial, [], [], [], [], []⟩

/-- The world after an effect of its session. -/
def absorb (w : World) (f : Effect) : World where
  session := f.session
  intervals :=
    if f.session.interval = w.session.interval then w.intervals
    else w.intervals ++ f.session.interval.toList
  lookups := w.lookups ++ f.lookup.toList
  queries := w.queries ++ (f.lookup.bind fun l => l.answer.query?).toList
  log := w.log ++ f.events
  clipboard := w.clipboard ++ f.copied.toList

/-- The world after a move. A tick of an interval that was never started and the settlement of a
lookup that is not on its way change nothing. -/
def step (w : World) : Move → World
  | .perform e op => w.absorb (w.session.perform e op)
  | .tick epoch => if epoch ∈ w.intervals then w.absorb (w.session.tick epoch) else w
  | .settle k services =>
    match w.lookups.find? (·.ticket = k) with
    | none => w
    | some l =>
      let rest := { w with lookups := w.lookups.filter (·.ticket ≠ k) }
      rest.absorb (w.session.settle k (l.answer.resolve services))

/-- The world after several moves. -/
def run (w : World) (moves : List Move) : World :=
  moves.foldl step w

/-- The worlds that a session can come to. -/
def Reachable (w : World) : Prop :=
  ∃ moves, initial.run moves = w

@[simp] theorem run_nil (w : World) : w.run [] = w := rfl

@[simp] theorem run_cons (w : World) (m : Move) (moves : List Move) :
    w.run (m :: moves) = (w.step m).run moves := rfl

@[simp] theorem run_append (w : World) (before after : List Move) :
    w.run (before ++ after) = (w.run before).run after :=
  List.foldl_append

/-- The start can be reached. -/
theorem reachable_initial : Reachable initial :=
  ⟨[], rfl⟩

/-- What can be reached stays so after one more move. -/
theorem Reachable.step {w : World} (h : Reachable w) (m : Move) : Reachable (w.step m) := by
  obtain ⟨moves, rfl⟩ := h
  exact ⟨moves ++ [m], by simp⟩

/-- What holds at the start and is kept by every move holds wherever a session can come to. -/
theorem Reachable.invariant {P : World → Prop} (start : P initial)
    (kept : ∀ w m, P w → P (w.step m)) {w : World} (h : Reachable w) : P w := by
  obtain ⟨moves, rfl⟩ := h
  have : ∀ moves w, P w → P (w.run moves) := by
    intro moves
    induction moves with
    | nil => exact fun _ hw => hw
    | cons m _ ih => exact fun w hw => ih _ (kept w m hw)
  exact this moves initial start

end World

end Composer
