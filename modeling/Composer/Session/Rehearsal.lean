import Composer.Session.World
/-!
# Composer.Session.Rehearsal

**A run under a clock and with scripted services.** Time passes only when it is told to, in
milliseconds, and the interval of the session ticks on it. Every service has a script with one
outcome for each question; a question whose outcome is held back settles when it is released. All
that happens is a sequence of moves of the world.
-/

namespace Composer

/-- What a service says to a question by its script; `none` holds the outcome back. -/
abbrev Cue := Option Services

/-- The services that all fail for one reason. -/
def Services.failing (e : LookupError) : Services :=
  ⟨fun _ _ => .error e, fun _ _ _ => .error e, fun _ => .error e⟩

/-- A question whose outcome is held back. -/
structure Held where
  /-- The number of the question on its channel, from nought. -/
  number : Nat
  /-- The ticket of its lookup. -/
  ticket : Ticket
deriving DecidableEq, Repr

/-- A run under a clock. -/
structure Rehearsal where
  /-- The world. -/
  world : World
  /-- The surroundings of the next operations. -/
  surroundings : Surroundings
  /-- The scripts of the services. -/
  script : Channel → List Cue
  /-- The time in milliseconds. -/
  clock : Nat
  /-- When the interval ticks next. -/
  due : Nat
  /-- The questions whose outcomes are held back. -/
  held : List Held

namespace Rehearsal

/-- A run at its start. -/
def start (e : Surroundings) (script : Channel → List Cue) : Rehearsal :=
  ⟨.initial, e, script, 0, 0, []⟩

/-- The cue for a question. A script that has come to its end says that the service is not
available. -/
def cue (r : Rehearsal) (c : Channel) (number : Nat) : Cue :=
  (r.script c)[number]?.getD (some (.failing (.status 503)))

/-- The run after the outcome of the lookup that was started last. -/
def answerLookup (r : Rehearsal) (l : Lookup) (number : Nat) : Rehearsal :=
  match r.cue l.ticket.channel number with
  | some services => { r with world := r.world.step (.settle l.ticket services) }
  | none => { r with held := r.held ++ [⟨number, l.ticket⟩] }

/-- The run after an operation and everything that follows from it without time. -/
def perform (r : Rehearsal) (op : Operation) : Rehearsal :=
  let before := r.world
  let after := before.step (.perform r.surroundings op)
  let due :=
    if after.session.interval = before.session.interval then r.due
    else r.clock + r.surroundings.settings.tickMilliseconds
  let r := { r with world := after, due := due }
  match after.lookups.drop before.lookups.length with
  | l :: _ => r.answerLookup l (before.queries.countP (·.channel = l.ticket.channel))
  | [] => r

/-- The run after the ticks up to a time. Every tick takes the due time on by one period. -/
def tickUntil (r : Rehearsal) (time : Nat) : Rehearsal :=
  let period := r.surroundings.settings.tickMilliseconds
  match r.world.session.interval with
  | none => r
  | some epoch =>
    if r.due ≤ time ∧ 0 < period then
      { r with
        world := r.world.step (.tick epoch)
        due := r.due + period }.tickUntil time
    else r
  termination_by time + 1 - r.due
  decreasing_by simp only [period] at *; omega

/-- The run after some time has passed. -/
def sleep (r : Rehearsal) (milliseconds : Nat) : Rehearsal :=
  let time := r.clock + milliseconds
  { r.tickUntil time with clock := time }

/-- The run after the outcome of a question that was held back; `none` if there is no such
question. -/
def release? (r : Rehearsal) (c : Channel) (number : Nat) (services : Services) :
    Option Rehearsal :=
  let isIt (h : Held) : Bool := h.ticket.channel = c && h.number = number
  (r.held.find? isIt).map fun h =>
    { r with
      world := r.world.step (.settle h.ticket services)
      held := r.held.filter (!isIt ·) }

end Rehearsal

end Composer
