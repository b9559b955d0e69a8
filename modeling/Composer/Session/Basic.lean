import Composer.Lookup.Service
import Composer.Session.Event
import Composer.Session.Ticket
import Composer.Settings.Basic
/-!
# Composer.Session.Basic

**A session.** It holds the view, the counts of the lookups and the interval of the countdown.
Three kinds of things happen to it: operations of the host, ticks of intervals, and lookups that
settle. Ticks and lookups may come late, and a session tells them by numbers: an interval carries
the *epoch* in which it was started, and a lookup carries its ticket.

Nothing here waits or runs by itself. An operation says in its `Effect` which events it emits, which
lookup it starts and which text the clipboard took; whoever runs the session delivers the ticks and
settles the lookups.
-/

namespace Composer

/-- What a session holds. -/
structure Session where
  /-- What the host shows. -/
  view : View
  /-- The counts of the lookups. -/
  tickets : Tickets
  /-- The number of times the interval was started or stopped. -/
  epoch : Nat
  /-- The epoch of the interval that the session owns. -/
  interval : Option Nat
deriving DecidableEq

/-- What an operation depends on besides the session and its arguments. -/
structure Surroundings where
  /-- The settings. -/
  settings : Settings
  /-- The present in seconds since the start of 1970. -/
  now : Int
  /-- The seed of everything random. -/
  seed : UInt64
  /-- Whether intervals and lookups can be started. -/
  canWait : Bool
  /-- Whether the clipboard takes texts. -/
  canCopy : Bool

/-- A lookup on its way: its ticket, and the answer that it completes. -/
structure Lookup where
  /-- The ticket. -/
  ticket : Ticket
  /-- The answer at the start of the lookup. -/
  answer : Answer
deriving DecidableEq

/-- What an operation, a tick or a settled lookup leads to. -/
structure Effect where
  /-- The session afterwards. -/
  session : Session
  /-- The events, the earliest one first. -/
  events : List Event := []
  /-- The lookup that was started. -/
  lookup : Option Lookup := none
  /-- The text that the clipboard took. -/
  copied : Option String := none
deriving DecidableEq

/-- What a detection depends on in these surroundings. -/
def Surroundings.context (e : Surroundings) : Context :=
  ⟨e.now, e.seed, e.settings.targetLanguage⟩

namespace Session

/-- A session at its start. -/
def initial : Session :=
  ⟨.hidden, .initial, 0, none⟩

/-- Nothing happens. -/
def unchanged (s : Session) : Effect :=
  { session := s }

/-- The session is another one, and its view is announced. -/
def changed (s : Session) : Effect :=
  { session := s, events := [.viewChanged s.view] }

/-! ### The interval -/

/-- Stops the interval. A tick that is on its way comes from an epoch that has passed. -/
def stopInterval (s : Session) : Session :=
  { s with epoch := s.epoch + 1, interval := none }

/-- Starts the interval of a countdown that was put into motion, in a new epoch. Where no interval
can be started, `undo` is the countdown that is shown instead. -/
def startInterval (s : Session) (canWait : Bool) (undo : Countdown) : Session :=
  if canWait then { s with epoch := s.epoch + 1, interval := some (s.epoch + 1) }
  else { s with
    epoch := s.epoch + 1
    interval := none
    view := s.view.withCountdown undo }

/-- A tick of the interval of an epoch. It counts only in the present epoch and while the countdown
runs; the tick that completes the countdown ends the interval. -/
def tick (s : Session) (epoch : Nat) : Effect :=
  if s.epoch ≠ epoch then s.unchanged
  else match s.view.countdown?.filter (·.isRunning) with
    | none => unchanged { s with interval := none }
    | some c =>
      let view := s.view.withCountdown c.tick
      let interval := if c.completes then none else s.interval
      { session := { s with view := view, interval := interval }
        events :=
          [.ticked c.tick] ++ (if c.completes then [.completed c.label c.total] else []) ++
            [.viewChanged view] }

/-! ### Lookups -/

/-- Starts the lookup that the view needs: the answer is marked, and the lookup gets a ticket. -/
def beginLookup (s : Session) : Session × Option Lookup :=
  match s.view.active.bind fun m => m.tool.channel?, s.view.answer? with
  | some channel, some answer =>
    if answer.needsLookup then
      let tickets := s.tickets.begin channel
      let answer := answer.markLoading
      ({ s with view := s.view.withAnswer answer, tickets := tickets },
        some ⟨tickets.ticket channel, answer⟩)
    else (s, none)
  | _, _ => (s, none)

/-- A lookup has brought an answer. -/
def settle (s : Session) (k : Ticket) (brought : Answer) : Effect :=
  match s.tickets.accept? s.view k brought with
  | some view => changed { s with view := view }
  | none => s.unchanged

end Session

end Composer
