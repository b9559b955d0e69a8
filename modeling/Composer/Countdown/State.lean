import Composer.Countdown.Duration
/-!
# Composer.Countdown.State

**A countdown.** It is idle until it is started, then it runs until it is paused or complete. Each
second that passes while it runs is one `tick`. Operations that the phase does not allow are
refused and give `none`.
-/

namespace Composer

/-- A countdown. -/
structure Countdown where
  /-- How many seconds it takes. -/
  total : Nat
  /-- How many seconds are left. -/
  remaining : Nat
  /-- Whether seconds count. -/
  isRunning : Bool
  /-- Whether it was started and then stopped for a while. -/
  isPaused : Bool
  /-- Whether it has come to its end. -/
  isComplete : Bool
  /-- What it is for. -/
  label : Option String
  /-- The seconds that are left, as a host shows them. -/
  display : String
  /-- The share of the seconds that are left. -/
  progress : Float
deriving DecidableEq

namespace Countdown

/-- What a countdown is doing. -/
inductive Phase where
  | idle
  | running
  | paused
  | complete
deriving DecidableEq, Repr

/-- The name of a phase. -/
def Phase.name : Phase → String
  | idle => "idle"
  | running => "running"
  | paused => "paused"
  | complete => "complete"

/-- The phase of a countdown. -/
def phase (c : Countdown) : Phase :=
  if c.isComplete then .complete
  else if c.isRunning then .running
  else if c.isPaused then .paused
  else .idle

/-- The share of the seconds that are left; none are left of nothing. -/
def share (remaining total : Nat) : Float :=
  if total = 0 then 0 else remaining.toFloat / total.toFloat

/-- The countdown with what is shown brought up to date. -/
def refresh (c : Countdown) : Countdown :=
  { c with display := durationText c.remaining, progress := share c.remaining c.total }

@[simp] theorem total_refresh (c : Countdown) : c.refresh.total = c.total := rfl

@[simp] theorem remaining_refresh (c : Countdown) : c.refresh.remaining = c.remaining := rfl

@[simp] theorem phase_refresh (c : Countdown) : c.refresh.phase = c.phase := rfl

@[simp] theorem display_refresh (c : Countdown) :
    c.refresh.display = durationText c.remaining := rfl

/-- An idle countdown. One of no seconds is complete. -/
def ofSeconds (total : Nat) (label : Option String) : Countdown :=
  refresh {
    total := total
    remaining := total
    isRunning := false
    isPaused := false
    isComplete := total = 0
    label := label
    display := ""
    progress := 0 }

/-- An idle countdown of another duration, which has to be positive. -/
def setDuration? (c : Countdown) (seconds : Nat) : Option Countdown :=
  if seconds = 0 ∨ c.phase ≠ .idle then none
  else some (refresh { c with total := seconds, remaining := seconds })

/-- Starts an idle countdown. -/
def start? (c : Countdown) : Option Countdown :=
  if c.phase = .idle then some { c with isRunning := true } else none

/-- Pauses a running countdown and resumes a paused one. -/
def toggle? (c : Countdown) : Option Countdown :=
  match c.phase with
  | .running => some { c with isRunning := false, isPaused := true }
  | .paused => some { c with isRunning := true, isPaused := false }
  | .idle | .complete => none

/-- Back to the beginning. -/
def reset (c : Countdown) : Countdown :=
  refresh { c with
    remaining := c.total
    isRunning := false
    isPaused := false
    isComplete := c.total = 0 }

/-- True of a countdown for which seconds count. -/
def ticks (c : Countdown) : Bool :=
  c.isRunning && !c.isComplete

/-- The countdown one second later. -/
def tick (c : Countdown) : Countdown :=
  if c.ticks then
    let left := c.remaining - 1
    refresh { c with
      remaining := left
      isRunning := if left = 0 then false else c.isRunning
      isComplete := if left = 0 then true else c.isComplete }
  else c

@[simp] theorem total_tick (c : Countdown) : c.tick.total = c.total := by
  unfold tick
  split <;> rfl

/-- A second counts once, and only while the countdown runs. -/
theorem remaining_tick (c : Countdown) :
    c.tick.remaining = if c.ticks then c.remaining - 1 else c.remaining := by
  unfold tick
  split <;> rfl

/-- True when the next second brings the countdown to its end. -/
def completes (c : Countdown) : Bool :=
  c.ticks && c.remaining - 1 = 0

/-- The answer to a duration typed into the tool. -/
def detect (input : List Char) : Option Countdown :=
  (typed? input).map fun (seconds, label) => ofSeconds seconds label

end Countdown

end Composer
