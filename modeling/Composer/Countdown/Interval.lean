/-!
# Composer.Countdown.Interval

**Intervals that call back.** An interval calls back one period after its start and then after
every further period, until it has called often enough or is stopped. The `Scheduler` owns one
interval at most: a new start stops the interval that was owned before. An interval that was
released goes on without an owner. Time is counted in milliseconds and only passes by `sleep`, and
only then is an interval let run. One without a period has nothing to wait for and breaks off there.
-/

namespace Composer.Countdown

/-- An interval. -/
structure Interval where
  /-- The time of the next callback. -/
  due : Nat
  /-- The times of the callbacks so far, the latest one first. -/
  calls : List Nat
  /-- After how many callbacks it ends; nought stands for never. -/
  limit : Nat
  /-- Whether it goes on. -/
  running : Bool
deriving DecidableEq, Repr

namespace Interval

/-- An interval that starts at a time. It was not let run yet. -/
def begin (now period limit : Nat) : Interval where
  due := now + period
  calls := []
  limit := limit
  running := true

/-- An interval that could not start. -/
def refused (now : Nat) : Interval where
  due := now
  calls := []
  limit := 0
  running := false

/-- The interval after a callback at the time it was due. -/
def call (i : Interval) (period : Nat) : Interval where
  due := i.due + period
  calls := i.due :: i.calls
  limit := i.limit
  running := i.calls.length + 1 ≠ i.limit

/-- The interval that was stopped. -/
def stop (i : Interval) : Interval :=
  { i with running := false }

/-- The interval after all callbacks up to a time, that time included. Without a period there is no
callback, and the interval breaks off. -/
def runUntil (i : Interval) (period time : Nat) : Interval :=
  if period = 0 then i.stop
  else if i.running ∧ i.due ≤ time then (i.call period).runUntil period time
  else i
  termination_by time + 1 - i.due
  decreasing_by simp only [call]; omega

end Interval

/-- The owner of an interval. -/
structure Scheduler where
  /-- The milliseconds between callbacks. -/
  period : Nat
  /-- The time. -/
  now : Nat
  /-- All intervals so far, in the order of their starts. -/
  intervals : List Interval
  /-- The position of the interval that is owned. -/
  owned : Option Nat
deriving DecidableEq, Repr

namespace Scheduler

/-- The period of a countdown in milliseconds. -/
def defaultPeriod : Nat := 1000

/-- A scheduler without intervals. -/
def ofPeriod (period : Nat) : Scheduler :=
  ⟨period, 0, [], none⟩

/-- Stops the interval that is owned. -/
def clear (s : Scheduler) : Scheduler :=
  match s.owned with
  | some i => { s with intervals := s.intervals.modify i Interval.stop, owned := none }
  | none => s

/-- Gives the interval up without stopping it. -/
def release (s : Scheduler) : Scheduler :=
  { s with owned := none }

/-- Starts an interval that ends after `limit` callbacks. It is let run when time passes. -/
def spawn (s : Scheduler) (limit : Nat) : Scheduler :=
  let s := s.clear
  { s with
    intervals := s.intervals ++ [Interval.begin s.now s.period limit]
    owned := some s.intervals.length }

/-- A start that is refused. It stops the interval that was owned all the same. -/
def refuse (s : Scheduler) : Scheduler :=
  let s := s.clear
  { s with intervals := s.intervals ++ [Interval.refused s.now] }

/-- Lets time pass. -/
def sleep (s : Scheduler) (milliseconds : Nat) : Scheduler :=
  let now := s.now + milliseconds
  { s with now := now, intervals := s.intervals.map (·.runUntil s.period now) }

/-- Starts an interval and lets everything run that needs no time. -/
def start (s : Scheduler) (limit : Nat) : Scheduler :=
  (s.spawn limit).sleep 0

@[simp] theorem owned_clear (s : Scheduler) : s.clear.owned = none := by
  unfold clear
  split
  · rfl
  · assumption

@[simp] theorem now_sleep (s : Scheduler) (milliseconds : Nat) :
    (s.sleep milliseconds).now = s.now + milliseconds := rfl

/-- True when an interval is owned that goes on. -/
def isActive (s : Scheduler) : Bool :=
  match s.owned with
  | some i => s.intervals[i]?.any (·.running)
  | none => false

end Scheduler

end Composer.Countdown
