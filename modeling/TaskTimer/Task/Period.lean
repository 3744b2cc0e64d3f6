/-
TaskTimer.Task.Period — how a task repeats.

A task runs once, or at a fixed rate (each deadline follows the one before, so late runs are
made up for), or with a fixed delay (each deadline follows the moment the task fired, so they
never are). `Period.next?` is that rule; `Period.toMillis` writes the three modes as one
signed number.
-/
import TaskTimer.Time.Instant

namespace TaskTimer

/-- The two ways to repeat. -/
inductive RepeatMode where
  | fixedRate
  | fixedDelay
deriving DecidableEq

/-- How a task repeats after it fires. -/
inductive Period where
  | once
  | fixedRate (every : Duration)
  | fixedDelay (every : Duration)
deriving DecidableEq

namespace RepeatMode

/-- Repetition in this mode. -/
def period : RepeatMode → Duration → Period
  | .fixedRate, d => .fixedRate d
  | .fixedDelay, d => .fixedDelay d

end RepeatMode

namespace Period

/-- The period of a task that no one has scheduled. -/
def initial : Period := .once

/-- Whether the task fires more than once. -/
def repeats : Period → Bool
  | .once => false
  | .fixedRate _ | .fixedDelay _ => true

/-- The largest magnitude that `toMillis` gives. -/
def maxMillis : Nat := 9223372036854775807

/-- Zero for a task that runs once, the whole milliseconds of the period at a fixed rate, and
their negation with a fixed delay. -/
def toMillis : Period → Int
  | .once => 0
  | .fixedRate d => (min d.millis maxMillis : Nat)
  | .fixedDelay d => -(min d.millis maxMillis : Nat)

/-- The deadline that follows one of `due` fired at `now`; there is none after a single run. -/
def next? : Period → (due now : Instant) → Option Instant
  | .once, _, _ => none
  | .fixedRate d, due, _ => some (due.after d)
  | .fixedDelay d, _, now => some (now.after d)

/-- The time between two runs, if the task repeats. -/
def every? : Period → Option Duration
  | .once => none
  | .fixedRate d => some d
  | .fixedDelay d => some d

end Period

end TaskTimer
