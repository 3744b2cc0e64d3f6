/-
TaskTimer.Task.Record — what is known of one task, and of one execution of it.

A task's record holds its state, the deadline it is queued for, how it repeats and how often it
has been started. `Task.cancel?` is the only change a holder of the task can make to it.
-/
import TaskTimer.Task.Period
import TaskTimer.Task.State

namespace TaskTimer

/-- What is known of a task. -/
structure Task where
  state : TaskState := .created
  /-- The deadline the task is, or was last, queued for. -/
  next : Option Instant := none
  period : Period := .once
  /-- How many times a timer has started the task. The number is not bounded here; one of 64 bits
would last for five hundred years of an execution every nanosecond. -/
  executions : Nat := 0
deriving DecidableEq

namespace Task

/-- The task called off, unless it has ended already. -/
def cancel? (task : Task) : Option Task :=
  if task.state.canBecome .cancelled then some { task with state := .cancelled } else none

/-- The deadline of the latest execution. Before the first one it is the deadline to come, and a
task that was never scheduled has none. -/
def latestDeadline (task : Task) : Option Instant :=
  match task.next with
  | none => none
  | some next =>
    match task.period.every? with
    | none => some next
    | some every => if task.executions = 0 then some next else next.sub? every

/-- The latest deadline of a task that has not run is the one to come. -/
theorem latestDeadline_of_fresh {x : Task} (h : x.executions = 0) : x.latestDeadline = x.next := by
  unfold latestDeadline
  cases x.next with
  | none => rfl
  | some due => cases x.period.every? <;> simp [h]

/-- So is that of a task that runs once. -/
theorem latestDeadline_of_once {x : Task} (h : x.period = .once) : x.latestDeadline = x.next := by
  unfold latestDeadline
  cases x.next with
  | none => rfl
  | some due => simp [h, Period.every?]

/-- Once a task that repeats has run, it is the one a period before that to come. -/
theorem latestDeadline_of_repeats {x : Task} {due : Instant} {every : Duration}
    (hnext : x.next = some due) (hevery : x.period.every? = some every) (hran : x.executions ≠ 0) :
    x.latestDeadline = due.sub? every := by
  simp [latestDeadline, hnext, hevery, hran]

end Task

/-- One execution of a task, as its body gets to see it. -/
structure Firing (ι : Type) where
  task : ι
  /-- The deadline the execution was scheduled for. -/
  due : Instant
  /-- When the timer decided to fire it. -/
  firedAt : Instant
  period : Period
  /-- Executions are numbered from 1, without a bound (`Task.executions`). -/
  execution : Nat
deriving DecidableEq

namespace Firing

variable {ι : Type}

/-- How far behind its deadline the execution started. -/
def lateness (f : Firing ι) : Duration := f.due.lengthTo f.firedAt

/-- The largest number of microseconds that is told apart. -/
def maxLatenessMicros : Nat := 18446744073709551615

/-- The lateness in whole microseconds. -/
def latenessMicros (f : Firing ι) : Nat := min f.lateness.micros maxLatenessMicros

end Firing

end TaskTimer
