/-
TaskTimer.World.Basic — any number of timers, and the tasks they share.

A `World` is a table of timers and a table of tasks. Tasks stand apart from timers because
cancelling a task goes through the task alone and works whichever timer holds it. A timer's
queue holds references to tasks with the deadlines they are queued for.

Every operation is a function from a world to an `Outcome`: an answer, the world afterwards, and
the events it gave rise to.
-/
import TaskTimer.Error
import TaskTimer.Queue.Basic
import TaskTimer.Table
import TaskTimer.Task.Record
import TaskTimer.Time.Wall

namespace TaskTimer

/-- Refers to a task of a world. -/
structure TaskRef where
  index : Nat
deriving DecidableEq

/-- Refers to a timer of a world. -/
structure TimerRef where
  index : Nat
deriving DecidableEq

/-- How far the thread of a timer has come. -/
inductive Stage where
  /-- It is in its loop: between two turns, or in a body. -/
  | going
  /-- It has left its loop for this reason, and has yet to record it. -/
  | leaving (reason : Shutdown TaskRef)
  /-- Its function has returned. -/
  | returned
  /-- A panic has unwound out of its function. -/
  | unwound
deriving DecidableEq

namespace Stage

/-- Whether the thread is over. -/
def isOver : Stage → Bool
  | .going | .leaving _ => false
  | .returned | .unwound => true

/-- The reason that has yet to be recorded. -/
def reason? : Stage → Option (Shutdown TaskRef)
  | .leaving reason => some reason
  | .going | .returned | .unwound => none

end Stage

/-- One timer. -/
structure Timer where
  clock : Clock
  queue : Queue TaskRef := .empty
  /-- Whether tasks may be submitted. It turns false once and stays so. -/
  accepting : Bool := true
  /-- Whether all tasks were called off at once. -/
  cancelled : Bool := false
  /-- Why the timer's thread ended, once that is recorded. -/
  shutdown : Option (Shutdown TaskRef) := none
  stage : Stage := .going
deriving DecidableEq

/-- Something worth noting that happened. -/
inductive Event where
  /-- A timer's thread began. -/
  | threadStarted (timer : TimerRef)
  /-- A timer's thread ended and dropped what was left in its queue. -/
  | threadEnded (timer : TimerRef) (reason : Shutdown TaskRef) (dropped : Nat)
  /-- A task's body is about to run. -/
  | firing (timer : TimerRef) (firing : Firing TaskRef)
  /-- A task was called off. -/
  | taskCancelled (task : TaskRef)
  /-- All tasks of a timer were called off. -/
  | timerCancelled (timer : TimerRef) (dropped : Nat)
  /-- A timer stopped taking tasks. -/
  | timerClosed (timer : TimerRef) (queued : Nat)
  /-- Cancelled tasks were taken out of a queue. -/
  | purged (timer : TimerRef) (removed : Nat)
  /-- A task was turned away by a timer that takes none. -/
  | rejected (timer : TimerRef) (task : TaskRef)
  /-- A task was queued; `newHead` says whether at the root. -/
  | scheduled (timer : TimerRef) (task : TaskRef) (period : Period) (newHead : Bool)
deriving DecidableEq

/-- Timers and tasks. -/
structure World where
  timers : Table Timer
  /-- How many timers were started; the next one gets this index. -/
  timerCount : Nat
  tasks : Table Task
  /-- How many tasks were made; the next one gets this index. -/
  taskCount : Nat

namespace World

/-- The world without timers and tasks. -/
def empty : World where
  timers := { blank := { clock := { now := .origin, wall := .epoch } } }
  timerCount := 0
  tasks := { blank := {} }
  taskCount := 0

/-- The timer that `t` refers to. -/
def timer (w : World) (t : TimerRef) : Timer := w.timers.get t.index

/-- The task that `k` refers to. -/
def task (w : World) (k : TaskRef) : Task := w.tasks.get k.index

/-- Puts another timer in the place of `t`. -/
def setTimer (w : World) (t : TimerRef) (timer : Timer) : World :=
  { w with timers := w.timers.set t.index timer }

/-- Puts another task in the place of `k`. -/
def setTask (w : World) (k : TaskRef) (task : Task) : World :=
  { w with tasks := w.tasks.set k.index task }

theorem timer_setTimer (w : World) (t u : TimerRef) (x : Timer) :
    (w.setTimer t x).timer u = if u = t then x else w.timer u := by
  cases t; cases u
  simp [timer, setTimer, Table.get_set]

theorem task_setTask (w : World) (k j : TaskRef) (x : Task) :
    (w.setTask k x).task j = if j = k then x else w.task j := by
  cases k; cases j
  simp [task, setTask, Table.get_set]

theorem task_setTimer (w : World) (t : TimerRef) (x : Timer) (k : TaskRef) :
    (w.setTimer t x).task k = w.task k := rfl

theorem timer_setTask (w : World) (k : TaskRef) (x : Task) (t : TimerRef) :
    (w.setTask k x).timer t = w.timer t := rfl

end World

/-- What an operation leads to: its answer, the world afterwards, and its events, the first one
first. -/
structure Outcome (ρ : Type) where
  result : ρ
  world : World
  events : List Event := []

namespace Outcome

variable {ρ κ : Type}

/-- One operation after another. -/
def andThen (o : Outcome ρ) (next : ρ → World → Outcome κ) : Outcome κ :=
  let o' := next o.result o.world
  { o' with events := o.events ++ o'.events }

/-- The same outcome with another answer. -/
def map (f : ρ → κ) (o : Outcome ρ) : Outcome κ :=
  { result := f o.result, world := o.world, events := o.events }

end Outcome

namespace World

/-- Makes a task. -/
def newTask (w : World) : Outcome TaskRef :=
  let k : TaskRef := ⟨w.taskCount⟩
  { result := k, world := { w.setTask k {} with taskCount := w.taskCount + 1 } }

/-- Starts a timer whose clock reads `clock`. -/
def startTimer (w : World) (clock : Clock) : Outcome TimerRef :=
  let t : TimerRef := ⟨w.timerCount⟩
  { result := t
    world := { w.setTimer t { clock := clock } with timerCount := w.timerCount + 1 }
    events := [.threadStarted t] }

end World

end TaskTimer
