/-
TaskTimer.World.Submission — handing a task to a timer.

There are eight ways to submit a task: after a delay or at a wall time; once, at a fixed rate or
with a fixed delay; and, after a delay only, with a task made on the spot. All of them check in
the same order: first when the task is to start, then the period, then whether the timer takes
tasks, and last whether the task is new. A submission that fails a check changes nothing.
-/
import TaskTimer.World.Basic

namespace TaskTimer

namespace Timer

/-- The deadline `delay` from now. -/
def dueAfter (timer : Timer) (delay : Delay) : Except SubmissionError Instant :=
  match delay.toDuration? with
  | some d => .ok (timer.clock.now.after d)
  | none => .error .negativeDelay

/-- The deadline at a wall time; a time that is past is due now. -/
def dueAt (timer : Timer) (time : WallTime) : Except SubmissionError Instant :=
  if time.val < WallTime.epoch.val then .error .timeBeforeEpoch
  else .ok (timer.clock.instantOf time)

end Timer

namespace RepeatMode

/-- Repetition in this mode, if the period is positive. -/
def every (mode : RepeatMode) (period : Delay) : Except SubmissionError Period :=
  match period.toDuration? with
  | some d => if d.val = 0 then .error .nonPositivePeriod else .ok (mode.period d)
  | none => .error .nonPositivePeriod

end RepeatMode

namespace World

/-- Whether the root of a queue is an entry for the task `k`. -/
def isHead (queue : Queue TaskRef) (k : TaskRef) : Bool :=
  match queue.peek with
  | some head => head.item = k
  | none => false

/-- Queues a new task for the deadline `due`, if the timer takes tasks. -/
def accept (w : World) (t : TimerRef) (k : TaskRef) (due : Instant) (period : Period) :
    Outcome (Except SubmissionError Unit) :=
  let timer := w.timer t
  let task := w.task k
  if !timer.accepting then
    { result := .error .notAccepting, world := w, events := [.rejected t k] }
  else if task.state ≠ .created then
    { result := .error (.notCreated task.state), world := w }
  else
    let queue := timer.queue.push due k
    { result := .ok ()
      world := (w.setTask k { task with state := .scheduled, next := some due, period := period }
        ).setTimer t { timer with queue := queue }
      events := [.scheduled t k period (isHead queue k)] }

/-- Submits with a deadline and a period, unless one of them is at fault; the deadline comes
first. -/
def submitChecked (w : World) (t : TimerRef) (k : TaskRef)
    (due : Except SubmissionError Instant) (period : Except SubmissionError Period) :
    Outcome (Except SubmissionError Unit) :=
  match due, period with
  | .error e, _ => { result := .error e, world := w }
  | .ok _, .error e => { result := .error e, world := w }
  | .ok due, .ok period => w.accept t k due period

/-- Runs the task once after `delay`. -/
def scheduleAfter (w : World) (t : TimerRef) (k : TaskRef) (delay : Delay) :
    Outcome (Except SubmissionError Unit) :=
  w.submitChecked t k ((w.timer t).dueAfter delay) (.ok .once)

/-- Runs the task once at the wall time `time`. -/
def scheduleAt (w : World) (t : TimerRef) (k : TaskRef) (time : WallTime) :
    Outcome (Except SubmissionError Unit) :=
  w.submitChecked t k ((w.timer t).dueAt time) (.ok .once)

/-- Runs the task after `delay`, and then `period` after each time it fires. -/
def fixedDelayAfter (w : World) (t : TimerRef) (k : TaskRef) (delay period : Delay) :
    Outcome (Except SubmissionError Unit) :=
  w.submitChecked t k ((w.timer t).dueAfter delay) (RepeatMode.fixedDelay.every period)

/-- Runs the task at the wall time `time`, and then `period` after each time it fires. -/
def fixedDelayAt (w : World) (t : TimerRef) (k : TaskRef) (time : WallTime)
    (period : Delay) : Outcome (Except SubmissionError Unit) :=
  w.submitChecked t k ((w.timer t).dueAt time) (RepeatMode.fixedDelay.every period)

/-- Runs the task after `delay`, and then every `period` from its first deadline on. -/
def fixedRateAfter (w : World) (t : TimerRef) (k : TaskRef) (delay period : Delay) :
    Outcome (Except SubmissionError Unit) :=
  w.submitChecked t k ((w.timer t).dueAfter delay) (RepeatMode.fixedRate.every period)

/-- Runs the task at the wall time `time`, and then every `period` from its first deadline on. -/
def fixedRateAt (w : World) (t : TimerRef) (k : TaskRef) (time : WallTime)
    (period : Delay) : Outcome (Except SubmissionError Unit) :=
  w.submitChecked t k ((w.timer t).dueAt time) (RepeatMode.fixedRate.every period)

/-- The task `k`, if it was accepted. -/
def handOut (k : TaskRef) (o : Outcome (Except SubmissionError Unit)) :
    Outcome (Except SubmissionError TaskRef) :=
  o.map fun result => result.map fun _ => k

/-- Makes a task and runs it once after `delay`. -/
def submitOnce (w : World) (t : TimerRef) (delay : Delay) : Outcome (Except SubmissionError TaskRef) :=
  w.newTask.andThen fun k w => handOut k (w.scheduleAfter t k delay)

/-- Makes a task and repeats it every `period` in the given mode, from `delay` on. The task is
made only when delay and period are in order. -/
def submitRepeating (w : World) (t : TimerRef) (delay period : Delay) (mode : RepeatMode) :
    Outcome (Except SubmissionError TaskRef) :=
  match (w.timer t).dueAfter delay, mode.every period with
  | .error e, _ => { result := .error e, world := w }
  | .ok _, .error e => { result := .error e, world := w }
  | .ok due, .ok period => w.newTask.andThen fun k w => handOut k (w.accept t k due period)

end World

end TaskTimer
