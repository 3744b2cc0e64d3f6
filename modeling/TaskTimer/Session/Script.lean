/-
TaskTimer.Session.Script — what a session is told to do.

A session is a list of steps that the main thread takes, with a body for each job, which is a
list of its own. Timers and tasks go by names. The operations fall into three kinds, by what
they need: `TaskOp` needs the task alone, `ClockOp` a timer that was started at some time, and
`TimerOp` a timer whose handle is still held.
-/
import TaskTimer.Task.Ending
import TaskTimer.Task.Period
import TaskTimer.Time.Wall

namespace TaskTimer.Session

/-- An operation on a task alone. -/
inductive TaskOp where
  /-- Calls the task off. -/
  | cancel
  /-- Looks at the task. -/
  | inspect
deriving DecidableEq

/-- An operation on the surroundings of a timer. -/
inductive ClockOp where
  /-- Time passes. -/
  | advance (d : Duration)
  /-- The monotonic clock is set, forwards or backwards. -/
  | setNow (now : Instant)
  /-- The wall clock is set, forwards or backwards. -/
  | setWall (wall : WallTime)
  /-- The task will be called off when the timer is about to fire the next time. -/
  | armCancel (task : String)
deriving DecidableEq

/-- A way to submit a task that exists. -/
inductive Submission where
  | once (delay : Delay)
  | onceAt (time : WallTime)
  | fixedDelay (delay period : Delay)
  | fixedDelayFrom (time : WallTime) (period : Delay)
  | fixedRate (delay period : Delay)
  | fixedRateFrom (time : WallTime) (period : Delay)
deriving DecidableEq

/-- An operation through the handle of a timer. -/
inductive TimerOp where
  /-- Submits the task of that name. -/
  | submission (task : String) (way : Submission)
  /-- Submits the job of that name as a new task. -/
  | submit (job : String) (delay : Delay)
  /-- Submits the job of that name as a new repeating task. -/
  | submitRepeating (job : String) (delay period : Delay) (mode : RepeatMode)
  /-- Calls a task off by way of the timer, which need not hold it. -/
  | cancel (task : String)
  | cancelAll
  | close
  | purge
  /-- Whether submissions are taken. -/
  | accepting
  /-- How many entries are queued. -/
  | queued
  /-- Why the thread ended. -/
  | reason
  | name
  /-- The timer in debugging text. -/
  | debug
  /-- Gives the handle up, which closes the timer. -/
  | drop
deriving DecidableEq

/-- An operation of any kind. An operation on a timer that names none is meant for the timer of
the thread that carries it out. -/
inductive Command where
  | task (name : String) (op : TaskOp)
  | clock (timer : Option String) (op : ClockOp)
  | timer (timer : Option String) (op : TimerOp)
deriving DecidableEq

/-- What a line of a body does. -/
inductive Action where
  | command (c : Command)
  /-- Returns an error: the root of it, and then each text put around it. -/
  | fail (chain : List String)
  | panic (payload : Payload)
deriving DecidableEq

/-- A line of a body. -/
structure Line where
  /-- The one execution in which the line counts, if it does not count in all of them. -/
  on : Option Nat
  action : Action
deriving DecidableEq

/-- What a task does when it fires. -/
structure Body where
  lines : List Line
  /-- Whether a task that is made when its name is first mentioned can return an error. A job that
  is submitted always can. -/
  mayFail : Bool
deriving DecidableEq

/-- The body of a job that was given none. -/
def Body.empty : Body := { lines := [], mayFail := true }

/-- A step of the main thread. -/
inductive Step where
  /-- Starts a timer of that name. -/
  | start (timer : String) (clock : Clock)
  /-- Time passes, from one deadline to the next. -/
  | run (timer : String) (d : Duration)
  /-- Closes the timer and lets time pass until its thread ends. -/
  | drain (timer : String)
  /-- Gives the handle up, does as `drain`, and waits for the thread. -/
  | join (timer : String)
  | command (c : Command)
deriving DecidableEq

end TaskTimer.Session
