/-
TaskTimer.Session.State — a world whose timers and tasks have names.

A session keeps a world, the names by which scripts refer to timers and tasks, and what it has to
tell since it was last asked: the executions that took place and the events of each thread.
-/
import TaskTimer.Session.Script
import TaskTimer.World.Log
import TaskTimer.World.Worker
import TaskTimer.Task.Id

namespace TaskTimer.Session

/-- A timer as the scripts know it. -/
structure Handle where
  name : String
  ref : TimerRef
  /-- Whether operations through the handle are possible. -/
  held : Bool := true
  /-- The tasks to be called off when the timer is about to fire the next time. -/
  armed : List TaskRef := []
deriving DecidableEq

/-- A task as the scripts know it. -/
structure NamedTask where
  name : String
  ref : TaskRef
  /-- Whether the body of the task can return an error. If it cannot, an error merely ends it. -/
  mayFail : Bool
deriving DecidableEq

/-- Who does something. -/
inductive Thread where
  | main
  /-- The thread of a timer, on which bodies run. -/
  | worker (timer : TimerRef)
deriving DecidableEq

/-- A look at a task. -/
structure TaskView where
  state : TaskState
  period : Period
  executions : Nat
  latestDeadline : Option Instant
  debug : String
  idVersion : Nat
deriving DecidableEq

/-- Why an operation could not even be tried. -/
inductive Refusal where
  /-- The handle of the timer was given up, or there never was one. -/
  | noHandle
  /-- There is a timer of that name already. -/
  | nameTaken
  /-- The time would leave the range of instants. -/
  | outOfTime
deriving DecidableEq

/-- The words for a refusal. -/
def Refusal.message : Refusal → String
  | .noHandle => "no handle"
  | .nameTaken => "name taken"
  | .outOfTime => "out of time"

/-- The answer to an operation. -/
inductive Answer where
  | done
  | flag (b : Bool)
  | count (n : Nat)
  | text (s : String)
  | task (view : TaskView)
  | reason (reason : Option (Shutdown String))
  | error (e : TimerError String)
  | refused (r : Refusal)
deriving DecidableEq

/-- An execution that took place. -/
structure Execution where
  task : String
  timer : String
  firing : Firing TaskRef
  /-- Whether the task that fired is the one that its name refers to. -/
  sameTask : Bool
  /-- The answers to what the body did. -/
  acts : List Answer
deriving DecidableEq

end Session

/-- A world with names, and what happened in it since the last step. -/
structure Session where
  world : World := .empty
  /-- The timers, in the order in which they were started. -/
  handles : List Session.Handle := []
  /-- The tasks by name. A name may come again, and then its first entry counts. -/
  tasks : List Session.NamedTask := []
  /-- What jobs do. -/
  bodies : List (String × Session.Body) := []
  /-- The executions since the last step, the latest first. -/
  executions : List Session.Execution := []
  /-- The events since the last step, the latest first. -/
  log : List (Session.Thread × Event) := []

namespace Session

/-- The timer of that name. -/
def handle? (s : Session) (name : String) : Option Handle :=
  s.handles.find? (fun h => h.name == name)

/-- The task of that name. -/
def task? (s : Session) (name : String) : Option TaskRef :=
  (s.tasks.find? (fun entry => entry.name == name)).map (·.ref)

/-- What scripts know of a task, also of one that its name no longer refers to. -/
def named? (s : Session) (k : TaskRef) : Option NamedTask :=
  s.tasks.find? (fun entry => entry.ref == k)

/-- What the job of that name does. -/
def body (s : Session) (name : String) : Body :=
  ((s.bodies.find? (fun entry => entry.1 == name)).map (·.2)).getD .empty

/-- How a task is shown: by its name, or by a question mark if it was never given one. -/
def taskLabel (s : Session) (k : TaskRef) : String :=
  match s.named? k with
  | some entry => "<id:" ++ entry.name ++ ">"
  | none => "<id:?>"

/-- How a timer is shown. -/
def timerLabel (s : Session) (t : TimerRef) : String :=
  ((s.handles.find? (fun h => h.ref == t)).map (·.name)).getD ""

/-- How timers and tasks are shown. -/
def labels (s : Session) : Labels := { timer := s.timerLabel, task := s.taskLabel }

/-- Carries out an operation of the world, and keeps the events for the thread. -/
def perform {ρ : Type} (s : Session) (thread : Thread) (op : World → Outcome ρ) : ρ × Session :=
  let o := op s.world
  (o.result, { s with world := o.world, log := (o.events.map (thread, ·)).reverse ++ s.log })

/-- Lets the name of a task refer to it. -/
def bind (s : Session) (task : NamedTask) : Session :=
  { s with tasks := task :: s.tasks }

/-- The task of that name, which is made now if there is none. -/
def mention (s : Session) (thread : Thread) (name : String) : TaskRef × Session :=
  match s.task? name with
  | some k => (k, s)
  | none =>
    let (k, s) := s.perform thread World.newTask
    (k, s.bind { name := name, ref := k, mayFail := (s.body name).mayFail })

/-- Changes what is known of the timer of that name. -/
def updateHandle (s : Session) (name : String) (f : Handle → Handle) : Session :=
  { s with handles := s.handles.map fun h => if h.name == name then f h else h }

/-- A look at a task. -/
def view (s : Session) (k : TaskRef) : TaskView :=
  let task := s.world.task k
  { state := task.state
    period := task.period
    executions := task.executions
    latestDeadline := task.latestDeadline
    debug := debugRecord "TimerTask"
      [("id", "TaskId(" ++ s.taskLabel k ++ ")"), ("state", task.state.debug),
        ("period", task.period.debug),
        ("executions", String.ofList (Digits.decimal task.executions))]
    idVersion := (TaskId.ofSerial k.index).version }

/-- A timer in debugging text. -/
def debugTimer (s : Session) (h : Handle) : String :=
  let timer := s.world.timer h.ref
  debugRecord "Timer"
    [("name", quoted h.name), ("accepting", if timer.accepting then "true" else "false"),
      ("queued", String.ofList (Digits.decimal timer.queue.size)),
      ("shutdown",
        match timer.shutdown with
        | some reason => "Some(" ++ reason.debugWith (fun k => "TaskId(" ++ s.taskLabel k ++ ")") ++ ")"
        | none => "None")]

end Session

end TaskTimer
