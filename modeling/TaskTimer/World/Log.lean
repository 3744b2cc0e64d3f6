/-
TaskTimer.World.Log — events as lines of a log.

Each event has a level, a message that names its kind, and fields with the particulars. Timers
and tasks are shown by the names that `Labels` gives them.
-/
import TaskTimer.Serial.Debug
import TaskTimer.World.Basic

namespace TaskTimer

/-- How much a line of the log matters. -/
inductive Level where
  | error
  | warn
  | info
  | debug
deriving DecidableEq

namespace Level

/-- The name of a level. -/
def name : Level → String
  | .error => "ERROR"
  | .warn => "WARN"
  | .info => "INFO"
  | .debug => "DEBUG"

end Level

/-- How timers and tasks are shown. -/
structure Labels where
  timer : TimerRef → String
  task : TaskRef → String

/-- A value in a line of the log. -/
inductive FieldValue where
  | text (s : String)
  | number (n : Int)
  | flag (b : Bool)
deriving DecidableEq

namespace Event

/-- The level of an event. A thread that a task's body ended is an error. -/
def level : Event → Level
  | .threadEnded _ (.taskFailed _ _) _ | .threadEnded _ (.panicked _) _ => .error
  | .rejected _ _ => .warn
  | .threadStarted _ | .threadEnded _ _ _ | .timerCancelled _ _ | .purged _ _ => .info
  | .firing _ _ | .taskCancelled _ | .timerClosed _ _ | .scheduled _ _ _ _ => .debug

/-- The message of an event. -/
def message : Event → String
  | .threadStarted _ => "Timer thread started"
  | .threadEnded _ (.taskFailed _ _) _ => "Timer thread terminated by failing task"
  | .threadEnded _ (.panicked _) _ => "Timer thread terminated by panicking task"
  | .threadEnded _ _ _ => "Timer thread stopped"
  | .firing _ _ => "Firing task"
  | .taskCancelled _ => "Task cancelled"
  | .timerCancelled _ _ => "Timer cancelled"
  | .timerClosed _ _ => "Timer closed"
  | .purged _ _ => "Purged cancelled tasks"
  | .rejected _ _ => "Rejected task: timer not accepting"
  | .scheduled _ _ _ _ => "Task scheduled"

/-- The fields about the end of a thread. What was dropped is told only after a failure. -/
def endFields (labels : Labels) (reason : Shutdown TaskRef) (dropped : Nat) :
    List (String × FieldValue) :=
  match reason with
  | .taskFailed task error =>
    [("task_id", .text (labels.task task)), ("error", .text error), ("dropped", .number dropped)]
  | .panicked message => [("panic", .text message), ("dropped", .number dropped)]
  | rest => [("reason", .text (rest.debugWith labels.task))]

/-- The fields of an event, with their names. -/
def fields (labels : Labels) : Event → List (String × FieldValue)
  | .threadStarted timer => [("timer", .text (labels.timer timer))]
  | .threadEnded timer reason dropped =>
    ("timer", .text (labels.timer timer)) :: endFields labels reason dropped
  | .firing timer f =>
    [("timer", .text (labels.timer timer)), ("task_id", .text (labels.task f.task)),
      ("execution", .number f.execution), ("lateness_us", .number f.latenessMicros)]
  | .taskCancelled task => [("task_id", .text (labels.task task))]
  | .timerCancelled timer dropped =>
    [("timer", .text (labels.timer timer)), ("dropped", .number dropped)]
  | .timerClosed timer queued =>
    [("timer", .text (labels.timer timer)), ("queued", .number queued)]
  | .purged timer removed =>
    [("timer", .text (labels.timer timer)), ("removed", .number removed)]
  | .rejected timer task =>
    [("timer", .text (labels.timer timer)), ("task_id", .text (labels.task task))]
  | .scheduled timer task period newHead =>
    [("timer", .text (labels.timer timer)), ("task_id", .text (labels.task task)),
      ("period_ms", .number period.toMillis), ("new_head", .flag newHead)]

end Event

/-- A line of the log. -/
structure LogLine where
  level : Level
  message : String
  fields : List (String × FieldValue)
deriving DecidableEq

/-- The line that tells of an event. -/
def Event.line (labels : Labels) (e : Event) : LogLine :=
  { level := e.level, message := e.message, fields := e.fields labels }

end TaskTimer
