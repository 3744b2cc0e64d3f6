/-
TaskTimer.Error — what can go wrong, and why a timer stopped.

`SubmissionError` lists the causes for which a timer turns a task away, `Shutdown` the reasons
for which a timer's thread ends, and `TimerError` is the form in which either is told to a
caller. Tasks are named by values of a type `ι`: identifiers in serialised values, references
inside a running system, and labels where people read along.
-/
import TaskTimer.Task.State

namespace TaskTimer

/-- An error as it is told to a caller. -/
inductive TimerError (ι : Type) where
  /-- Malformed parameters of a submission. -/
  | invalidArgument (detail : String)
  /-- The task was scheduled, cancelled or executed before. -/
  | invalidState (detail : String)
  /-- The timer takes no tasks. -/
  | illegalState (detail : String)
  /-- A task's body returned an error, which ended the timer's thread. -/
  | taskFailed (task : ι) (detail : String)
  /-- A task's body panicked, which ended the timer's thread. -/
  | panicked (detail : String)
  /-- The timer's thread could not be started. -/
  | spawn (detail : String)
deriving DecidableEq

namespace TimerError

variable {ι κ : Type}

/-- The name of the kind of error. -/
def kind : TimerError ι → String
  | .invalidArgument _ => "InvalidArgument"
  | .invalidState _ => "InvalidState"
  | .illegalState _ => "IllegalState"
  | .taskFailed _ _ => "TaskFailed"
  | .panicked _ => "Panicked"
  | .spawn _ => "Spawn"

/-- The message, with tasks named by `name`. -/
def message (name : ι → String) : TimerError ι → String
  | .invalidArgument detail => "Invalid argument: " ++ detail
  | .invalidState detail => "Invalid task state: " ++ detail
  | .illegalState detail => "Illegal timer state: " ++ detail
  | .taskFailed task detail => "Task " ++ name task ++ " failed: " ++ detail
  | .panicked detail => "Task panicked: " ++ detail
  | .spawn detail => "Failed to spawn timer thread: " ++ detail

/-- Whether the error answers a bad submission at once. -/
def blamesCaller : TimerError ι → Bool
  | .invalidArgument _ | .invalidState _ | .illegalState _ => true
  | .taskFailed _ _ | .panicked _ | .spawn _ => false

/-- Whether the error ended a timer's thread. -/
def endsThread : TimerError ι → Bool
  | .taskFailed _ _ | .panicked _ => true
  | .invalidArgument _ | .invalidState _ | .illegalState _ | .spawn _ => false

/-- The same error with its task named otherwise. -/
def map (f : ι → κ) : TimerError ι → TimerError κ
  | .invalidArgument detail => .invalidArgument detail
  | .invalidState detail => .invalidState detail
  | .illegalState detail => .illegalState detail
  | .taskFailed task detail => .taskFailed (f task) detail
  | .panicked detail => .panicked detail
  | .spawn detail => .spawn detail

/-- The error for a thread that the system would not start, given the system's words for it. -/
def ofSystem (detail : String) : TimerError ι := .spawn detail

end TimerError

/-- Why a timer's thread ended. -/
inductive Shutdown (ι : Type) where
  /-- All tasks were called off. -/
  | cancelled
  /-- The timer was closed and its queue ran dry. -/
  | drained
  /-- A task's body returned an error. -/
  | taskFailed (task : ι) (error : String)
  /-- A task's body panicked. -/
  | panicked (message : String)
deriving DecidableEq

namespace Shutdown

variable {ι κ : Type}

/-- The error to tell a caller, if a task's body ended the thread. -/
def error? : Shutdown ι → Option (TimerError ι)
  | .cancelled | .drained => none
  | .taskFailed task error => some (.taskFailed task error)
  | .panicked message => some (.panicked message)

/-- The same reason with its task named otherwise. -/
def map (f : ι → κ) : Shutdown ι → Shutdown κ
  | .cancelled => .cancelled
  | .drained => .drained
  | .taskFailed task error => .taskFailed (f task) error
  | .panicked message => .panicked message

/-- What waiting for the end of a thread yields, given the reason recorded at its end. -/
def joined : Option (Shutdown ι) → Except (TimerError ι) (Shutdown ι)
  | none => .error (.illegalState "Timer thread exited without a reason")
  | some reason =>
    match reason.error? with
    | some error => .error error
    | none => .ok reason

end Shutdown

/-- Why a timer turns a task away. -/
inductive SubmissionError where
  /-- The delay before the first execution is negative. -/
  | negativeDelay
  /-- The wall time of the first execution is before the epoch. -/
  | timeBeforeEpoch
  /-- The period is zero or negative. -/
  | nonPositivePeriod
  /-- The timer has been closed or cancelled, or its thread has ended. -/
  | notAccepting
  /-- The task was handed to a timer before, or called off. -/
  | notCreated (state : TaskState)
deriving DecidableEq

namespace SubmissionError

variable {ι : Type}

/-- How a caller is told. -/
def error : SubmissionError → TimerError ι
  | .negativeDelay => .invalidArgument "Negative delay."
  | .timeBeforeEpoch => .invalidArgument "Illegal execution time."
  | .nonPositivePeriod => .invalidArgument "Non-positive period."
  | .notAccepting => .illegalState "Timer already cancelled."
  | .notCreated state =>
    .invalidState ("Task already scheduled or cancelled (state " ++ state.name ++ ")")

end SubmissionError

end TaskTimer
