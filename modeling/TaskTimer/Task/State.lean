/-
TaskTimer.Task.State — the life cycle of a task.

A task starts out `created`, is `scheduled` while a timer holds it, and ends `executed` or
`cancelled`. A repeating task is scheduled again in place; only a task that runs once is ever
executed.
-/

namespace TaskTimer

/-- Where a task is in its life. -/
inductive TaskState where
  /-- No timer has accepted it yet. -/
  | created
  /-- A timer holds it; a repeating task stays here between its runs. -/
  | scheduled
  /-- It ran once and is done, or is running right now. -/
  | executed
  /-- It was called off. -/
  | cancelled
deriving DecidableEq

namespace TaskState

/-- Every state. -/
def all : List TaskState := [.created, .scheduled, .executed, .cancelled]

/-- The state of a new task. -/
def initial : TaskState := .created

/-- Whether the state is never left again. -/
def isTerminal : TaskState → Bool
  | .executed | .cancelled => true
  | .created | .scheduled => false

/-- Which changes of state there are. Scheduling a scheduled task again is a change to itself. -/
def canBecome : TaskState → TaskState → Bool
  | .created, .scheduled => true
  | .created, .cancelled => true
  | .scheduled, .scheduled => true
  | .scheduled, .executed => true
  | .scheduled, .cancelled => true
  | _, _ => false

/-- The name of a state in messages and in serialised form. -/
def name : TaskState → String
  | .created => "CREATED"
  | .scheduled => "SCHEDULED"
  | .executed => "EXECUTED"
  | .cancelled => "CANCELLED"

/-- The name of a state in debugging text. -/
def debug : TaskState → String
  | .created => "Created"
  | .scheduled => "Scheduled"
  | .executed => "Executed"
  | .cancelled => "Cancelled"

/-- No change leads out of a terminal state. -/
theorem canBecome_of_isTerminal {a : TaskState} (h : a.isTerminal = true) (b : TaskState) :
    a.canBecome b = false := by
  cases a <;> cases b <;> simp_all [isTerminal, canBecome]

end TaskState

end TaskTimer
