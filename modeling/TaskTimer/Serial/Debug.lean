/-
TaskTimer.Serial.Debug — values of this library in debugging text.

Alternatives show their name and what they carry in parentheses, records their fields between
braces, and strings their quoted form.
-/
import TaskTimer.Error
import TaskTimer.Task.Period
import TaskTimer.Text.Quoted
import TaskTimer.Time.Text

namespace TaskTimer

/-- A record in debugging text: its name, and its fields with their values. -/
def debugRecord (name : String) (fields : List (String × String)) : String :=
  name ++ " \x7b " ++ ", ".intercalate (fields.map fun (field, value) => field ++ ": " ++ value) ++
    " \x7d"

namespace Period

/-- A period in debugging text. -/
def debug : Period → String
  | .once => "Once"
  | .fixedRate d => "FixedRate(" ++ d.debug ++ ")"
  | .fixedDelay d => "FixedDelay(" ++ d.debug ++ ")"

end Period

namespace Shutdown

/-- A reason in debugging text, with the task shown by `showTask`. -/
def debugWith {ι : Type} (showTask : ι → String) : Shutdown ι → String
  | .cancelled => "Cancelled"
  | .drained => "Drained"
  | .taskFailed task error =>
    debugRecord "TaskFailed" [("task_id", showTask task), ("error", quoted error)]
  | .panicked message => "Panicked(" ++ quoted message ++ ")"

end Shutdown

end TaskTimer
