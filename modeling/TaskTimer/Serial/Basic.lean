/-
TaskTimer.Serial.Basic — values of this library as JSON, and back.

Alternatives that carry nothing are written as their name, and the others as an object with
their name as its only field. Reading takes a little more than is written: a bare alternative
may also be an object whose field is null, the parts of a duration or of a failure may come in
any order or as an array, nanoseconds may exceed a second, and a failure may have further
fields, which mean nothing.
-/
import TaskTimer.Error
import TaskTimer.Json.Reader
import TaskTimer.Task.Id
import TaskTimer.Task.Period

namespace TaskTimer

namespace Json

/-- An alternative in JSON: its name, and what it carries if it was written as an object. -/
def variant? : Json → Option (String × Option Json)
  | .str (some name) => some (name, none)
  | .obj [(some name, value)] => some (name, some value)
  | _ => none

/-- The name of an alternative that carries nothing. -/
def bare? (j : Json) : Option String :=
  match j.variant? with
  | some (name, none) => some name
  | some (name, some .null) => some name
  | _ => none

/-- The natural number, up to a largest one. -/
def natUpTo? (most : Nat) : Json → Option Nat
  | .num (.natural n) => if n ≤ most then some n else none
  | _ => none

/-- The text of a string. -/
def text? : Json → Option String
  | .str s => s
  | _ => none

/-- The value of the only field of this name; `none` if there is no such field, or several. -/
def field? (name : String) (fields : List (Option String × Json)) : Option Json :=
  match fields.filter (fun f => f.1 == some name) with
  | [f] => some f.2
  | _ => none

end Json

namespace Duration

/-- A duration as its whole seconds and the nanoseconds beyond. -/
def toJson (d : Duration) : Json :=
  .obj [(some "secs", .nat d.seconds), (some "nanos", .nat d.subsecond)]

/-- The duration with these parts, each of which has to fit its word. -/
def ofJsonParts? (secs nanos : Json) : Option Duration :=
  match secs.natUpTo? 18446744073709551615, nanos.natUpTo? 4294967295 with
  | some s, some n => ofParts? s n
  | _, _ => none

/-- The duration that a value denotes. No field may be missing, repeated or unknown. -/
def ofJson? : Json → Option Duration
  | .obj [(some "secs", s), (some "nanos", n)] => ofJsonParts? s n
  | .obj [(some "nanos", n), (some "secs", s)] => ofJsonParts? s n
  | .arr [s, n] => ofJsonParts? s n
  | _ => none

end Duration

namespace TaskState

/-- A state as its name. -/
def toJson (s : TaskState) : Json := .text s.name

/-- The state that a value denotes. -/
def ofJson? (j : Json) : Option TaskState :=
  j.bare?.bind fun name => all.find? (fun s => s.name == name)

end TaskState

namespace RepeatMode

/-- The name of a mode in serialised form. -/
def name : RepeatMode → String
  | .fixedRate => "fixed_rate"
  | .fixedDelay => "fixed_delay"

/-- The name of a mode in debugging text. -/
def debug : RepeatMode → String
  | .fixedRate => "FixedRate"
  | .fixedDelay => "FixedDelay"

/-- A mode as its name. -/
def toJson (m : RepeatMode) : Json := .text m.name

/-- The mode of a given name. -/
def ofName? (name : String) : Option RepeatMode :=
  [fixedRate, fixedDelay].find? (fun m => m.name == name)

/-- The mode that a value denotes. -/
def ofJson? (j : Json) : Option RepeatMode := j.bare?.bind ofName?

end RepeatMode

namespace Period

/-- A period as its mode and length. -/
def toJson : Period → Json
  | .once => .text "once"
  | .fixedRate d => .single RepeatMode.fixedRate.name d.toJson
  | .fixedDelay d => .single RepeatMode.fixedDelay.name d.toJson

/-- The period that a value denotes. -/
def ofJson? (j : Json) : Option Period :=
  if j.bare? = some "once" then some .once
  else
    match j.variant? with
    | some (name, some value) =>
      match RepeatMode.ofName? name, Duration.ofJson? value with
      | some mode, some every => some (mode.period every)
      | _, _ => none
    | _ => none

end Period

namespace TaskId

/-- An identifier as its text. -/
def toJson (id : TaskId) : Json := .text id.text

/-- The identifier that a value denotes. -/
def ofJson? (j : Json) : Option TaskId := j.text?.bind ofText?

end TaskId

namespace Shutdown

/-- A reason with the task named by a string. -/
def toJsonWith {ι : Type} (name : ι → String) : Shutdown ι → Json
  | .cancelled => .text "cancelled"
  | .drained => .text "drained"
  | .taskFailed task error =>
    .single "task_failed" (.obj [(some "task_id", .text (name task)), (some "error", .text error)])
  | .panicked message => .single "panicked" (.text message)

/-- A reason with the task named by its identifier. -/
def toJson (reason : Shutdown TaskId) : Json := reason.toJsonWith TaskId.text

/-- The failure with these parts. -/
def ofJsonParts? (task error : Json) : Option (Shutdown TaskId) :=
  match TaskId.ofJson? task, error.text? with
  | some task, some error => some (.taskFailed task error)
  | _, _ => none

/-- The failure that a value denotes. Each of the two fields stands there once; others are passed
over, as long as their names are texts. -/
def ofJsonFailure? : Json → Option (Shutdown TaskId)
  | .arr [task, error] => ofJsonParts? task error
  | .obj fields =>
    if fields.all (fun f => f.1.isSome) then
      match Json.field? "task_id" fields, Json.field? "error" fields with
      | some task, some error => ofJsonParts? task error
      | _, _ => none
    else none
  | _ => none

/-- The reason that a value denotes. -/
def ofJson? (j : Json) : Option (Shutdown TaskId) :=
  match j.bare? with
  | some "cancelled" => some .cancelled
  | some "drained" => some .drained
  | _ =>
    match j.variant? with
    | some ("task_failed", some value) => ofJsonFailure? value
    | some ("panicked", some value) => value.text?.map .panicked
    | _ => none

end Shutdown

end TaskTimer
