/-
TaskTimer.Session.Batch — a batch of jobs handed to a timer of default settings.

Each job is submitted once, a moment after the one before. Then the timer is waited for, after
calling off what is left if so asked. Of the executions, no more is told than what does not
depend on how fast the jobs were handed over.
-/
import TaskTimer.Config
import TaskTimer.Session.Run

namespace TaskTimer

/-- What became of a batch. -/
structure Batch where
  /-- Whether the timer's name is a default one. -/
  named : Bool
  /-- The answer to each submission. -/
  submitted : List Session.Answer
  /-- For each execution the number of its job, whether it was out of turn or came too early, and
  the number of the execution. -/
  ran : List (Nat × Bool × Nat)
  /-- What waiting for the timer yielded. -/
  ending : Session.Answer
  /-- Whether the clock never went backwards. -/
  forward : Bool
deriving DecidableEq

namespace Batch

/-- The name of the job with the given number. -/
def jobName (number : Nat) : String := String.ofList (Digits.decimal number)

/-- The moment between two submissions. -/
def moment : Duration := ⟨1, by decide, by decide⟩

/-- The steps that submit the jobs, starting with the given number. -/
def submissions (timer : String) : (number : Nat) → List Delay → List Session.Step
  | _, [] => []
  | number, delay :: rest =>
    .command (.timer (some timer) (.submit (jobName number) delay)) ::
      .command (.clock (some timer) (.advance moment)) ::
      submissions timer (number + 1) rest

/-- The answers to the submissions, among those to all steps of `submissions`. -/
def everyOther : List Session.Answer → List Session.Answer
  | [] => []
  | [answer] => [answer]
  | answer :: _ :: rest => answer :: everyOther rest

/-- Hands over jobs with these delays, calls off what is left if `cancelRest` says so, and waits
for the timer. -/
def run (delays : List Delay) (cancelRest : Bool) : Batch :=
  let config := Config.default 0
  let clock : Clock := { now := .origin, wall := .epoch }
  let (_, s) := (Session.ofBodies []).recordSteps [.start config.name clock]
  let (submitted, s) := s.recordSteps (submissions config.name 0 delays)
  let rest : List Session.Step :=
    if cancelRest then [.command (.timer (some config.name) .cancelAll)] else []
  let (atEnd, s) := s.recordSteps (rest ++ [.join config.name])
  let executions := (submitted ++ atEnd).flatMap (·.executions)
  { named := config.name.startsWith Config.nameStem
    submitted := everyOther (submitted.map (·.answer))
    ran := executions.map fun e =>
      (((List.range delays.length).find? (fun n => jobName n == e.task)).getD delays.length,
        e.firing.firedAt < e.firing.due, e.firing.execution)
    ending := ((atEnd.map (·.answer)).getLast?).getD .done
    forward := match s.handle? config.name with
      | some h => clock.now ≤ (s.world.timer h.ref).clock.now
      | none => true }

end Batch

end TaskTimer
