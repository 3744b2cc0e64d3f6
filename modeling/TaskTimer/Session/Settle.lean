/-
TaskTimer.Session.Settle — letting the timers' threads work.

Between two steps of the main thread every timer's thread takes turns until it has nothing to
do. Time stands still meanwhile, unless a body lets it pass, or the step is one that goes from
deadline to deadline: then a timer with nothing due moves on to its next deadline, up to the
goal of the step.

Bodies may submit without end, so that no number of turns is enough for every script;
`turnBound` is far beyond what a script can make use of in practice.
-/
import TaskTimer.Session.Operation

namespace TaskTimer.Session

/-- Carries out a body in its execution number `execution`; what was done so far is put in front
of the answers. -/
def runLines (thread : Thread) (own : String) (execution : Nat) (mayFail : Bool) :
    List Line → List Answer → Session → Ending × List Answer × Session
  | [], acts, s => (.returned, acts.reverse, s)
  | line :: rest, acts, s =>
    if line.on.all (· == execution) then
      match line.action with
      | .command c =>
        let (answer, s) := s.exec thread own c
        runLines thread own execution mayFail rest (answer :: acts) s
      | .fail chain => (if mayFail then .failed chain else .returned, acts.reverse, s)
      | .panic payload => (.panicked payload, acts.reverse, s)
    else runLines thread own execution mayFail rest acts s

/-- Runs the body of a task that fired, after which the timer's thread goes on or leaves its
loop. -/
def runBody (s : Session) (h : Handle) (firing : Firing TaskRef) : Session :=
  let thread : Thread := .worker h.ref
  let known := s.named? firing.task
  let name := (known.map (·.name)).getD ""
  let mayFail := (known.map (·.mayFail)).getD true
  let (ending, acts, s) := runLines thread h.name firing.execution mayFail (s.body name).lines [] s
  let execution : Execution :=
    { task := name
      timer := h.name
      firing := firing
      sameTask := s.task? name = some firing.task
      acts := acts }
  let s := { s with executions := execution :: s.executions }
  (s.perform thread (·.finish h.ref firing.task ending)).2

/-- How far time may be moved on, and for which timer. -/
structure Goal where
  timer : TimerRef
  instant : Instant
deriving DecidableEq

/-- The next deadline of a timer that time may be moved on to. -/
def Goal.reaches (goal : Option Goal) (t : TimerRef) (due : Instant) : Bool :=
  match goal with
  | some g => g.timer = t ∧ due ≤ g.instant
  | none => false

/-- Forgets the tasks that were to be called off. -/
def disarm (s : Session) (h : Handle) : Session :=
  s.updateHandle h.name fun h => { h with armed := [] }

/-- Lets a timer's thread record why it ends, if it has left its loop. What is dropped then does
not panic. -/
def recordEnd (s : Session) (h : Handle) : Session :=
  (s.perform (.worker h.ref) (·.record h.ref false)).2

/-- Lets a timer's thread take a turn, and end where it comes to that; `none` if there is nothing
for it to do. -/
def turn? (goal : Option Goal) (s : Session) (h : Handle) : Option Session :=
  let timer := s.world.timer h.ref
  if timer.stage.isOver then none
  else
    let thread : Thread := .worker h.ref
    match s.perform thread (·.work h.ref h.armed) with
    | (.wait none, _) => none
    | (.wait (some due), s) =>
      if Goal.reaches goal h.ref due then
        some { s with world := s.world.setClock h.ref (timer.clock.moveTo due) }
      else none
    | (.fire firing, s) => some (((s.disarm h).runBody h firing).recordEnd h)
    | (.discardDue _, s) => some (s.disarm h)
    | (.fault _, s) => some ((s.disarm h).recordEnd h)
    | (.stop _, s) => some (s.recordEnd h)
    | (.discard _, s) => some s

/-- Lets the timers' threads take turns, at most `bound` of them; of several timers with
something to do, the one that was started first goes first. -/
def settleWithin (goal : Option Goal) : (bound : Nat) → Session → Session
  | 0, s => s
  | bound + 1, s =>
    match s.handles.findSome? (s.turn? goal) with
    | some s => settleWithin goal bound s
    | none => s

/-- How many turns are taken at most before the main thread goes on. -/
def turnBound : Nat := 1000000000

/-- Lets the timers' threads work until none has anything to do. -/
def settle (s : Session) (goal : Option Goal) : Session := settleWithin goal turnBound s

end TaskTimer.Session
