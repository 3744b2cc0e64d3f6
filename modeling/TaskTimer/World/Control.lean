/-
TaskTimer.World.Control — everything else that can be asked of timers and tasks.

Tasks are called off one at a time (`cancelTask`) or all of a timer's at once (`cancelAll`);
`close` lets what is queued run and takes no more. `purge` removes cancelled tasks from a queue
before their turn comes. The clocks are moved from outside.
-/
import TaskTimer.World.Basic

namespace TaskTimer.World

/-- Lets a timer read another clock from now on. -/
def setClock (w : World) (t : TimerRef) (clock : Clock) : World :=
  w.setTimer t { w.timer t with clock := clock }

/-- Calls a task off, unless it has ended; says whether this call did it. -/
def cancelTask (w : World) (k : TaskRef) : Outcome Bool :=
  match (w.task k).cancel? with
  | some task => { result := true, world := w.setTask k task, events := [.taskCancelled k] }
  | none => { result := false, world := w }

/-- Calls off one task after another. -/
def cancelEach (w : World) : List TaskRef → Outcome Unit
  | [] => { result := (), world := w }
  | k :: ks => (w.cancelTask k).andThen fun _ w => w.cancelEach ks

/-- Stops taking tasks and drops every queued one. The event says so the first time only. -/
def cancelAll (w : World) (t : TimerRef) : Outcome Unit :=
  let timer := w.timer t
  { result := ()
    world := w.setTimer t { timer with queue := .empty, accepting := false, cancelled := true }
    events := if timer.accepting || !timer.cancelled then [.timerCancelled t timer.queue.size]
      else [] }

/-- Stops taking tasks and lets the queued ones run. -/
def close (w : World) (t : TimerRef) : Outcome Unit :=
  let timer := w.timer t
  if timer.accepting then
    { result := ()
      world := w.setTimer t { timer with accepting := false }
      events := [.timerClosed t timer.queue.size] }
  else { result := (), world := w }

/-- Whether a task has been called off. -/
def isCancelled (w : World) (k : TaskRef) : Bool := (w.task k).state = .cancelled

/-- Takes every cancelled task out of the queue; says how many there were. -/
def purge (w : World) (t : TimerRef) : Outcome Nat :=
  let timer := w.timer t
  let (removed, queue) := timer.queue.purge w.isCancelled
  { result := removed.length
    world := w.setTimer t { timer with queue := queue }
    events := if removed.isEmpty then [] else [.purged t removed.length] }

end TaskTimer.World
