/-
TaskTimer.World.Worker — what a timer's thread does.

The thread takes one turn after another (`work`). A turn looks at the head of the queue twice:
once to see whether it is due, and again, after a moment in which other threads may have called
tasks off, just before firing it. What was called off in between is a parameter of the turn, so
every interleaving is covered. A task that fires only once leaves the queue as it fires; a
repeating one gets its next deadline before its body runs.

A thread leaves its loop when a turn finds that there is nothing left to do, and when a body
fails or panics. It knows then why it ends (`Stage.leaving`), but it has let go of the timer, and
other threads may still do with it what they like before it takes hold of it again and records the
reason (`record`). The bodies themselves run outside: `finish` says how the thread goes on after
one.

Not every panic is caught. What a body threw is dropped outside of the loop, and so are the tasks
that are queued when the reason is recorded; a panic there unwinds out of the thread's function.
The tasks that a turn takes out, and those that a call drops, are taken to go without a panic.
-/
import TaskTimer.Task.Ending
import TaskTimer.World.Control

namespace TaskTimer

/-- What one turn of a timer's thread came to. -/
inductive Turn where
  /-- There is nothing to do before this deadline, or before something is queued. -/
  | wait (due : Option Instant)
  /-- Nothing is queued and nothing more will be: the thread leaves its loop. -/
  | stop (reason : Shutdown TaskRef)
  /-- The head had been called off, and was taken out. -/
  | discard (task : TaskRef)
  /-- The head was due, was called off before it fired, and was taken out. -/
  | discardDue (task : TaskRef)
  /-- The head fired: its body is to run. -/
  | fire (firing : Firing TaskRef)
  /-- The head could not be given its next deadline. -/
  | fault (error : PostponeError)
deriving DecidableEq

/-- Where a panic in the loop of a thread takes it. What was thrown is dropped before anything is
recorded, and if this panics in turn, nothing keeps the thread from unwinding. -/
def Payload.stage (payload : Payload) : Stage :=
  if payload.bursts then .unwound else .leaving (.panicked payload.message)

/-- Where the end of the body of the task `k` takes the thread, if it does not go on. -/
def Ending.exit? (k : TaskRef) : Ending → Option Stage
  | .returned => none
  | .failed chain => some (.leaving (.taskFailed k (chainMessage chain)))
  | .garbled payload | .panicked payload => some payload.stage

namespace World

/-- Takes the thread of a timer to another stage. -/
def setStage (w : World) (t : TimerRef) (stage : Stage) : World :=
  w.setTimer t { w.timer t with stage := stage }

/-- Takes the head out of a timer's queue. -/
def dropHead (w : World) (t : TimerRef) : World :=
  let timer := w.timer t
  w.setTimer t { timer with queue := timer.queue.dropMin }

/-- The execution that begins when the entry `head` fires. -/
def firing (w : World) (t : TimerRef) (head : Entry TaskRef) : Firing TaskRef :=
  let task := w.task head.item
  { task := head.item
    due := head.due
    firedAt := (w.timer t).clock.now
    period := task.period
    execution := task.executions + 1 }

/-- Fires the head of a timer's queue: retires it, or moves it to its next deadline, and counts
the execution. -/
def fireHead (w : World) (t : TimerRef) (head : Entry TaskRef) : Outcome Turn :=
  let timer := w.timer t
  let task := w.task head.item
  let firing := w.firing t head
  let counted := { task with executions := task.executions + 1 }
  match task.period.next? head.due timer.clock.now with
  | none =>
    { result := .fire firing
      world := (w.dropHead t).setTask head.item { counted with state := .executed }
      events := [.firing t firing] }
  | some next =>
    match timer.queue.postponeMin next with
    | .ok queue =>
      { result := .fire firing
        world := (w.setTimer t { timer with queue := queue }).setTask head.item
          { counted with next := some next }
        events := [.firing t firing] }
    | .error e =>
      { result := .fault e, world := w.setStage t (.leaving (.panicked e.message)) }

/-- The second look at a head that was due: fires it, unless it has been called off. -/
def fireUnlessCancelled (w : World) (t : TimerRef) (head : Entry TaskRef) : Outcome Turn :=
  if w.isCancelled head.item then { result := .discardDue head.item, world := w.dropHead t }
  else w.fireHead t head

/-- Why a thread ends that has nothing left to do. -/
def restReason (timer : Timer) : Shutdown TaskRef :=
  if timer.cancelled then .cancelled else .drained

/-- One turn of a timer's thread. The tasks in `interim` are called off between the two looks at
the head, if there is a second one. -/
def work (w : World) (t : TimerRef) (interim : List TaskRef) : Outcome Turn :=
  let timer := w.timer t
  match timer.queue.peek with
  | none =>
    if timer.accepting then { result := .wait none, world := w }
    else
      { result := .stop (restReason timer)
        world := w.setStage t (.leaving (restReason timer)) }
  | some head =>
    if w.isCancelled head.item then { result := .discard head.item, world := w.dropHead t }
    else if timer.clock.now < head.due then { result := .wait (some head.due), world := w }
    else (w.cancelEach interim).andThen fun _ w => w.fireUnlessCancelled t head

/-- How a timer's thread goes on after the body of the task `k`: a body that fails or panics takes
it out of its loop. -/
def finish (w : World) (t : TimerRef) (k : TaskRef) (ending : Ending) : Outcome Unit :=
  match ending.exit? k with
  | none => { result := (), world := w }
  | some stage => { result := (), world := w.setStage t stage }

/-- Records why a timer's thread ends, once it has left its loop. The timer takes no more tasks,
and the queued ones are dropped; `bursts` says that one of them panics as that is done, which the
thread does not survive. -/
def record (w : World) (t : TimerRef) (bursts : Bool) : Outcome Unit :=
  let timer := w.timer t
  match timer.stage.reason? with
  | none => { result := (), world := w }
  | some reason =>
    { result := ()
      world := w.setTimer t
        { timer with
          queue := .empty
          accepting := false
          shutdown := some reason
          stage := if bursts then .unwound else .returned }
      events := if bursts then [] else [.threadEnded t reason timer.queue.size] }

end World

/-- What waiting for the thread of a timer yields, once that is over. -/
def Timer.joined (timer : Timer) : Except (TimerError TaskRef) (Shutdown TaskRef) :=
  match timer.stage with
  | .unwound => .error (.panicked "timer thread panicked")
  | .going | .leaving _ | .returned => Shutdown.joined timer.shutdown

end TaskTimer
