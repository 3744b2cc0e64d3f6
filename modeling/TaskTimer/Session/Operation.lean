/-
TaskTimer.Session.Operation — carrying out what a script says.

The main thread and the bodies of tasks carry out the same operations. An operation through a
handle that was given up is refused, and then it does not even make the task that it names.
-/
import TaskTimer.Session.State
import TaskTimer.World.Submission

namespace TaskTimer.Session

/-- Carries out an operation on a task, which is made now if it is new. -/
def execTask (s : Session) (thread : Thread) (name : String) (op : TaskOp) : Answer × Session :=
  let (k, s) := s.mention thread name
  match op with
  | .cancel =>
    let (done, s) := s.perform thread (·.cancelTask k)
    (.flag done, s)
  | .inspect => (.task (s.view k), s)

/-- Lets a timer read another clock. -/
def setClock (s : Session) (h : Handle) (clock : Clock) : Answer × Session :=
  (.done, { s with world := s.world.setClock h.ref clock })

/-- Carries out an operation on the surroundings of a timer. -/
def execClock (s : Session) (thread : Thread) (h : Handle) (op : ClockOp) : Answer × Session :=
  let clock := (s.world.timer h.ref).clock
  match op with
  | .advance d =>
    match clock.advance? d with
    | some clock => s.setClock h clock
    | none => (.refused .outOfTime, s)
  | .setNow now => s.setClock h { clock with now := now }
  | .setWall wall => s.setClock h { clock with wall := wall }
  | .armCancel task =>
    let (k, s) := s.mention thread task
    (.done, s.updateHandle h.name fun h => { h with armed := h.armed ++ [k] })

/-- The operation of the world that submits a task. -/
def Submission.op (way : Submission) (t : TimerRef) (k : TaskRef) (w : World) :
    Outcome (Except SubmissionError Unit) :=
  match way with
  | .once delay => w.scheduleAfter t k delay
  | .onceAt time => w.scheduleAt t k time
  | .fixedDelay delay period => w.fixedDelayAfter t k delay period
  | .fixedDelayFrom time period => w.fixedDelayAt t k time period
  | .fixedRate delay period => w.fixedRateAfter t k delay period
  | .fixedRateFrom time period => w.fixedRateAt t k time period

/-- Submits a job as a new task, which gets the job's name if it is accepted. -/
def submitJob (s : Session) (thread : Thread) (job : String)
    (op : World → Outcome (Except SubmissionError TaskRef)) : Answer × Session :=
  match s.perform thread op with
  | (.ok k, s) => (.done, s.bind { name := job, ref := k, mayFail := true })
  | (.error e, s) => (.error e.error, s)

/-- Carries out an operation through the handle of a timer. -/
def execTimer (s : Session) (thread : Thread) (h : Handle) (op : TimerOp) : Answer × Session :=
  let timer := s.world.timer h.ref
  match op with
  | .submission task way =>
    let (k, s) := s.mention thread task
    match s.perform thread (way.op h.ref k) with
    | (.ok (), s) => (.done, s)
    | (.error e, s) => (.error e.error, s)
  | .submit job delay => s.submitJob thread job (·.submitOnce h.ref delay)
  | .submitRepeating job delay period mode =>
    s.submitJob thread job (·.submitRepeating h.ref delay period mode)
  | .cancel task => s.execTask thread task .cancel
  | .cancelAll => (.done, (s.perform thread (·.cancelAll h.ref)).2)
  | .close => (.done, (s.perform thread (·.close h.ref)).2)
  | .purge =>
    let (removed, s) := s.perform thread (·.purge h.ref)
    (.count removed, s)
  | .accepting => (.flag timer.accepting, s)
  | .queued => (.count timer.queue.size, s)
  | .reason => (.reason (timer.shutdown.map (·.map s.taskLabel)), s)
  | .name => (.text h.name, s)
  | .debug => (.text (s.debugTimer h), s)
  | .drop =>
    let (_, s) := s.perform thread (·.close h.ref)
    (.done, s.updateHandle h.name fun h => { h with held := false })

/-- The handle of the timer of that name, if it is still held. -/
def held? (s : Session) (name : String) : Option Handle :=
  match s.handle? name with
  | some h => if h.held then some h else none
  | none => none

/-- Carries out an operation. `own` is the timer that is meant where none is named. -/
def exec (s : Session) (thread : Thread) (own : String) : Command → Answer × Session
  | .task name op => s.execTask thread name op
  | .clock timer op =>
    match s.handle? (timer.getD own) with
    | some h => s.execClock thread h op
    | none => (.refused .noHandle, s)
  | .timer timer op =>
    match s.held? (timer.getD own) with
    | some h => s.execTimer thread h op
    | none => (.refused .noHandle, s)

end TaskTimer.Session
