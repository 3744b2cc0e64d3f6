/-
TaskTimer.Session.Run — a whole session, step by step.

After each step of the main thread all timers settle; then a `Record` tells the answer to the
step, how the timers stand, which executions took place and what each thread noted.
-/
import TaskTimer.Session.Settle

namespace TaskTimer.Session

/-- What shows of a timer through its handle. -/
structure HandleView where
  accepting : Bool
  queued : Nat
  reason : Option (Shutdown String)
deriving DecidableEq

/-- A look at a timer. -/
structure TimerView where
  clock : Clock
  /-- Whether the thread has ended. -/
  stopped : Bool
  /-- What the handle shows, as long as it is held. -/
  handle : Option HandleView
deriving DecidableEq

/-- What a step came to. -/
structure Record where
  answer : Answer
  timers : List (String × TimerView)
  executions : List Execution
  /-- The threads that noted something, with what they noted. -/
  log : List (String × List LogLine)
deriving DecidableEq

/-- A look at a timer. -/
def timerView (s : Session) (h : Handle) : TimerView :=
  let timer := s.world.timer h.ref
  { clock := timer.clock
    stopped := timer.stage.isOver
    handle :=
      if h.held then
        some
          { accepting := timer.accepting
            queued := timer.queue.size
            reason := timer.shutdown.map (·.map s.taskLabel) }
      else none }

/-- What one thread noted since the last step. -/
def linesOf (s : Session) (thread : Thread) : List LogLine :=
  (s.log.reverse.filter (fun entry => entry.1 == thread)).map (fun entry => entry.2.line s.labels)

/-- What the threads noted since the last step. -/
def logByThread (s : Session) : List (String × List LogLine) :=
  let all := ("main", s.linesOf .main) ::
    s.handles.map fun h => (h.name, s.linesOf (.worker h.ref))
  all.filter fun entry => !entry.2.isEmpty

/-- What a step came to that was given this answer. -/
def record (s : Session) (answer : Answer) : Record :=
  { answer := answer
    timers := s.handles.map fun h => (h.name, s.timerView h)
    executions := s.executions.reverse
    log := s.logByThread }

/-- Starts a timer. -/
def start (s : Session) (name : String) (clock : Clock) : Answer × Session :=
  match s.handle? name with
  | some _ => (.refused .nameTaken, s)
  | none =>
    let o := s.world.startTimer clock
    (.done,
      { s with
        world := o.world
        handles := s.handles ++ [{ name := name, ref := o.result }]
        log := (o.events.map (Thread.worker o.result, ·)).reverse ++ s.log })

/-- Lets `d` pass for a timer, from one deadline to the next. -/
def run (s : Session) (name : String) (d : Duration) : Answer × Session :=
  match s.handle? name with
  | none => (.refused .noHandle, s)
  | some h =>
    match (s.world.timer h.ref).clock.now.add? d with
    | none => (.refused .outOfTime, s)
    | some target =>
      let s := s.settle (some { timer := h.ref, instant := target })
      let clock := (s.world.timer h.ref).clock
      if clock.now < target then s.setClock h (clock.moveTo target) else (.done, s)

/-- Closes a timer and lets time pass until its thread ends. -/
def drainTimer (s : Session) (h : Handle) : Session :=
  (s.perform .main (·.close h.ref)).2.settle (some { timer := h.ref, instant := .last })

/-- Closes a timer that is held and lets time pass until its thread ends. -/
def drain (s : Session) (name : String) : Answer × Session :=
  match s.held? name with
  | some h => (.done, s.drainTimer h)
  | none => (.refused .noHandle, s)

/-- Gives a handle up, closes the timer and waits for its thread to end. -/
def join (s : Session) (name : String) : Answer × Session :=
  match s.held? name with
  | some h =>
    let s := (s.updateHandle name fun h => { h with held := false }).drainTimer h
    match (s.world.timer h.ref).joined with
    | .ok reason => (.reason (some (reason.map s.taskLabel)), s)
    | .error e => (.error (e.map s.taskLabel), s)
  | none => (.refused .noHandle, s)

/-- The timer that the main thread means where a command names none. -/
def mainTimer : String := "T"

/-- Takes a step of the main thread. -/
def step (s : Session) : Step → Answer × Session
  | .start name clock => s.start name clock
  | .run name d => s.run name d
  | .drain name => s.drain name
  | .join name => s.join name
  | .command c => s.exec .main mainTimer c

/-- Takes a step, lets all timers settle, and tells what it came to. -/
def recordStep (s : Session) (x : Step) : Record × Session :=
  let (answer, s) := s.step x
  let s := s.settle none
  (s.record answer, { s with executions := [], log := [] })

/-- Takes one step after another. -/
def recordSteps (s : Session) : List Step → List Record × Session
  | [] => ([], s)
  | x :: xs =>
    let (r, s) := s.recordStep x
    let (rs, s) := s.recordSteps xs
    (r :: rs, s)

/-- A session in which jobs have the given bodies, and nothing has happened. -/
def ofBodies (bodies : List (String × Body)) : Session := { bodies := bodies }

/-- A look at each task that a name refers to. -/
def taskViews (s : Session) : List (String × TaskView) :=
  (s.tasks.filter fun entry => s.task? entry.name = some entry.ref).map fun entry =>
    (entry.name, s.view entry.ref)

end TaskTimer.Session
