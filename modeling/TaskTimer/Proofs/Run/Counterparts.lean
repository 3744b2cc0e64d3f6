/-
TaskTimer.Proofs.Run.Counterparts — the calls that come to the same as others.

Of the eight calls that submit a task, three would do. A submission for a wall time is, answer,
world and events, the one for the delay until then (`Submission.op_delayed`): both compute the same
deadline, and what comes after that does not look back at how it was asked for. A call that makes
its task is the making of a task followed by its submission in the plain way that the call stands
for (`SubmissionCall.handsOut_perform`). Here the two sides may differ in one thing. If the
arguments are at fault, `submitRepeating` has not made a task; but a task that was made and not
submitted has the same record as one that was not made.
-/
import TaskTimer.Proofs.Run.Submission

namespace TaskTimer

/-! ## Wall times -/

namespace Session.Submission

/-- The submission for the delay until the wall time, where one is given. -/
def delayed (clock : Clock) : Submission → Submission
  | .onceAt time => .once (clock.delayUntil time)
  | .fixedDelayFrom time period => .fixedDelay (clock.delayUntil time) period
  | .fixedRateFrom time period => .fixedRate (clock.delayUntil time) period
  | way => way

/-- A submission for a wall time from the epoch on is one for the delay until then. -/
theorem op_delayed (way : Submission) (h : ¬ way.moment.Past) (t : TimerRef) (k : TaskRef)
    (w : World) : way.op t k w = (way.delayed (w.timer t).clock).op t k w := by
  rw [op_eq, op_eq]
  cases way with
  | once | fixedDelay | fixedRate => rfl
  | onceAt time | fixedDelayFrom time | fixedRateFrom time =>
    exact congrArg (w.submitChecked t k · _) (Timer.dueAt_eq_dueAfter _ (Int.not_lt.1 h))

end Session.Submission

/-! ## Tasks made on the spot -/

/-- The submission of a task that was made before, which repeats in this mode. -/
def RepeatMode.submission (delay period : Delay) : RepeatMode → Session.Submission
  | .fixedRate => .fixedRate delay period
  | .fixedDelay => .fixedDelay delay period

/-- The outcome `o'` is `o`, with the task `k` handed out if it was accepted. No timer and no task
differs, and nothing at all if it was. -/
structure Outcome.HandsOut (k : TaskRef) (o : Outcome (Except SubmissionError Unit))
    (o' : Outcome (Except SubmissionError TaskRef)) : Prop where
  result : o'.result = o.result.map fun _ => k
  events : o'.events = o.events
  world : o.world.Agrees o'.world
  accepted : o.result = .ok () → o'.world = o.world

theorem World.Agrees.symm {w w' : World} (h : w.Agrees w') : w'.Agrees w :=
  ⟨fun t => (h.timer t).symm, fun k => (h.task k).symm⟩

namespace SubmissionCall

variable {w : World} {log : List Event}

/-- How the call submits its task. -/
def way : SubmissionCall → Session.Submission
  | .task _ way => way
  | .job delay => .once delay
  | .repeatingJob delay period mode => mode.submission delay period

theorem moment_way (call : SubmissionCall) : call.way.moment = call.moment := by
  cases call with
  | task | job => rfl
  | repeatingJob _ _ mode => cases mode <;> rfl

theorem repetition_way (call : SubmissionCall) : call.way.repetition = call.repetition := by
  cases call with
  | task | job => rfl
  | repeatingJob _ _ mode => cases mode <;> rfl

/-- Each call submits its task the plain way, once that is made. -/
theorem handsOut_perform (hr : Recorded w log) (call : SubmissionCall) (t : TimerRef) :
    (call.way.op t (call.target w) (call.made w)).HandsOut (call.target w)
      (call.perform t w) := by
  have hmade := agrees_made hr call
  rw [call.way.op_eq, call.way.start_eq, call.way.period_eq, call.moment_way,
    call.repetition_way, hmade.timer]
  have fault : ∀ {e}, (call.perform t w).result = .error e ∧ (call.perform t w).events = [] ∧
      ((call.perform t w).world = w ∨ (call.perform t w).world = call.made w) →
      Outcome.HandsOut (call.target w) { result := .error e, world := call.made w }
        (call.perform t w) := by
    rintro e ⟨hresult, hevents, hworld⟩
    refine ⟨hresult, hevents, ?_, fun hok => by cases hok⟩
    rcases hworld with hworld | hworld <;> rw [hworld]
    · exact hmade.symm
    · exact .refl _
  cases hdue : call.moment.deadline (w.timer t) with
  | error e => exact fault (perform_of_fault (.inl hdue))
  | ok due =>
    cases hp : call.repetition.period with
    | error e => exact fault (perform_of_fault (.inr ⟨⟨due, hdue⟩, hp⟩))
    | ok p =>
      rw [perform_of_proper hdue hp]
      exact ⟨rfl, rfl, .refl _, fun _ => rfl⟩

end SubmissionCall

/-- **The submission paths agree.** After every run and by whatever the clocks show then: for a
wall time from the epoch on, each of the three calls comes to the same as its counterpart with the
delay until that time, or none if it is past; the answer, the world and the events are equal, for
every task and every period. And a call that makes its task answers, notes and changes what the
making of a task and its submission by the plain call do, `submitRepeating` by the one that its
mode names, for every delay and every period; the task, which was not there before, is handed out
if and only if it is accepted. -/
theorem submission_paths_agree (acts : List Action) (t : TimerRef) :
    let w := (System.after acts).world
    let made := w.newTask.world
    let fresh := w.newTask.result
    (∀ (k : TaskRef) (time : WallTime), 0 ≤ time.val →
      let delay := (w.timer t).clock.delayUntil time
      delay.val = max 0 (time.val - (w.timer t).clock.wall.val) ∧
      w.scheduleAt t k time = w.scheduleAfter t k delay ∧
      ∀ period, w.fixedDelayAt t k time period = w.fixedDelayAfter t k delay period ∧
        w.fixedRateAt t k time period = w.fixedRateAfter t k delay period) ∧
    ¬ w.HasTask fresh ∧ made.task fresh = {} ∧
    ∀ delay : Delay,
      (made.scheduleAfter t fresh delay).HandsOut fresh (w.submitOnce t delay) ∧
      ∀ period : Delay,
        (made.fixedRateAfter t fresh delay period).HandsOut fresh
          (w.submitRepeating t delay period .fixedRate) ∧
        (made.fixedDelayAfter t fresh delay period).HandsOut fresh
          (w.submitRepeating t delay period .fixedDelay) := by
  have hr := recorded_after acts
  refine ⟨fun k time htime => ⟨rfl, ?_, fun period => ⟨?_, ?_⟩⟩, Nat.lt_irrefl _,
    World.task_newTask_result _, fun delay => ⟨?_, fun period => ⟨?_, ?_⟩⟩⟩
  · exact Session.Submission.op_delayed (.onceAt time) (Int.not_lt.2 htime) t k _
  · exact Session.Submission.op_delayed (.fixedDelayFrom time period) (Int.not_lt.2 htime) t k _
  · exact Session.Submission.op_delayed (.fixedRateFrom time period) (Int.not_lt.2 htime) t k _
  · exact SubmissionCall.handsOut_perform hr (.job delay) t
  · exact SubmissionCall.handsOut_perform hr (.repeatingJob delay period .fixedRate) t
  · exact SubmissionCall.handsOut_perform hr (.repeatingJob delay period .fixedDelay) t

end TaskTimer
