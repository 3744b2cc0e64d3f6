/-
TaskTimer.Proofs.Run.Submission — how a timer answers a submission, and what that changes.

A task comes to a timer by one of eight calls (`SubmissionCall`). Six submit a task that was made
before, two make it themselves. Each asks for the moment of the first execution (`Moment`) and for
a repetition or none (`Repetition`), and then all are answered alike: `SubmissionCall.verdict` is
that answer, one check after another.

* `SubmissionCall.perform_of_fault` and `perform_of_proper` bring the eight calls to two cases. In
  the first one the arguments are at fault, and nothing happens; in the second one the task is
  offered to the timer.
* `World.Agrees` says that no timer and no task has changed, and `World.Takes` that one task has
  come into one queue and nothing else has changed.
-/
import TaskTimer.Proofs.Run.Record
import TaskTimer.Proofs.World.FirstDeadline

namespace TaskTimer

/-! ## What a call asks for -/

/-- When the first execution is asked for. -/
inductive Moment where
  | delayed (delay : Delay)
  | wall (time : WallTime)
deriving DecidableEq

namespace Moment

/-- The delay is negative, or the time is before the epoch. -/
def Past : Moment → Prop
  | .delayed delay => delay.val < 0
  | .wall time => time.val < 0

instance : (m : Moment) → Decidable m.Past
  | .delayed delay => inferInstanceAs (Decidable (delay.val < 0))
  | .wall time => inferInstanceAs (Decidable (time.val < 0))

/-- What is said of a moment that is past. -/
def fault : Moment → SubmissionError
  | .delayed _ => .negativeDelay
  | .wall _ => .timeBeforeEpoch

/-- The deadline that the moment stands for, by the clocks of the timer. -/
def deadline (timer : Timer) : Moment → Except SubmissionError Instant
  | .delayed delay => timer.dueAfter delay
  | .wall time => timer.dueAt time

variable {m : Moment}

theorem deadline_of_past (timer : Timer) (h : m.Past) : m.deadline timer = .error m.fault := by
  cases m with
  | delayed delay => simp [deadline, Timer.dueAfter, Delay.toDuration?_of_neg h, fault]
  | wall time => exact if_pos h

theorem exists_deadline (timer : Timer) (h : ¬ m.Past) : ∃ due, m.deadline timer = .ok due := by
  cases m with
  | delayed delay =>
    obtain ⟨length, hlength, -⟩ := Delay.exists_toDuration? (Int.not_lt.1 h)
    simp [deadline, Timer.dueAfter, hlength]
  | wall time => exact ⟨_, if_neg h⟩

end Moment

/-- A positive period is taken as it is. -/
theorem RepeatMode.exists_every (mode : RepeatMode) {period : Delay} (h : 0 < period.val) :
    ∃ length : Duration, length.val = period.val ∧ mode.every period = .ok (mode.period length) := by
  obtain ⟨length, hlength, hval⟩ := Delay.exists_toDuration? (Int.le_of_lt h)
  exact ⟨length, hval, by simp [RepeatMode.every, hlength, hval, Int.ne_of_gt h]⟩

/-- How a task is asked to repeat. -/
inductive Repetition where
  | never
  | every (mode : RepeatMode) (period : Delay)
deriving DecidableEq

namespace Repetition

/-- The period is not positive. -/
def Improper : Repetition → Prop
  | .never => False
  | .every _ period => period.val ≤ 0

instance : (r : Repetition) → Decidable r.Improper
  | .never => inferInstanceAs (Decidable False)
  | .every _ period => inferInstanceAs (Decidable (period.val ≤ 0))

/-- How the task repeats then. -/
def period : Repetition → Except SubmissionError Period
  | .never => .ok .once
  | .every mode period => mode.every period

variable {r : Repetition}

theorem period_of_improper (h : r.Improper) : r.period = .error .nonPositivePeriod := by
  cases r with
  | never => cases h
  | every mode period =>
    rcases Int.lt_or_eq_of_le h with hneg | hzero
    · simp [Repetition.period, RepeatMode.every, Delay.toDuration?_of_neg hneg]
    · obtain ⟨length, hlength, hval⟩ := Delay.exists_toDuration? (Int.le_of_eq hzero.symm)
      simp [Repetition.period, RepeatMode.every, hlength, hval, hzero]

theorem exists_period (h : ¬ r.Improper) : ∃ p, r.period = .ok p := by
  cases r with
  | never => exact ⟨.once, rfl⟩
  | every mode period =>
    obtain ⟨length, -, hlength⟩ := mode.exists_every (Int.not_le.1 h)
    exact ⟨mode.period length, hlength⟩

/-- A repetition that is in order is none, or has a period of the length that is asked for. -/
theorem period_cases {p : Period} (h : r.period = .ok p) :
    p = .once ∨ ∃ (mode : RepeatMode) (period : Delay) (length : Duration),
      p = mode.period length ∧ length.val = period.val ∧ 0 < period.val := by
  cases r with
  | never => exact .inl (Except.ok.inj h).symm
  | every mode period =>
    by_cases himproper : Improper (.every mode period)
    · rw [period_of_improper himproper] at h
      cases h
    · have hpos : 0 < period.val := Int.not_le.1 himproper
      obtain ⟨length, hval, hlength⟩ := mode.exists_every hpos
      exact .inr ⟨mode, period, length, Except.ok.inj (h.symm.trans hlength), hval, hpos⟩

end Repetition

namespace Session.Submission

/-- When the first execution is asked for. -/
def moment : Submission → Moment
  | .once delay | .fixedDelay delay _ | .fixedRate delay _ => .delayed delay
  | .onceAt time | .fixedDelayFrom time _ | .fixedRateFrom time _ => .wall time

/-- How the task is asked to repeat. -/
def repetition : Submission → Repetition
  | .once _ | .onceAt _ => .never
  | .fixedDelay _ period | .fixedDelayFrom _ period => .every .fixedDelay period
  | .fixedRate _ period | .fixedRateFrom _ period => .every .fixedRate period

theorem start_eq (way : Submission) (timer : Timer) :
    way.start timer = way.moment.deadline timer := by
  cases way <;> rfl

theorem period_eq (way : Submission) : way.period = way.repetition.period := by
  cases way <;> rfl

end Session.Submission

/-! ## The eight calls -/

/-- A call that hands a task to a timer. -/
inductive SubmissionCall where
  /-- The six ways to submit a task that was made before. -/
  | task (k : TaskRef) (way : Session.Submission)
  /-- A task made on the spot, to run once. -/
  | job (delay : Delay)
  /-- A task made on the spot, to repeat. -/
  | repeatingJob (delay period : Delay) (mode : RepeatMode)
deriving DecidableEq

namespace SubmissionCall

/-- What the call does to a world, if it is made on `t`. -/
def perform (t : TimerRef) (w : World) :
    SubmissionCall → Outcome (Except SubmissionError TaskRef)
  | .task k way => World.handOut k (way.op t k w)
  | .job delay => w.submitOnce t delay
  | .repeatingJob delay period mode => w.submitRepeating t delay period mode

/-- The task that the call submits. -/
def target (w : World) : SubmissionCall → TaskRef
  | .task k _ => k
  | .job _ | .repeatingJob _ _ _ => w.newTask.result

/-- The world in which that task has been made. -/
def made (w : World) : SubmissionCall → World
  | .task _ _ => w
  | .job _ | .repeatingJob _ _ _ => w.newTask.world

/-- When the first execution is asked for. -/
def moment : SubmissionCall → Moment
  | .task _ way => way.moment
  | .job delay | .repeatingJob delay _ _ => .delayed delay

/-- How the task is asked to repeat. -/
def repetition : SubmissionCall → Repetition
  | .task _ way => way.repetition
  | .job _ => .never
  | .repeatingJob _ period mode => .every mode period

/-- The arguments are in order. -/
def Proper (call : SubmissionCall) : Prop := ¬ call.moment.Past ∧ ¬ call.repetition.Improper

/-- The answer, from one check after another. -/
def verdict (t : TimerRef) (w : World) (call : SubmissionCall) :
    Except SubmissionError TaskRef :=
  let k := call.target w
  if call.moment.Past then .error call.moment.fault
  else if call.repetition.Improper then .error .nonPositivePeriod
  else if (w.timer t).accepting = false then .error .notAccepting
  else if (w.task k).state ≠ .created then .error (.notCreated (w.task k).state)
  else .ok k

end SubmissionCall

/-- The kind of error that a caller is told, if any. -/
def refusal? : Except SubmissionError TaskRef → Option String
  | .ok _ => none
  | .error e => some (e.error : TimerError TaskRef).kind

namespace World

/-- The task that `submitOnce` makes is there even if the delay is negative. -/
theorem submitOnce_of_error {w : World} {t : TimerRef} {delay : Delay} {e : SubmissionError}
    (h : (w.timer t).dueAfter delay = .error e) :
    w.submitOnce t delay = { result := .error e, world := w.newTask.world } := by
  have h' : (w.newTask.world.timer t).dueAfter delay = .error e := h
  simp only [submitOnce, Outcome.andThen, scheduleAfter, submitChecked, h']
  rfl

/-- No timer and no task differs. -/
structure Agrees (w w' : World) : Prop where
  timer : ∀ t, w'.timer t = w.timer t
  task : ∀ k, w'.task k = w.task k

theorem Agrees.refl (w : World) : w.Agrees w := ⟨fun _ => rfl, fun _ => rfl⟩

/-- From `w` to `w'` the timer `t` has taken the task `k`, which no timer had queued, and nothing
else has changed but the layout of the queue. -/
structure Takes (w : World) (t : TimerRef) (k : TaskRef) (due : Instant) (period : Period)
    (w' : World) : Prop where
  fresh : ∀ u, ∀ e ∈ w.queued u, e.item ≠ k
  queue : (w'.queued t).Perm (⟨due, k⟩ :: w.queued t)
  timer : w'.timer t = { w.timer t with queue := (w'.timer t).queue }
  task : w'.task k = { w.task k with state := .scheduled, next := some due, period := period }
  otherTimers : ∀ u, u ≠ t → w'.timer u = w.timer u
  otherTasks : ∀ j, j ≠ k → w'.task j = w.task j

theorem takes_enqueue {w : World} (hc : Coupled w) {k : TaskRef}
    (hnew : (w.task k).state = .created) (t : TimerRef) (due : Instant) (period : Period) :
    w.Takes t k due period (w.enqueue t k due period) := by
  have htimer : (w.enqueue t k due period).timer t =
      { w.timer t with queue := (w.timer t).queue.push due k } := timer_setTimer_same _ _ _
  constructor
  · exact hc.not_queued_of_created hnew
  · rw [queued, htimer]
    exact Queue.toList_push _ due k
  · rw [htimer]
  · exact task_setTask_same w k _
  · exact fun u hu => timer_setTimer_of_ne _ hu _
  · exact fun j hj => task_setTask_of_ne w hj _

end World

namespace SubmissionCall

variable {call : SubmissionCall} {t : TimerRef} {w : World} {log : List Event}

/-! ## Two cases for all calls -/

/-- Arguments at fault are told, the moment before the period, and there is no event. -/
theorem perform_of_fault {e : SubmissionError}
    (h : call.moment.deadline (w.timer t) = .error e ∨
      (∃ due, call.moment.deadline (w.timer t) = .ok due) ∧ call.repetition.period = .error e) :
    (call.perform t w).result = .error e ∧ (call.perform t w).events = [] ∧
      ((call.perform t w).world = w ∨ (call.perform t w).world = call.made w) := by
  cases call with
  | task k way =>
    simp only [moment, repetition, ← way.start_eq, ← way.period_eq] at h
    simp only [perform, way.op_eq]
    rcases h with hstart | ⟨⟨due, hstart⟩, hperiod⟩
    · simp [World.submitChecked, World.handOut, Outcome.map, Except.map, hstart]
    · simp [World.submitChecked, World.handOut, Outcome.map, Except.map, hstart, hperiod]
  | job delay =>
    rcases h with hstart | ⟨-, hperiod⟩
    · rw [perform, World.submitOnce_of_error hstart]
      exact ⟨rfl, rfl, .inr rfl⟩
    · cases hperiod
  | repeatingJob delay period mode =>
    simp only [moment, repetition, Moment.deadline, Repetition.period] at h
    rcases h with hstart | ⟨⟨due, hstart⟩, hperiod⟩
    · simp [perform, World.submitRepeating, hstart]
    · simp [perform, World.submitRepeating, hstart, hperiod]

/-- With arguments in order, the task is offered to the timer. -/
theorem perform_of_proper {due : Instant} {p : Period}
    (hdue : call.moment.deadline (w.timer t) = .ok due) (hp : call.repetition.period = .ok p) :
    call.perform t w = World.handOut (call.target w)
      ((call.made w).accept t (call.target w) due p) := by
  cases call with
  | task k way =>
    simp only [moment, repetition, ← way.start_eq, ← way.period_eq] at hdue hp
    simp only [perform, way.op_eq, hdue, hp, World.submitChecked]
    rfl
  | job delay =>
    obtain rfl := Except.ok.inj hp
    exact World.submitOnce_of_ok hdue
  | repeatingJob delay period mode => exact World.submitRepeating_of_ok hdue hp

/-- A task that is made had a blank record before. -/
theorem agrees_made (hr : Recorded w log) (call : SubmissionCall) : w.Agrees (call.made w) := by
  cases call with
  | task => exact .refl w
  | job | repeatingJob => exact ⟨fun _ => rfl, hr.task_newTask⟩

theorem coupled_made (hc : Coupled w) (call : SubmissionCall) : Coupled (call.made w) := by
  cases call with
  | task => exact hc
  | job | repeatingJob => exact hc.newTask

theorem not_proper_iff : ¬ call.Proper ↔ call.moment.Past ∨ call.repetition.Improper := by
  rw [Proper, Classical.not_and_iff_not_or_not, Decidable.not_not, Decidable.not_not]

/-- What the moment and the period of a call with arguments in order stand for. -/
theorem Proper.exists_ok (h : call.Proper) (timer : Timer) :
    ∃ due p, call.moment.deadline timer = .ok due ∧ call.repetition.period = .ok p := by
  obtain ⟨due, hdue⟩ := Moment.exists_deadline timer h.1
  obtain ⟨p, hp⟩ := Repetition.exists_period h.2
  exact ⟨due, p, hdue, hp⟩

/-! ## The answer -/

/-- A call with arguments at fault says so and changes nothing. -/
theorem perform_of_not_proper (hr : Recorded w log) (h : ¬ call.Proper) :
    (call.perform t w).result = call.verdict t w ∧ (call.perform t w).events = [] ∧
      w.Agrees (call.perform t w).world := by
  have frame : ∀ {w'}, w' = w ∨ w' = call.made w → w.Agrees w' := by
    rintro w' (rfl | rfl)
    · exact .refl _
    · exact agrees_made hr call
  by_cases hpast : call.moment.Past
  · obtain ⟨hresult, hevents, hworld⟩ :=
      perform_of_fault (t := t) (.inl (Moment.deadline_of_past _ hpast))
    exact ⟨by simp [hresult, verdict, hpast], hevents, frame hworld⟩
  · have himproper := (not_proper_iff.1 h).resolve_left hpast
    obtain ⟨hresult, hevents, hworld⟩ := perform_of_fault (t := t)
      (.inr ⟨Moment.exists_deadline _ hpast, Repetition.period_of_improper himproper⟩)
    exact ⟨by simp [hresult, verdict, hpast, himproper], hevents, frame hworld⟩

/-- A timer that takes no tasks says so to every call with arguments in order. -/
theorem perform_of_closed (hr : Recorded w log) (h : call.Proper)
    (hclosed : (w.timer t).accepting = false) :
    (call.perform t w).result = .error .notAccepting ∧
      (call.perform t w).events = [.rejected t (call.target w)] ∧
      w.Agrees (call.perform t w).world := by
  obtain ⟨due, p, hdue, hp⟩ := h.exists_ok (w.timer t)
  have hclosed' : ((call.made w).timer t).accepting = false := by
    rw [(agrees_made hr call).timer, hclosed]
  rw [perform_of_proper hdue hp, World.accept_of_closed hclosed']
  exact ⟨rfl, rfl, agrees_made hr call⟩

/-- A task that is not new is turned away. -/
theorem perform_of_used (hr : Recorded w log) (h : call.Proper)
    (hopen : (w.timer t).accepting = true) (hused : (w.task (call.target w)).state ≠ .created) :
    (call.perform t w).result = .error (.notCreated (w.task (call.target w)).state) ∧
      (call.perform t w).events = [] ∧ w.Agrees (call.perform t w).world := by
  obtain ⟨due, p, hdue, hp⟩ := h.exists_ok (w.timer t)
  have agrees := agrees_made hr call
  have hopen' : ((call.made w).timer t).accepting = true := by rw [agrees.timer, hopen]
  have hused' : ((call.made w).task (call.target w)).state ≠ .created := by rwa [agrees.task]
  rw [perform_of_proper hdue hp, World.accept_of_used hopen' hused', agrees.task]
  exact ⟨rfl, rfl, agrees⟩

/-- A new task is taken, and the log says so. -/
theorem perform_of_created (hc : Coupled w) (hr : Recorded w log) (h : call.Proper)
    (hopen : (w.timer t).accepting = true) (hnew : (w.task (call.target w)).state = .created) :
    (call.perform t w).result = .ok (call.target w) ∧
      ∃ due p, call.moment.deadline (w.timer t) = .ok due ∧ call.repetition.period = .ok p ∧
        w.Takes t (call.target w) due p (call.perform t w).world ∧
        ∃ newHead, (call.perform t w).events = [.scheduled t (call.target w) p newHead] := by
  obtain ⟨due, p, hdue, hp⟩ := h.exists_ok (w.timer t)
  have agrees := agrees_made hr call
  have hopen' : ((call.made w).timer t).accepting = true := by rw [agrees.timer, hopen]
  have hnew' : ((call.made w).task (call.target w)).state = .created := by
    rw [agrees.task, hnew]
  have takes := World.takes_enqueue (coupled_made hc call) hnew' t due p
  have taken : w.Takes t (call.target w) due p
      ((call.made w).enqueue t (call.target w) due p) := by
    have hqueued : ∀ u, (call.made w).queued u = w.queued u := fun u => by
      rw [World.queued, World.queued, agrees.timer]
    constructor
    · simpa only [hqueued] using takes.fresh
    · simpa only [hqueued] using takes.queue
    · simpa only [agrees.timer] using takes.timer
    · simpa only [agrees.task] using takes.task
    · simpa only [agrees.timer] using takes.otherTimers
    · simpa only [agrees.task] using takes.otherTasks
  rw [perform_of_proper hdue hp, World.accept_of_created hopen' hnew']
  exact ⟨rfl, due, p, hdue, hp, taken, _, rfl⟩

/-- The four ways a call can go, in the order of the checks. -/
inductive Checked (t : TimerRef) (w : World) (call : SubmissionCall) : Prop
  | fault (hfault : ¬ call.Proper)
  | closed (hproper : call.Proper) (hclosed : (w.timer t).accepting = false)
  | used (hproper : call.Proper) (hopen : (w.timer t).accepting = true)
      (hused : (w.task (call.target w)).state ≠ .created)
  | created (hproper : call.Proper) (hopen : (w.timer t).accepting = true)
      (hnew : (w.task (call.target w)).state = .created)

theorem checked (call : SubmissionCall) (t : TimerRef) (w : World) : call.Checked t w := by
  by_cases hproper : call.Proper
  · cases hopen : (w.timer t).accepting with
    | false => exact .closed hproper hopen
    | true =>
      by_cases hnew : (w.task (call.target w)).state = .created
      · exact .created hproper hopen hnew
      · exact .used hproper hopen hnew
  · exact .fault hproper

/-! ## The verdict, check by check -/

theorem verdict_of_not_proper (h : ¬ call.Proper) (t : TimerRef) (w : World) :
    ∃ e, call.verdict t w = .error e ∧ refusal? (.error e) = some "InvalidArgument" := by
  by_cases hpast : call.moment.Past
  · refine ⟨call.moment.fault, if_pos hpast, ?_⟩
    cases call.moment <;> rfl
  · have himproper := (not_proper_iff.1 h).resolve_left hpast
    exact ⟨.nonPositivePeriod, by simp [verdict, hpast, himproper], rfl⟩

theorem verdict_of_closed (h : call.Proper) (hclosed : (w.timer t).accepting = false) :
    call.verdict t w = .error .notAccepting := by
  simp [verdict, h.1, h.2, hclosed]

theorem verdict_of_used (h : call.Proper) (hopen : (w.timer t).accepting = true)
    (hused : (w.task (call.target w)).state ≠ .created) :
    call.verdict t w = .error (.notCreated (w.task (call.target w)).state) := by
  simp [verdict, h.1, h.2, hopen, hused]

theorem verdict_of_created (h : call.Proper) (hopen : (w.timer t).accepting = true)
    (hnew : (w.task (call.target w)).state = .created) :
    call.verdict t w = .ok (call.target w) := by
  simp [verdict, h.1, h.2, hopen, hnew]

theorem result_perform (hc : Coupled w) (hr : Recorded w log) (call : SubmissionCall)
    (t : TimerRef) : (call.perform t w).result = call.verdict t w := by
  cases call.checked t w with
  | fault hfault => exact (perform_of_not_proper hr hfault).1
  | closed hproper hclosed =>
    rw [(perform_of_closed hr hproper hclosed).1, verdict_of_closed hproper hclosed]
  | used hproper hopen hused =>
    rw [(perform_of_used hr hproper hopen hused).1, verdict_of_used hproper hopen hused]
  | created hproper hopen hnew =>
    rw [(perform_of_created hc hr hproper hopen hnew).1, verdict_of_created hproper hopen hnew]

/-- Each kind of answer stands for one check. -/
theorem verdict_iff (call : SubmissionCall) (t : TimerRef) (w : World) :
    let k := call.target w
    let answer := call.verdict t w
    (refusal? answer = some "InvalidArgument" ↔ ¬ call.Proper) ∧
    (refusal? answer = some "IllegalState" ↔ call.Proper ∧ (w.timer t).accepting = false) ∧
    (refusal? answer = some "InvalidState" ↔
      call.Proper ∧ (w.timer t).accepting = true ∧ (w.task k).state ≠ .created) ∧
    (answer = .ok k ↔
      call.Proper ∧ (w.timer t).accepting = true ∧ (w.task k).state = .created) := by
  cases call.checked t w with
  | fault hfault =>
    obtain ⟨e, hverdict, hkind⟩ := verdict_of_not_proper hfault t w
    simp [hverdict, hkind, hfault]
  | closed hproper hclosed =>
    simp [verdict_of_closed hproper hclosed, hproper, hclosed, refusal?, SubmissionError.error,
      TimerError.kind]
  | used hproper hopen hused =>
    simp [verdict_of_used hproper hopen hused, hproper, hopen, hused, refusal?,
      SubmissionError.error, TimerError.kind]
  | created hproper hopen hnew =>
    simp [verdict_of_created hproper hopen hnew, hproper, hopen, hnew, refusal?]

/-- A call that is refused changes no timer and no task. -/
theorem agrees_of_error (hc : Coupled w) (hr : Recorded w log) {e : SubmissionError}
    (h : (call.perform t w).result = .error e) : w.Agrees (call.perform t w).world := by
  cases call.checked t w with
  | fault hfault => exact (perform_of_not_proper hr hfault).2.2
  | closed hproper hclosed => exact (perform_of_closed hr hproper hclosed).2.2
  | used hproper hopen hused => exact (perform_of_used hr hproper hopen hused).2.2
  | created hproper hopen hnew =>
    rw [(perform_of_created hc hr hproper hopen hnew).1] at h
    cases h

/-- A call hands out the task that it submits, if all its checks have passed. -/
theorem checks_of_ok (hc : Coupled w) (hr : Recorded w log) {k : TaskRef}
    (h : (call.perform t w).result = .ok k) :
    k = call.target w ∧ call.Proper ∧ (w.timer t).accepting = true ∧
      (w.task (call.target w)).state = .created := by
  cases call.checked t w with
  | fault hfault =>
    obtain ⟨e, hverdict, -⟩ := verdict_of_not_proper hfault t w
    rw [(perform_of_not_proper hr hfault).1, hverdict] at h
    cases h
  | closed hproper hclosed =>
    rw [(perform_of_closed hr hproper hclosed).1] at h
    cases h
  | used hproper hopen hused =>
    rw [(perform_of_used hr hproper hopen hused).1] at h
    cases h
  | created hproper hopen hnew =>
    rw [(perform_of_created hc hr hproper hopen hnew).1] at h
    exact ⟨(Except.ok.inj h).symm, hproper, hopen, hnew⟩

end SubmissionCall

/-- **Submissions are checked in order, and go through as a whole.** After every run, each of the
eight calls is answered by the first check that fails: the moment, the period, whether the timer
takes tasks, whether the task is new. So it is told of an invalid argument exactly if the delay is
negative, the time before the epoch or the period not positive; else of the timer's state exactly
if the timer takes no tasks; else of the task's state exactly if the task is not new; and else the
task is taken. A call that is refused leaves every timer, with its flags and the layout of its
queue, and every task as they are. One that is not adds one entry to the queue, the only one for
its task, and the record of the task gets the deadline and the period of that entry; nothing else
changes but the layout of that queue. -/
theorem submissions_checked_in_order (acts : List Action) (t : TimerRef)
    (call : SubmissionCall) :
    let w := (System.after acts).world
    let k := call.target w
    let o := call.perform t w
    o.result = call.verdict t w ∧
    (refusal? o.result = some "InvalidArgument" ↔
      call.moment.Past ∨ call.repetition.Improper) ∧
    (refusal? o.result = some "IllegalState" ↔
      call.Proper ∧ (w.timer t).accepting = false) ∧
    (refusal? o.result = some "InvalidState" ↔
      call.Proper ∧ (w.timer t).accepting = true ∧ (w.task k).state ≠ .created) ∧
    (o.result = .ok k ↔
      call.Proper ∧ (w.timer t).accepting = true ∧ (w.task k).state = .created) ∧
    (∀ e, o.result = .error e → w.Agrees o.world) ∧
    ∀ j, o.result = .ok j → j = k ∧
      ∃ due period, call.moment.deadline (w.timer t) = .ok due ∧
        call.repetition.period = .ok period ∧ w.Takes t k due period o.world := by
  have hc := coupled_after acts
  have hr := recorded_after acts
  have hverdict := SubmissionCall.result_perform hc hr call t
  obtain ⟨hargument, htimer, htask, hok⟩ := call.verdict_iff t (System.after acts).world
  simp only [hverdict]
  refine ⟨trivial, ?_, htimer, htask, hok, fun e he => ?_, fun j hj => ?_⟩
  · rw [hargument, SubmissionCall.not_proper_iff]
  · exact SubmissionCall.agrees_of_error hc hr (hverdict.trans he)
  · obtain ⟨hk, hproper, hopen, hnew⟩ := SubmissionCall.checks_of_ok hc hr (hverdict.trans hj)
    obtain ⟨-, due, period, hdue, hperiod, htakes, -⟩ :=
      SubmissionCall.perform_of_created hc hr hproper hopen hnew
    exact ⟨hk, due, period, hdue, hperiod, htakes⟩

/-- A period that is not positive comes first, be the timer closed and the task called off. -/
example :
    refusal? ((SubmissionCall.task ⟨0⟩ (.fixedRate 0 0)).perform ⟨0⟩
      (System.after [.startTimer { now := .origin, wall := .epoch }, .newTask, .cancelTask ⟨0⟩,
        .close ⟨0⟩]).world).result = some "InvalidArgument" := by
  decide +kernel

end TaskTimer
