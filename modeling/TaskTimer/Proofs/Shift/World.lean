/-
TaskTimer.Proofs.Shift.World — what timers do follows from the differences of their readings.

Two worlds are `World.Shifted` if their clocks show readings that correspond by a `Shift`, all
deadlines differ by the constant of their monotonic clocks, and everything else is the same.
Operations on such worlds have the same answers and events, but for the instants in them, and lead
to such worlds again (`Outcome.Shifted`). None of them needs to know how large the constant is.
-/
import TaskTimer.Proofs.Shift.Queue
import TaskTimer.Proofs.World.Operations

namespace TaskTimer

variable {c : Int} {δ : Shift}

/-! ## Tasks -/

/-- The same record, with all instants `c` later. A task that no timer has accepted has not run. -/
structure Task.Shifted (c : Int) (x x' : Task) : Prop where
  state : x'.state = x.state
  next : Option.Rel (Nanos.Shifted c) x.next x'.next
  period : x'.period = x.period
  executions : x'.executions = x.executions
  latest : Option.Rel (Nanos.Shifted c) x.latestDeadline x'.latestDeadline
  fresh : x.state = .created → x.executions = 0

namespace Task

namespace Shifted

variable {x x' : Task} {due due' : Instant}

theorem eq_of_zero (h : x.Shifted 0 x') : x' = x := by
  have hstate := h.state
  have hnext := Nanos.Shifted.option_eq h.next
  have hperiod := h.period
  have hexecutions := h.executions
  cases x
  cases x'
  simp_all

/-- A task that was just made. -/
theorem new : Shifted c {} {} := ⟨rfl, .none, rfl, rfl, .none, fun _ => rfl⟩

theorem schedule (h : x.Shifted c x') (hnew : x.state = .created) (hdue : due.Shifted c due')
    (p : Period) :
    Shifted c { x with state := .scheduled, next := some due, period := p }
      { x' with state := .scheduled, next := some due', period := p } := by
  have hnone := h.fresh hnew
  have hnone' : x'.executions = 0 := h.executions.trans hnone
  refine ⟨rfl, .some hdue, rfl, h.executions, ?_, by simp⟩
  rw [latestDeadline_of_fresh (by exact hnone), latestDeadline_of_fresh (by exact hnone')]
  exact .some hdue

theorem cancel (h : x.Shifted c x') :
    Shifted c { x with state := .cancelled } { x' with state := .cancelled } :=
  ⟨rfl, h.next, h.period, h.executions, h.latest, by simp⟩

theorem retire (h : x.Shifted c x') (honce : x.period = .once) :
    Shifted c { x with executions := x.executions + 1, state := .executed }
      { x' with executions := x'.executions + 1, state := .executed } := by
  refine ⟨rfl, h.next, h.period, congrArg (· + 1) h.executions, ?_, by simp⟩
  rw [latestDeadline_of_once (by exact honce), latestDeadline_of_once (by exact h.period ▸ honce)]
  exact h.next

theorem postpone (h : x.Shifted c x') (hlive : x.state ≠ .created) {every : Duration}
    (hevery : x.period.every? = some every) (hdue : due.Shifted c due')
    (hback : Option.Rel (Nanos.Shifted c) (due.sub? every) (due'.sub? every)) :
    Shifted c { x with executions := x.executions + 1, next := some due }
      { x' with executions := x'.executions + 1, next := some due' } := by
  refine ⟨h.state, .some hdue, h.period, congrArg (· + 1) h.executions, ?_, ?_⟩
  · rw [latestDeadline_of_repeats (by rfl) (by exact hevery) (by simp),
      latestDeadline_of_repeats (by rfl) (by exact h.period ▸ hevery) (by simp)]
    exact hback
  · intro hcreated
    exact absurd hcreated hlive

end Shifted

end Task

/-- The same execution, `c` later. -/
structure Firing.Shifted {ι : Type} (c : Int) (f f' : Firing ι) : Prop where
  task : f'.task = f.task
  due : f.due.Shifted c f'.due
  firedAt : f.firedAt.Shifted c f'.firedAt
  period : f'.period = f.period
  execution : f'.execution = f.execution

namespace Firing.Shifted

variable {ι : Type} {f f' : Firing ι}

theorem eq_of_zero (h : f.Shifted 0 f') : f' = f := by
  have htask := h.task
  have hdue := Nanos.Shifted.zero_iff.1 h.due
  have hfired := Nanos.Shifted.zero_iff.1 h.firedAt
  have hperiod := h.period
  have hexecution := h.execution
  cases f
  cases f'
  simp_all

/-- How late an execution is does not change. -/
theorem lateness_eq (h : f.Shifted c f') : f'.lateness = f.lateness := by
  have hdue := h.due
  have hfired := h.firedAt
  unfold Nanos.Shifted at hdue hfired
  unfold Firing.lateness Instant.lengthTo
  by_cases hle : f.due.val ≤ f.firedAt.val
  · rw [dif_pos hle, dif_pos (by omega)]
    exact Nanos.ext (by simp only; omega)
  · rw [dif_neg hle, dif_neg (by omega)]

end Firing.Shifted

/-! ## Timers and worlds -/

/-- The same timer, with all deadlines later and clocks that correspond. -/
structure Timer.Shifted (δ : Shift) (x x' : Timer) : Prop where
  clock : x.clock.Shifted δ x'.clock
  queue : x.queue.Shifted δ.now x'.queue
  accepting : x'.accepting = x.accepting
  cancelled : x'.cancelled = x.cancelled
  shutdown : x'.shutdown = x.shutdown
  stage : x'.stage = x.stage

namespace Timer.Shifted

variable {x x' : Timer}

theorem setQueue (h : x.Shifted δ x') {q q' : Queue TaskRef} (hq : q.Shifted δ.now q') :
    Shifted δ { x with queue := q } { x' with queue := q' } :=
  ⟨h.clock, hq, h.accepting, h.cancelled, h.shutdown, h.stage⟩

/-- Where no monotonic clock is shifted, nothing but the wall clock may be different. -/
theorem exists_wall_of_zero (h : x.Shifted δ x') (hδ : δ.now = 0) :
    ∃ wall, x' = { x with clock := { now := x.clock.now, wall := wall } } := by
  obtain ⟨⟨hnow, -⟩, hqueue, haccepting, hcancelled, hshutdown, hstage⟩ := h
  rw [hδ] at hnow hqueue
  refine ⟨x'.clock.wall, ?_⟩
  rw [← Nanos.Shifted.zero_iff.1 hnow, ← hqueue.eq_of_zero, ← haccepting, ← hcancelled,
    ← hshutdown, ← hstage]

end Timer.Shifted

/-- The same tasks and timers, but for clocks and deadlines. -/
structure World.Shifted (δ : Shift) (w w' : World) : Prop where
  taskCount : w'.taskCount = w.taskCount
  timerCount : w'.timerCount = w.timerCount
  task : ∀ k, (w.task k).Shifted δ.now (w'.task k)
  timer : ∀ t, w.HasTimer t → (w.timer t).Shifted δ (w'.timer t)

/-- The same event, but for the instants of an execution. -/
def Event.Shifted (c : Int) : Event → Event → Prop
  | .firing t f, event => ∃ f', event = .firing t f' ∧ f.Shifted c f'
  | event, event' => event' = event

theorem Event.Shifted.eq_of_zero {e e' : Event} (h : e.Shifted 0 e') : e' = e := by
  cases e with
  | firing t f =>
    obtain ⟨f', rfl, hf⟩ := h
    rw [hf.eq_of_zero]
  | _ => exact h

/-- What a turn comes to is the same, but for the instants in it. -/
def Turn.Shifted (c : Int) : Turn → Turn → Prop
  | .wait due, turn => ∃ due', turn = .wait due' ∧ Option.Rel (Nanos.Shifted c) due due'
  | .fire f, turn => ∃ f', turn = .fire f' ∧ f.Shifted c f'
  | turn, turn' => turn' = turn

theorem Turn.Shifted.eq_of_zero {x x' : Turn} (h : x.Shifted 0 x') : x' = x := by
  cases x with
  | wait due =>
    obtain ⟨due', rfl, hdue⟩ := h
    rw [Nanos.Shifted.option_eq hdue]
  | fire f =>
    obtain ⟨f', rfl, hf⟩ := h
    rw [hf.eq_of_zero]
  | _ => exact h

/-- The next deadline of what a turn fires is within the range of instants. -/
def Turn.Exact : Turn → Prop
  | .fire f => f.Exact
  | _ => True

instance : (turn : Turn) → Decidable turn.Exact
  | .fire f => inferInstanceAs (Decidable f.Exact)
  | .wait _ | .stop _ | .discard _ | .discardDue _ | .fault _ => inferInstanceAs (Decidable True)

/-- Answers that `R` relates, the same events, and worlds that correspond. -/
structure Outcome.Shifted {ρ : Type} (δ : Shift) (R : ρ → ρ → Prop) (o o' : Outcome ρ) : Prop where
  result : R o.result o'.result
  world : o.world.Shifted δ o'.world
  events : List.Forall₂ (Event.Shifted δ.now) o.events o'.events

namespace Outcome.Shifted

variable {ρ κ : Type} {R : ρ → ρ → Prop} {S : κ → κ → Prop} {o o' : Outcome ρ}

theorem andThen (h : o.Shifted δ R o') {next next' : ρ → World → Outcome κ}
    (hnext : ∀ r r' w w', R r r' → w.Shifted δ w' → (next r w).Shifted δ S (next' r' w')) :
    (o.andThen next).Shifted δ S (o'.andThen next') := by
  have later := hnext _ _ _ _ h.result h.world
  exact ⟨later.result, later.world, List.rel_append h.events later.events⟩

theorem map (h : o.Shifted δ R o') {f f' : ρ → κ} (hf : ∀ r r', R r r' → S (f r) (f' r')) :
    (o.map f).Shifted δ S (o'.map f') :=
  ⟨hf _ _ h.result, h.world, h.events⟩

/-- What is handed out is the same where the answers are. -/
theorem handOut {o o' : Outcome (Except SubmissionError Unit)} (h : o.Shifted δ Eq o')
    (k : TaskRef) : (World.handOut k o).Shifted δ Eq (World.handOut k o') :=
  h.map fun _ _ hr => congrArg _ hr

end Outcome.Shifted

namespace World.Shifted

variable {w w' : World} {t : TimerRef} {k : TaskRef}

theorem hasTimer_iff (h : w.Shifted δ w') (t : TimerRef) : w'.HasTimer t ↔ w.HasTimer t := by
  rw [HasTimer, HasTimer, h.timerCount]

theorem hasTask_iff (h : w.Shifted δ w') (k : TaskRef) : w'.HasTask k ↔ w.HasTask k := by
  rw [HasTask, HasTask, h.taskCount]

theorem empty : World.empty.Shifted δ .empty := by
  refine ⟨rfl, rfl, fun _ => .new, fun t ht => ?_⟩
  simp [HasTimer, World.empty] at ht

theorem setTask (h : w.Shifted δ w') {x x' : Task} (hx : x.Shifted δ.now x') :
    (w.setTask k x).Shifted δ (w'.setTask k x') := by
  refine ⟨h.taskCount, h.timerCount, fun j => ?_, h.timer⟩
  rw [task_setTask, task_setTask]
  split
  · exact hx
  · exact h.task j

theorem setTimer (h : w.Shifted δ w') {x x' : Timer} (hx : x.Shifted δ x') :
    (w.setTimer t x).Shifted δ (w'.setTimer t x') := by
  refine ⟨h.taskCount, h.timerCount, h.task, fun u hu => ?_⟩
  rw [timer_setTimer, timer_setTimer]
  split
  · exact hx
  · exact h.timer u hu

/-- An operation that changes nothing. -/
theorem unchanged {ρ : Type} (h : w.Shifted δ w') (answer : ρ) :
    Outcome.Shifted δ Eq { result := answer, world := w } { result := answer, world := w' } :=
  ⟨rfl, h, .nil⟩

/-! ## Making tasks and timers -/

theorem newTask (h : w.Shifted δ w') : (w.newTask).Shifted δ Eq w'.newTask := by
  have made := h.setTask (k := ⟨w.taskCount⟩) .new
  rw [World.newTask, World.newTask, h.taskCount]
  exact ⟨rfl, ⟨rfl, made.timerCount, made.task, made.timer⟩, .nil⟩

theorem startTimer (h : w.Shifted δ w') {x x' : Clock} (hx : x.Shifted δ x') :
    (w.startTimer x).Shifted δ Eq (w'.startTimer x') := by
  rw [World.startTimer, World.startTimer, h.timerCount]
  refine ⟨rfl, ⟨h.taskCount, rfl, h.task, fun t ht => ?_⟩, .cons rfl .nil⟩
  show ((w.setTimer _ _).timer t).Shifted δ ((w'.setTimer _ _).timer t)
  rw [timer_setTimer, timer_setTimer]
  split
  · exact ⟨hx, .empty, rfl, rfl, rfl, rfl⟩
  · next hne =>
    refine h.timer t (Nat.lt_of_le_of_ne (Nat.le_of_lt_succ ht) fun heq => hne ?_)
    exact congrArg TimerRef.mk heq

theorem setClock (h : w.Shifted δ w') (ht : w.HasTimer t) {x x' : Clock} (hx : x.Shifted δ x') :
    (w.setClock t x).Shifted δ (w'.setClock t x') :=
  have timer := h.timer t ht
  h.setTimer ⟨hx, timer.queue, timer.accepting, timer.cancelled, timer.shutdown, timer.stage⟩

/-! ## Submissions -/

variable {due due' : Instant}

theorem isHead_eq {q q' : Queue TaskRef} (h : q.Shifted c q') (k : TaskRef) :
    isHead q' k = isHead q k := by
  have hpeek := h.peek
  unfold isHead
  generalize q.peek = head, q'.peek = head' at hpeek ⊢
  cases hpeek with
  | none => rfl
  | some he => simp only [he.item]

theorem accept (h : w.Shifted δ w') (ht : w.HasTimer t) (hdue : due.Shifted δ.now due')
    (p : Period) : (w.accept t k due p).Shifted δ Eq (w'.accept t k due' p) := by
  have timer := h.timer t ht
  have task := h.task k
  cases hopen : (w.timer t).accepting with
  | false =>
    rw [accept_of_closed hopen, accept_of_closed (timer.accepting.trans hopen)]
    exact ⟨rfl, h, .cons rfl .nil⟩
  | true =>
    have hopen' := timer.accepting.trans hopen
    by_cases hnew : (w.task k).state = .created
    · have queue := timer.queue.push hdue k
      rw [accept_of_created hopen hnew, accept_of_created hopen' (task.state.trans hnew),
        isHead_eq queue]
      refine ⟨rfl, ?_, .cons rfl .nil⟩
      exact (h.setTask (task.schedule hnew hdue p)).setTimer (timer.setQueue queue)
    · rw [accept_of_used hopen hnew, accept_of_used hopen' (task.state ▸ hnew), task.state]
      exact h.unchanged _

theorem submitChecked (h : w.Shifted δ w') (ht : w.HasTimer t)
    {start start' : Except SubmissionError Instant}
    (hstart : SameUpTo (Nanos.Shifted δ.now) start start')
    (period : Except SubmissionError Period) :
    (w.submitChecked t k start period).Shifted δ Eq (w'.submitChecked t k start' period) := by
  cases hstart with
  | error e => exact h.unchanged _
  | ok hdue =>
    cases period with
    | error e => exact h.unchanged _
    | ok p => exact h.accept ht hdue p

theorem submitOnce (h : w.Shifted δ w') (ht : w.HasTimer t) {delay : Delay}
    (hexact : δ.now = 0 ∨
      (w.timer t).ExactAfter delay ∧ (w'.timer t).ExactAfter delay) :
    (w.submitOnce t delay).Shifted δ Eq (w'.submitOnce t delay) := by
  have start := Timer.shifted_dueAfter (h.timer t ht).clock hexact
  have hnew : (w'.newTask).result = (w.newTask).result := h.newTask.result.symm
  show (World.handOut (w.newTask).result ((w.newTask).world.submitChecked t (w.newTask).result
      ((w.timer t).dueAfter delay) (.ok .once))).Shifted δ Eq
    (World.handOut (w'.newTask).result ((w'.newTask).world.submitChecked t (w'.newTask).result
      ((w'.timer t).dueAfter delay) (.ok .once)))
  rw [hnew]
  exact (h.newTask.world.submitChecked ht start _).handOut _

theorem submitRepeating (h : w.Shifted δ w') (ht : w.HasTimer t) {delay : Delay}
    (hexact : δ.now = 0 ∨
      (w.timer t).ExactAfter delay ∧ (w'.timer t).ExactAfter delay)
    (period : Delay) (mode : RepeatMode) :
    (w.submitRepeating t delay period mode).Shifted δ Eq
      (w'.submitRepeating t delay period mode) := by
  have start := Timer.shifted_dueAfter (h.timer t ht).clock hexact
  have hnew : (w'.newTask).result = (w.newTask).result := h.newTask.result.symm
  unfold World.submitRepeating
  generalize (w.timer t).dueAfter delay = due, (w'.timer t).dueAfter delay = due' at start ⊢
  cases start with
  | error e => exact h.unchanged _
  | ok hdue =>
    cases mode.every period with
    | error e => exact h.unchanged _
    | ok p =>
      show (World.handOut (w.newTask).result ((w.newTask).world.accept t _ _ p)).Shifted δ Eq
        (World.handOut (w'.newTask).result ((w'.newTask).world.accept t _ _ p))
      rw [hnew]
      exact (h.newTask.world.accept ht hdue p).handOut _

/-! ## Calling off -/

theorem cancelTask (h : w.Shifted δ w') (k : TaskRef) :
    (w.cancelTask k).Shifted δ Eq (w'.cancelTask k) := by
  have task := h.task k
  cases hopen : (w.task k).state.canBecome .cancelled with
  | true =>
    rw [cancelTask_of_open hopen, cancelTask_of_open (task.state ▸ hopen)]
    exact ⟨rfl, h.setTask task.cancel, .cons rfl .nil⟩
  | false =>
    rw [cancelTask_of_ended hopen, cancelTask_of_ended (task.state ▸ hopen)]
    exact h.unchanged _

theorem cancelEach (h : w.Shifted δ w') (ks : List TaskRef) :
    (w.cancelEach ks).Shifted δ Eq (w'.cancelEach ks) := by
  induction ks generalizing w w' with
  | nil => exact h.unchanged _
  | cons k ks ih => exact (h.cancelTask k).andThen fun _ _ _ _ _ hworld => ih hworld

theorem cancelAll (h : w.Shifted δ w') (ht : w.HasTimer t) :
    (w.cancelAll t).Shifted δ Eq (w'.cancelAll t) := by
  have timer := h.timer t ht
  refine ⟨rfl, h.setTimer ⟨timer.clock, .empty, rfl, rfl, timer.shutdown, timer.stage⟩, ?_⟩
  simp only [World.cancelAll, timer.accepting, timer.cancelled, timer.queue.size_eq]
  split
  · exact .cons rfl .nil
  · exact .nil

theorem close (h : w.Shifted δ w') (ht : w.HasTimer t) :
    (w.close t).Shifted δ Eq (w'.close t) := by
  have timer := h.timer t ht
  unfold World.close
  simp only [timer.accepting, timer.queue.size_eq]
  split
  · refine ⟨rfl, h.setTimer ?_, .cons rfl .nil⟩
    exact ⟨timer.clock, timer.queue, rfl, timer.cancelled, timer.shutdown, timer.stage⟩
  · exact h.unchanged _

theorem purge (h : w.Shifted δ w') (ht : w.HasTimer t) :
    (w.purge t).Shifted δ Eq (w'.purge t) := by
  have timer := h.timer t ht
  have htest : w'.isCancelled = w.isCancelled := by
    funext k
    rw [isCancelled, isCancelled, (h.task k).state]
  obtain ⟨hlength, left⟩ := timer.queue.purge w.isCancelled
  unfold World.purge
  simp only [htest, hlength, List.isEmpty_iff_length_eq_zero]
  refine ⟨rfl, ?_, ?_⟩
  · exact h.setTimer (timer.setQueue left)
  · split
    · exact .nil
    · exact .cons rfl .nil

/-! ## A thread's turn -/

theorem dropHead (h : w.Shifted δ w') (ht : w.HasTimer t) :
    (w.dropHead t).Shifted δ (w'.dropHead t) :=
  have timer := h.timer t ht
  h.setTimer (timer.setQueue timer.queue.dropMin)

theorem setStage (h : w.Shifted δ w') (ht : w.HasTimer t) (stage : Stage) :
    (w.setStage t stage).Shifted δ (w'.setStage t stage) :=
  have timer := h.timer t ht
  h.setTimer ⟨timer.clock, timer.queue, timer.accepting, timer.cancelled, timer.shutdown, rfl⟩

theorem finish (h : w.Shifted δ w') (ht : w.HasTimer t) (k : TaskRef) (ending : Ending) :
    (w.finish t k ending).Shifted δ Eq (w'.finish t k ending) := by
  unfold World.finish
  split
  · exact h.unchanged _
  · exact ⟨rfl, h.setStage ht _, .nil⟩

theorem record (h : w.Shifted δ w') (ht : w.HasTimer t) (bursts : Bool) :
    (w.record t bursts).Shifted δ Eq (w'.record t bursts) := by
  have timer := h.timer t ht
  have hstage := congrArg Stage.reason? timer.stage
  cases hreason : (w.timer t).stage.reason? with
  | none =>
    simp only [World.record, hstage, hreason]
    exact h.unchanged _
  | some reason =>
    simp only [World.record, hstage, hreason, timer.queue.size_eq]
    refine ⟨rfl, h.setTimer ⟨timer.clock, .empty, rfl, timer.cancelled, rfl, rfl⟩, ?_⟩
    cases bursts with
    | true => exact .nil
    | false => exact .cons rfl .nil

variable {head head' : Entry TaskRef}

theorem firing (h : w.Shifted δ w') (ht : w.HasTimer t) (hhead : head.Shifted δ.now head') :
    (w.firing t head).Shifted δ.now (w'.firing t head') := by
  have task := h.task head.item
  unfold World.firing
  rw [hhead.item]
  exact ⟨rfl, hhead.due, (h.timer t ht).clock.now, task.period, congrArg (· + 1) task.executions⟩

/-- What fires in one world fires in the other. -/
theorem fires (h : w.Shifted δ w') (hhead : head.Shifted δ.now head') (hfires : w.Fires t head)
    (hpeek : (w'.timer t).queue.peek = some head') : w'.Fires t head' := by
  have timer := h.timer t hfires.hasTimer
  refine ⟨(h.hasTimer_iff t).2 hfires.hasTimer, hpeek, ?_, ?_⟩
  · rw [hhead.item, (h.task head.item).state]
    exact hfires.live
  · exact (hhead.due.le_iff timer.clock.now).2 hfires.due_le

/-- The head is retired in both worlds, or gets next deadlines that correspond. -/
theorem fireHead (h : w.Shifted δ w') (ht : w.HasTimer t) (hhead : head.Shifted δ.now head')
    (hused : (w.task head.item).state ≠ .created)
    (hexact : δ.now = 0 ∨ (w.firing t head).Exact ∧ (w'.firing t head').Exact) :
    (w.fireHead t head).Shifted δ (Turn.Shifted δ.now) (w'.fireHead t head') := by
  have timer := h.timer t ht
  have task := h.task head.item
  have firing := h.firing ht hhead
  have next := Period.shifted_next firing.due firing.firedAt (p := (w.firing t head).period)
    (hexact.imp_right fun ⟨hx, hx'⟩ => ⟨hx, firing.period ▸ hx'⟩)
  unfold World.fireHead
  simp only [hhead.item]
  rcases next with ⟨honce, hnone, hnone'⟩ |
    ⟨every, next, next', hevery, hnext, hnext', hshift, hback⟩
  · change (w.task head.item).period.next? head.due (w.timer t).clock.now = none at hnone
    change (w.task head.item).period.next? head'.due (w'.timer t).clock.now = none at hnone'
    simp only [hnone, task.period ▸ hnone']
    exact ⟨⟨_, rfl, firing⟩, (h.dropHead ht).setTask (task.retire honce),
      .cons ⟨_, rfl, firing⟩ .nil⟩
  · change (w.task head.item).period.next? head.due (w.timer t).clock.now = some next at hnext
    change (w.task head.item).period.next? head'.due (w'.timer t).clock.now = some next' at hnext'
    have queues := timer.queue.postponeMin hshift
    simp only [hnext, task.period ▸ hnext']
    generalize (w.timer t).queue.postponeMin next = queue,
      (w'.timer t).queue.postponeMin next' = queue' at queues ⊢
    cases queues with
    | error e => exact ⟨rfl, h.setStage ht _, .nil⟩
    | ok queue =>
      refine ⟨⟨_, rfl, firing⟩, ?_, .cons ⟨_, rfl, firing⟩ .nil⟩
      exact (h.setTimer (timer.setQueue queue)).setTask (task.postpone hused hevery hshift hback)

theorem work (h : w.Shifted δ w') (ht : w.HasTimer t)
    (hused : ∀ head, (w.timer t).queue.peek = some head → (w.task head.item).state ≠ .created)
    {interim : List TaskRef}
    (hexact : δ.now = 0 ∨ (w.work t interim).result.Exact ∧ (w'.work t interim).result.Exact) :
    (w.work t interim).Shifted δ (Turn.Shifted δ.now) (w'.work t interim) := by
  have timer := h.timer t ht
  have hpeeks := timer.queue.peek
  generalize hpeek : (w.timer t).queue.peek = head, hpeek' : (w'.timer t).queue.peek = head'
    at hpeeks
  cases hpeeks with
  | none =>
    cases hopen : (w.timer t).accepting with
    | true =>
      rw [work_of_open interim hpeek hopen,
        work_of_open interim hpeek' (timer.accepting.trans hopen)]
      exact ⟨⟨none, rfl, .none⟩, h, .nil⟩
    | false =>
      rw [work_of_closed interim hpeek hopen,
        work_of_closed interim hpeek' (timer.accepting.trans hopen)]
      have hreason : restReason (w'.timer t) = restReason (w.timer t) := by
        rw [restReason, restReason, timer.cancelled]
      rw [hreason]
      exact ⟨rfl, h.setStage ht _, .nil⟩
  | @some head head' hhead =>
    have task := h.task head.item
    by_cases hcancelled : (w.task head.item).state = .cancelled
    · rw [work_of_cancelled interim hpeek hcancelled,
        work_of_cancelled interim hpeek' (by rw [hhead.item, task.state, hcancelled]), hhead.item]
      exact ⟨rfl, h.dropHead ht, .nil⟩
    · have hcancelled' : (w'.task head'.item).state ≠ .cancelled := by
        rwa [hhead.item, task.state]
      by_cases hdue : head.due ≤ (w.timer t).clock.now
      · have hdue' := (hhead.due.le_iff timer.clock.now).2 hdue
        have off := h.cancelEach interim
        have ht₁ : (w.cancelEach interim).world.HasTimer t := by
          rwa [HasTimer, timerCount_cancelEach]
        by_cases hlive : ((w.cancelEach interim).world.task head.item).state = .cancelled
        · rw [work_of_cancelled_between hpeek hcancelled hdue hlive,
            work_of_cancelled_between hpeek' hcancelled' hdue'
              (by rw [hhead.item, (off.world.task _).state, hlive]), hhead.item]
          exact ⟨rfl, off.world.dropHead ht₁, off.events⟩
        · have hfires := fires_cancelEach ht hpeek hdue hlive
          have hfires' := off.world.fires hhead hfires (by rwa [timer_cancelEach])
          rw [work_of_due hpeek hcancelled hdue hfires,
            work_of_due hpeek' hcancelled' hdue' hfires'] at hexact ⊢
          have hstate := (state_cancelEach_eq_or w interim head.item).resolve_right hlive
          have fired := off.world.fireHead ht₁ hhead (hstate ▸ hused head hpeek) hexact
          exact ⟨⟨_, rfl, off.world.firing ht₁ hhead⟩, fired.world,
            List.rel_append off.events fired.events⟩
      · have hearly := Std.not_le.1 hdue
        rw [work_of_early interim hpeek hcancelled hearly,
          work_of_early interim hpeek' hcancelled' ((timer.clock.now.lt_iff hhead.due).2 hearly)]
        exact ⟨⟨_, rfl, .some hhead.due⟩, h, .nil⟩

end World.Shifted

end TaskTimer
