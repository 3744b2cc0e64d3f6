/-
TaskTimer.Proofs.World.Operations — what each operation of a world comes to.

For each way an operation can go there is one equation with its condition: `accept_of_closed`,
`accept_of_used` and `accept_of_created` for a submission, `cancelTask_of_open` and
`cancelTask_of_ended` for a task, and five equations for a turn of a thread (`work_of_open`,
`work_of_closed`, `work_of_cancelled`, `work_of_early`, `work_of_due`, with
`work_of_cancelled_between` where the head is called off between the two looks at it). The worlds
that they lead to have names: `enqueue`, `retire`, `postpone`, `setStage`, `ended`. `ComesTo` puts
the ways a turn can go side by side, for proofs by cases. What is proved of runs rests on these
equations and opens no operation again.
-/
import TaskTimer.Proofs.Queue.Operations
import TaskTimer.World.Submission
import TaskTimer.World.Worker

namespace TaskTimer

namespace World

/-- Whether `t` was started. -/
def HasTimer (w : World) (t : TimerRef) : Prop := t.index < w.timerCount

/-- Whether `k` was made. -/
def HasTask (w : World) (k : TaskRef) : Prop := k.index < w.taskCount

instance (w : World) (t : TimerRef) : Decidable (w.HasTimer t) :=
  inferInstanceAs (Decidable (_ < _))

instance (w : World) (k : TaskRef) : Decidable (w.HasTask k) :=
  inferInstanceAs (Decidable (_ < _))

/-! ## The tables after an elementary change -/

@[simp] theorem timer_setTimer_same (w : World) (t : TimerRef) (x : Timer) :
    (w.setTimer t x).timer t = x := by
  rw [timer_setTimer, if_pos rfl]

theorem timer_setTimer_of_ne (w : World) {t u : TimerRef} (h : u ≠ t) (x : Timer) :
    (w.setTimer t x).timer u = w.timer u := by
  rw [timer_setTimer, if_neg h]

@[simp] theorem setTimer_setTimer (w : World) (t : TimerRef) (x y : Timer) :
    (w.setTimer t x).setTimer t y = w.setTimer t y := by
  simp [setTimer, Table.set_set]

/-- What holds of a timer after one was set holds of what was set, or it held before. -/
theorem of_timer_setTimer (P : Timer → Prop) {w : World} {t u : TimerRef} {x : Timer}
    (h : P ((w.setTimer u x).timer t)) : t = u ∧ P x ∨ P (w.timer t) := by
  rw [timer_setTimer] at h
  split at h
  · next ht => exact .inl ⟨ht, h⟩
  · exact .inr h

/-- What holds of a timer still does after one was set, if it holds of what was set. -/
theorem keep_setTimer {P : Timer → Prop} {w : World} {t u : TimerRef} {x : Timer}
    (h : P (w.timer t)) (hx : t = u → P x) : P ((w.setTimer u x).timer t) := by
  rw [timer_setTimer]
  split
  · next ht => exact hx ht
  · exact h

@[simp] theorem task_setTask_same (w : World) (k : TaskRef) (x : Task) :
    (w.setTask k x).task k = x := by
  rw [task_setTask, if_pos rfl]

theorem task_setTask_of_ne (w : World) {k j : TaskRef} (h : j ≠ k) (x : Task) :
    (w.setTask k x).task j = w.task j := by
  rw [task_setTask, if_neg h]

/-- The task `k` queued by the timer `t`. -/
def enqueue (w : World) (t : TimerRef) (k : TaskRef) (due : Instant) (period : Period) : World :=
  (w.setTask k { w.task k with state := .scheduled, next := some due, period := period }).setTimer
    t { w.timer t with queue := (w.timer t).queue.push due k }

/-- The entry `head` taken from the queue of `t` and its task retired. -/
def retire (w : World) (t : TimerRef) (head : Entry TaskRef) : World :=
  (w.dropHead t).setTask head.item
    { w.task head.item with
      executions := (w.task head.item).executions + 1, state := .executed }

/-- The task of the entry `head` fired, to fire again at `next`. -/
def postpone (w : World) (t : TimerRef) (head : Entry TaskRef) (next : Instant)
    (queue : Queue TaskRef) : World :=
  (w.setTimer t { w.timer t with queue := queue }).setTask head.item
    { w.task head.item with
      executions := (w.task head.item).executions + 1, next := some next }

/-- The thread of `t` ended for `reason`, and is over. -/
def ended (w : World) (t : TimerRef) (reason : Shutdown TaskRef) (stage : Stage) : World :=
  w.setTimer t
    { w.timer t with
      queue := .empty, accepting := false, shutdown := some reason, stage := stage }

/-- What makes the entry `head` fire when the thread of `t` takes its second look. -/
structure Fires (w : World) (t : TimerRef) (head : Entry TaskRef) : Prop where
  hasTimer : w.HasTimer t
  peek : (w.timer t).queue.peek = some head
  live : (w.task head.item).state ≠ .cancelled
  due_le : head.due ≤ (w.timer t).clock.now

/-! ## Submissions -/

theorem accept_of_closed {w : World} {t : TimerRef} (h : (w.timer t).accepting = false)
    (k : TaskRef) (due : Instant) (period : Period) :
    w.accept t k due period =
      { result := .error .notAccepting, world := w, events := [.rejected t k] } := by
  simp [accept, h]

theorem accept_of_used {w : World} {t : TimerRef} {k : TaskRef}
    (h : (w.timer t).accepting = true) (hused : (w.task k).state ≠ .created) (due : Instant)
    (period : Period) :
    w.accept t k due period =
      { result := .error (.notCreated (w.task k).state), world := w } := by
  simp [accept, h, hused]

theorem accept_of_created {w : World} {t : TimerRef} {k : TaskRef}
    (h : (w.timer t).accepting = true) (hnew : (w.task k).state = .created) (due : Instant)
    (period : Period) :
    w.accept t k due period =
      { result := .ok ()
        world := w.enqueue t k due period
        events := [.scheduled t k period (isHead ((w.timer t).queue.push due k) k)] } := by
  simp [accept, enqueue, h, hnew]

/-- The submission that is accepted is the one that says so. -/
theorem accept_ok_iff (w : World) (t : TimerRef) (k : TaskRef) (due : Instant) (period : Period) :
    (w.accept t k due period).result = .ok () ↔
      ∃ newHead, (w.accept t k due period).events = [.scheduled t k period newHead] := by
  cases hopen : (w.timer t).accepting with
  | false => simp [accept_of_closed hopen]
  | true =>
    by_cases hnew : (w.task k).state = .created
    · simp [accept_of_created hopen hnew]
    · simp [accept_of_used hopen hnew]

theorem now_le_of_dueAfter {timer : Timer} {delay : Delay} {due : Instant}
    (h : timer.dueAfter delay = .ok due) : timer.clock.now ≤ due := by
  unfold Timer.dueAfter at h
  split at h
  · obtain rfl := Except.ok.inj h
    exact Instant.le_after _ _
  · cases h

theorem now_le_of_dueAt {timer : Timer} {time : WallTime} {due : Instant}
    (h : timer.dueAt time = .ok due) : timer.clock.now ≤ due := by
  unfold Timer.dueAt at h
  split at h
  · cases h
  · obtain rfl := Except.ok.inj h
    exact Clock.now_le_instantOf _ _

/-- A period that passes the check is positive. -/
theorem positive_of_every {mode : RepeatMode} {delay : Delay} {period : Period}
    (h : mode.every delay = .ok period) : period.Positive := by
  unfold RepeatMode.every at h
  split at h
  · next d _ =>
    split at h
    · cases h
    · next hzero =>
      obtain rfl := Except.ok.inj h
      intro every hevery
      have hd : every = d := by cases mode <;> exact (Option.some.inj hevery).symm
      have := d.lo_le
      rw [hd]
      omega
  · cases h

/-- Making a task changes no timer, and the task exists from then on. -/
theorem hasTask_newTask (w : World) : (w.newTask).world.HasTask (w.newTask).result :=
  Nat.lt_succ_self _

@[simp] theorem task_newTask_result (w : World) :
    (w.newTask).world.task (w.newTask).result = {} :=
  task_setTask_same w _ _

/-- Submitting a job is making a task and submitting that. -/
theorem submitOnce_of_ok {w : World} {t : TimerRef} {delay : Delay} {due : Instant}
    (h : (w.timer t).dueAfter delay = .ok due) :
    w.submitOnce t delay = handOut (w.newTask).result
      ((w.newTask).world.accept t (w.newTask).result due .once) := by
  have h' : ((w.newTask).world.timer t).dueAfter delay = .ok due := h
  simp only [submitOnce, Outcome.andThen, scheduleAfter, submitChecked, h']
  rfl

theorem submitRepeating_of_ok {w : World} {t : TimerRef} {delay period : Delay}
    {mode : RepeatMode} {due : Instant} {p : Period} (h : (w.timer t).dueAfter delay = .ok due)
    (hp : mode.every period = .ok p) :
    w.submitRepeating t delay period mode = handOut (w.newTask).result
      ((w.newTask).world.accept t (w.newTask).result due p) := by
  simp only [submitRepeating, h, hp, Outcome.andThen]
  rfl

/-! ## Calling off -/

theorem cancelTask_of_open {w : World} {k : TaskRef}
    (h : (w.task k).state.canBecome .cancelled = true) :
    w.cancelTask k =
      { result := true
        world := w.setTask k { w.task k with state := .cancelled }
        events := [.taskCancelled k] } := by
  simp [cancelTask, Task.cancel?, h]

theorem cancelTask_of_ended {w : World} {k : TaskRef}
    (h : (w.task k).state.canBecome .cancelled = false) :
    w.cancelTask k = { result := false, world := w } := by
  simp [cancelTask, Task.cancel?, h]

/-- What is kept as one task is called off is kept as several are. -/
theorem keep_cancelEach {P : World → Prop}
    (step : ∀ {w k}, P w → (w.task k).state.canBecome .cancelled = true →
      P (w.setTask k { w.task k with state := .cancelled }))
    {w : World} (h : P w) (ks : List TaskRef) : P (w.cancelEach ks).world := by
  induction ks generalizing w with
  | nil => exact h
  | cons k ks ih =>
    refine ih (w := (w.cancelTask k).world) ?_
    cases hopen : (w.task k).state.canBecome .cancelled with
    | true =>
      rw [cancelTask_of_open hopen]
      exact step h hopen
    | false =>
      rw [cancelTask_of_ended hopen]
      exact h

theorem timer_cancelTask (w : World) (k : TaskRef) (t : TimerRef) :
    (w.cancelTask k).world.timer t = w.timer t := by
  unfold cancelTask
  split <;> rfl

theorem hasTask_cancelTask (w : World) (k j : TaskRef) :
    (w.cancelTask k).world.HasTask j ↔ w.HasTask j := by
  unfold cancelTask
  split <;> rfl

theorem timerCount_cancelTask (w : World) (k : TaskRef) :
    (w.cancelTask k).world.timerCount = w.timerCount := by
  unfold cancelTask
  split <;> rfl

theorem timer_cancelEach (w : World) (ks : List TaskRef) (t : TimerRef) :
    (w.cancelEach ks).world.timer t = w.timer t := by
  induction ks generalizing w with
  | nil => rfl
  | cons k ks ih => exact (ih _).trans (timer_cancelTask w k t)

theorem timerCount_cancelEach (w : World) (ks : List TaskRef) :
    (w.cancelEach ks).world.timerCount = w.timerCount := by
  induction ks generalizing w with
  | nil => rfl
  | cons k ks ih => exact (ih _).trans (timerCount_cancelTask w k)

/-- The call that calls a task off is the one that says so. -/
theorem events_cancelTask (w : World) (k : TaskRef) :
    (w.cancelTask k).events = if (w.cancelTask k).result then [.taskCancelled k] else [] := by
  unfold cancelTask
  split <;> rfl

/-- A task that has not been executed is off after the call. -/
theorem state_cancelTask_same {w : World} {k : TaskRef} (h : (w.task k).state ≠ .executed) :
    ((w.cancelTask k).world.task k).state = .cancelled := by
  cases hopen : (w.task k).state.canBecome .cancelled with
  | true => rw [cancelTask_of_open hopen, task_setTask_same]
  | false =>
    rw [cancelTask_of_ended hopen]
    cases hs : (w.task k).state with
    | cancelled => rfl
    | executed => exact absurd hs h
    | created | scheduled => simp [hs, TaskState.canBecome] at hopen

/-- Calling a task off makes none that is executed. -/
theorem state_cancelTask_ne_executed {w : World} {j : TaskRef}
    (h : (w.task j).state ≠ .executed) (k : TaskRef) :
    ((w.cancelTask k).world.task j).state ≠ .executed := by
  by_cases hj : j = k
  · subst hj
    simp [state_cancelTask_same h]
  · unfold cancelTask
    split
    · rw [task_setTask_of_ne w hj]
      exact h
    · exact h

theorem state_cancelTask_of_cancelled {w : World} {j : TaskRef}
    (h : (w.task j).state = .cancelled) (k : TaskRef) :
    ((w.cancelTask k).world.task j).state = .cancelled := by
  by_cases hj : j = k
  · subst hj
    exact state_cancelTask_same (by simp [h])
  · unfold cancelTask
    split
    · rw [task_setTask_of_ne w hj]
      exact h
    · exact h

theorem state_cancelEach_of_cancelled {w : World} {j : TaskRef}
    (h : (w.task j).state = .cancelled) (ks : List TaskRef) :
    ((w.cancelEach ks).world.task j).state = .cancelled := by
  induction ks generalizing w with
  | nil => exact h
  | cons k ks ih => exact ih (state_cancelTask_of_cancelled h k)

/-- Calling tasks off does nothing else to the state of any task. -/
theorem state_cancelEach_eq_or (w : World) (ks : List TaskRef) (j : TaskRef) :
    ((w.cancelEach ks).world.task j).state = (w.task j).state ∨
      ((w.cancelEach ks).world.task j).state = .cancelled := by
  induction ks generalizing w with
  | nil => exact .inl rfl
  | cons k ks ih =>
    have first : ((w.cancelTask k).world.task j).state = (w.task j).state ∨
        ((w.cancelTask k).world.task j).state = .cancelled := by
      unfold cancelTask Task.cancel?
      split
      · next task htask =>
        split at htask
        · obtain rfl := Option.some.inj htask
          by_cases hj : j = k
          · subst hj
            simp
          · simp [task_setTask_of_ne w hj]
        · cases htask
      · exact .inl rfl
    rcases first with hsame | hoff
    · rw [← hsame]
      exact ih _
    · exact .inr (state_cancelEach_of_cancelled hoff ks)

/-- Of several tasks called off, each is off in the end that had not been executed. -/
theorem state_cancelEach_of_mem {w : World} {k : TaskRef} {ks : List TaskRef} (hk : k ∈ ks)
    (h : (w.task k).state ≠ .executed) :
    ((w.cancelEach ks).world.task k).state = .cancelled := by
  induction ks generalizing w with
  | nil => cases hk
  | cons j ks ih =>
    rcases List.mem_cons.1 hk with rfl | hk
    · exact state_cancelEach_of_cancelled (state_cancelTask_same h) ks
    · exact ih hk (state_cancelTask_ne_executed h j)

theorem events_cancelAll (w : World) (t : TimerRef) :
    (w.cancelAll t).events = [] ∨ ∃ n, (w.cancelAll t).events = [.timerCancelled t n] := by
  by_cases h : ((w.timer t).accepting || !(w.timer t).cancelled) = true
  · exact .inr ⟨_, if_pos h⟩
  · exact .inl (if_neg h)

theorem events_purge (w : World) (t : TimerRef) :
    (w.purge t).events = [] ∨ ∃ n, (w.purge t).events = [.purged t n] := by
  by_cases h : ((w.timer t).queue.purge w.isCancelled).1.isEmpty = true
  · exact .inl (if_pos h)
  · exact .inr ⟨_, if_neg h⟩

/-! ## A thread's turn -/

/-- The head that fires is retired, or it gets its next deadline: that is never refused. -/
theorem fireHead_eq {w : World} {t : TimerRef} {head : Entry TaskRef} (h : w.Fires t head) :
    ((w.task head.item).period = .once ∧
      w.fireHead t head =
        { result := .fire (w.firing t head)
          world := w.retire t head
          events := [.firing t (w.firing t head)] }) ∨
    ∃ next queue,
      (w.task head.item).period.next? head.due (w.timer t).clock.now = some next ∧
      (w.timer t).queue.postponeMin next = .ok queue ∧
      w.fireHead t head =
        { result := .fire (w.firing t head)
          world := w.postpone t head next queue
          events := [.firing t (w.firing t head)] } := by
  cases hnext : (w.task head.item).period.next? head.due (w.timer t).clock.now with
  | none =>
    refine .inl ⟨?_, by simp only [fireHead, hnext]; rfl⟩
    cases hp : (w.task head.item).period with
    | once => rfl
    | fixedRate d => simp [hp, Period.next?] at hnext
    | fixedDelay d => simp [hp, Period.next?] at hnext
  | some next =>
    obtain ⟨queue, hqueue⟩ :=
      Queue.exists_postponeMin_of_le h.peek (Period.le_of_next? hnext h.due_le)
    refine .inr ⟨next, queue, rfl, hqueue, ?_⟩
    simp only [fireHead, hnext, hqueue]
    rfl

/-! The ways a turn can go, in the order in which it finds them out. -/

theorem work_of_open {w : World} {t : TimerRef} (interim : List TaskRef)
    (hempty : (w.timer t).queue.peek = none) (hopen : (w.timer t).accepting = true) :
    w.work t interim = { result := .wait none, world := w } := by
  simp [work, hempty, hopen]

theorem work_of_closed {w : World} {t : TimerRef} (interim : List TaskRef)
    (hempty : (w.timer t).queue.peek = none) (hclosed : (w.timer t).accepting = false) :
    w.work t interim =
      { result := .stop (restReason (w.timer t))
        world := w.setStage t (.leaving (restReason (w.timer t))) } := by
  simp [work, hempty, hclosed]

theorem work_of_cancelled {w : World} {t : TimerRef} {head : Entry TaskRef}
    (interim : List TaskRef) (hpeek : (w.timer t).queue.peek = some head)
    (hcancelled : (w.task head.item).state = .cancelled) :
    w.work t interim = { result := .discard head.item, world := w.dropHead t } := by
  simp [work, hpeek, isCancelled, hcancelled]

theorem work_of_early {w : World} {t : TimerRef} {head : Entry TaskRef}
    (interim : List TaskRef) (hpeek : (w.timer t).queue.peek = some head)
    (hlive : (w.task head.item).state ≠ .cancelled)
    (hearly : (w.timer t).clock.now < head.due) :
    w.work t interim = { result := .wait (some head.due), world := w } := by
  simp [work, hpeek, isCancelled, hlive, hearly]

theorem work_of_late {w : World} {t : TimerRef} {head : Entry TaskRef}
    (interim : List TaskRef) (hpeek : (w.timer t).queue.peek = some head)
    (hlive : (w.task head.item).state ≠ .cancelled)
    (hdue : head.due ≤ (w.timer t).clock.now) :
    w.work t interim =
      (w.cancelEach interim).andThen fun _ w => w.fireUnlessCancelled t head := by
  have hnot : ¬ (w.timer t).clock.now < head.due := Std.not_lt.2 hdue
  simp [work, hpeek, isCancelled, hlive, hnot]

/-- Called off between the two looks, the head is taken out and does not fire. -/
theorem work_of_cancelled_between {w : World} {t : TimerRef} {head : Entry TaskRef}
    {interim : List TaskRef} (hpeek : (w.timer t).queue.peek = some head)
    (hlive : (w.task head.item).state ≠ .cancelled)
    (hdue : head.due ≤ (w.timer t).clock.now)
    (hcancelled : ((w.cancelEach interim).world.task head.item).state = .cancelled) :
    w.work t interim =
      { result := .discardDue head.item
        world := (w.cancelEach interim).world.dropHead t
        events := (w.cancelEach interim).events } := by
  simp [work_of_late interim hpeek hlive hdue, fireUnlessCancelled, isCancelled, hcancelled,
    Outcome.andThen]

/-- What is called off between the two looks leaves the timer as it is. -/
theorem fires_cancelEach {w : World} {t : TimerRef} {head : Entry TaskRef}
    {interim : List TaskRef} (ht : w.HasTimer t)
    (hpeek : (w.timer t).queue.peek = some head) (hdue : head.due ≤ (w.timer t).clock.now)
    (hlive : ((w.cancelEach interim).world.task head.item).state ≠ .cancelled) :
    (w.cancelEach interim).world.Fires t head := by
  refine ⟨?_, ?_, hlive, ?_⟩
  · rw [HasTimer, timerCount_cancelEach]
    exact ht
  all_goals rwa [timer_cancelEach]

theorem work_of_due {w : World} {t : TimerRef} {head : Entry TaskRef} {interim : List TaskRef}
    (hpeek : (w.timer t).queue.peek = some head) (hlive : (w.task head.item).state ≠ .cancelled)
    (hdue : head.due ≤ (w.timer t).clock.now)
    (hfires : (w.cancelEach interim).world.Fires t head) :
    w.work t interim =
      { result := .fire ((w.cancelEach interim).world.firing t head)
        world := ((w.cancelEach interim).world.fireHead t head).world
        events := (w.cancelEach interim).events ++
          ((w.cancelEach interim).world.fireHead t head).events } := by
  have hnot : (w.cancelEach interim).world.isCancelled head.item = false := by
    simpa [isCancelled] using hfires.live
  have hfire : ((w.cancelEach interim).world.fireHead t head).result =
      .fire ((w.cancelEach interim).world.firing t head) := by
    rcases fireHead_eq hfires with ⟨_, heq⟩ | ⟨_, _, _, _, heq⟩ <;> rw [heq]
  simp [work_of_late interim hpeek hlive hdue, fireUnlessCancelled, hnot, hfire,
    Outcome.andThen]

/-- The ways a turn of a thread can go, and what it comes to in each of them. -/
inductive ComesTo (w : World) (t : TimerRef) (interim : List TaskRef) : Outcome Turn → Prop
  | idle (hempty : (w.timer t).queue.peek = none) (hopen : (w.timer t).accepting = true) :
    ComesTo w t interim { result := .wait none, world := w }
  | rest (hempty : (w.timer t).queue.peek = none) (hclosed : (w.timer t).accepting = false) :
    ComesTo w t interim
      { result := .stop (restReason (w.timer t))
        world := w.setStage t (.leaving (restReason (w.timer t))) }
  | early (head : Entry TaskRef) (hpeek : (w.timer t).queue.peek = some head)
      (hlive : (w.task head.item).state ≠ .cancelled)
      (hearly : (w.timer t).clock.now < head.due) :
    ComesTo w t interim { result := .wait (some head.due), world := w }
  | discard (head : Entry TaskRef) (hpeek : (w.timer t).queue.peek = some head)
      (hcancelled : (w.task head.item).state = .cancelled) :
    ComesTo w t interim { result := .discard head.item, world := w.dropHead t }
  | discardDue (head : Entry TaskRef) (hpeek : (w.timer t).queue.peek = some head)
      (hlive : (w.task head.item).state ≠ .cancelled)
      (hcancelled : ((w.cancelEach interim).world.task head.item).state = .cancelled) :
    ComesTo w t interim
      { result := .discardDue head.item
        world := (w.cancelEach interim).world.dropHead t
        events := (w.cancelEach interim).events }
  | retire (head : Entry TaskRef) (hpeek : (w.timer t).queue.peek = some head)
      (hlive : (w.task head.item).state ≠ .cancelled)
      (hfires : (w.cancelEach interim).world.Fires t head)
      (honce : ((w.cancelEach interim).world.task head.item).period = .once) :
    ComesTo w t interim
      { result := .fire ((w.cancelEach interim).world.firing t head)
        world := (w.cancelEach interim).world.retire t head
        events := (w.cancelEach interim).events ++
          [.firing t ((w.cancelEach interim).world.firing t head)] }
  | postpone (head : Entry TaskRef) (next : Instant) (queue : Queue TaskRef)
      (hpeek : (w.timer t).queue.peek = some head)
      (hlive : (w.task head.item).state ≠ .cancelled)
      (hfires : (w.cancelEach interim).world.Fires t head)
      (hnext : ((w.cancelEach interim).world.task head.item).period.next? head.due
        ((w.cancelEach interim).world.timer t).clock.now = some next)
      (hqueue : ((w.cancelEach interim).world.timer t).queue.postponeMin next = .ok queue) :
    ComesTo w t interim
      { result := .fire ((w.cancelEach interim).world.firing t head)
        world := (w.cancelEach interim).world.postpone t head next queue
        events := (w.cancelEach interim).events ++
          [.firing t ((w.cancelEach interim).world.firing t head)] }

/-- A turn of a thread takes one of these ways: its head never fails to get its next deadline. -/
theorem comesTo_work {w : World} {t : TimerRef} (ht : w.HasTimer t) (interim : List TaskRef) :
    w.ComesTo t interim (w.work t interim) := by
  cases hpeek : (w.timer t).queue.peek with
  | none =>
    cases hopen : (w.timer t).accepting with
    | true =>
      rw [work_of_open interim hpeek hopen]
      exact .idle hpeek hopen
    | false =>
      rw [work_of_closed interim hpeek hopen]
      exact .rest hpeek hopen
  | some head =>
    by_cases hcancelled : (w.task head.item).state = .cancelled
    · rw [work_of_cancelled interim hpeek hcancelled]
      exact .discard head hpeek hcancelled
    · by_cases hdue : head.due ≤ (w.timer t).clock.now
      · by_cases hlive : ((w.cancelEach interim).world.task head.item).state = .cancelled
        · rw [work_of_cancelled_between hpeek hcancelled hdue hlive]
          exact .discardDue head hpeek hcancelled hlive
        · have hfires := fires_cancelEach ht hpeek hdue hlive
          rw [work_of_due hpeek hcancelled hdue hfires]
          rcases fireHead_eq hfires with ⟨honce, heq⟩ | ⟨next, queue, hnext, hqueue, heq⟩
          · rw [heq]
            exact .retire head hpeek hcancelled hfires honce
          · rw [heq]
            exact .postpone head next queue hpeek hcancelled hfires hnext hqueue
      · have hearly := Std.not_le.1 hdue
        rw [work_of_early interim hpeek hcancelled hearly]
        exact .early head hpeek hcancelled hearly

/-- A turn that fires found a head at its first look that still fires at its second. -/
theorem fires_of_work {w : World} {t : TimerRef} {interim : List TaskRef} {f : Firing TaskRef}
    (ht : w.HasTimer t) (h : (w.work t interim).result = .fire f) :
    ∃ head, (w.timer t).queue.peek = some head ∧ (w.cancelEach interim).world.Fires t head ∧
      f = (w.cancelEach interim).world.firing t head ∧
      (w.work t interim).world = ((w.cancelEach interim).world.fireHead t head).world := by
  cases hpeek : (w.timer t).queue.peek with
  | none =>
    cases hopen : (w.timer t).accepting with
    | true => simp [work_of_open interim hpeek hopen] at h
    | false => simp [work_of_closed interim hpeek hopen] at h
  | some head =>
    by_cases hcancelled : (w.task head.item).state = .cancelled
    · simp [work_of_cancelled interim hpeek hcancelled] at h
    · by_cases hdue : head.due ≤ (w.timer t).clock.now
      · by_cases hlive : ((w.cancelEach interim).world.task head.item).state = .cancelled
        · simp [work_of_cancelled_between hpeek hcancelled hdue hlive] at h
        · have hfires := fires_cancelEach ht hpeek hdue hlive
          rw [work_of_due hpeek hcancelled hdue hfires] at h ⊢
          exact ⟨head, rfl, hfires, (Turn.fire.inj h).symm, rfl⟩
      · simp [work_of_early interim hpeek hcancelled (Std.not_le.1 hdue)] at h

/-- The task of the head that fires is not called off by it. -/
theorem state_fireHead_ne_cancelled {w : World} {t : TimerRef} {head : Entry TaskRef}
    (h : w.Fires t head) :
    ((w.fireHead t head).world.task head.item).state ≠ .cancelled := by
  rcases fireHead_eq h with ⟨-, heq⟩ | ⟨next, queue, -, -, heq⟩
  · simp [heq, retire]
  · simpa [heq, postpone] using h.live

/-! ## The end of a thread -/

theorem finish_of_exit {k : TaskRef} {ending : Ending} {stage : Stage}
    (h : ending.exit? k = some stage) (w : World) (t : TimerRef) :
    w.finish t k ending = { result := (), world := w.setStage t stage } := by
  simp [finish, h]

theorem task_finish (w : World) (t : TimerRef) (k j : TaskRef) (ending : Ending) :
    (w.finish t k ending).world.task j = w.task j := by
  unfold finish
  split <;> rfl

/-- The end of a body is not an event. -/
theorem events_finish (w : World) (t : TimerRef) (k : TaskRef) (ending : Ending) :
    (w.finish t k ending).events = [] := by
  unfold finish
  split <;> rfl

theorem task_record (w : World) (t : TimerRef) (bursts : Bool) (k : TaskRef) :
    (w.record t bursts).world.task k = w.task k := by
  cases hstage : (w.timer t).stage.reason? with
  | none => simp only [record, hstage]
  | some reason =>
    simp only [record, hstage]
    rfl

theorem events_record (w : World) (t : TimerRef) (bursts : Bool) :
    (w.record t bursts).events = [] ∨
      ∃ reason n, (w.record t bursts).events = [.threadEnded t reason n] := by
  cases hstage : (w.timer t).stage.reason? with
  | none => simp [record, hstage]
  | some reason => cases bursts <;> simp [record, hstage]

theorem record_of_leaving {w : World} {t : TimerRef} {reason : Shutdown TaskRef}
    (h : (w.timer t).stage = .leaving reason) (bursts : Bool) :
    w.record t bursts =
      { result := ()
        world := w.ended t reason (if bursts then .unwound else .returned)
        events := if bursts then [] else [.threadEnded t reason (w.timer t).queue.size] } := by
  simp [record, ended, h, Stage.reason?]

theorem record_of_not_leaving {w : World} {t : TimerRef}
    (h : (w.timer t).stage.reason? = none) (bursts : Bool) :
    w.record t bursts = { result := (), world := w } := by
  simp [record, h]

end World

end TaskTimer
