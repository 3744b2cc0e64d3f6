/-
TaskTimer.Proofs.Run.LifeCycle — a task's state moves along the life cycle only.

`TaskState.canBecome` says which changes of state there are, but of all operations only calling off
asks it. A timer that accepts a task, and a thread that fires one, write the new state as they see
fit. That they too keep to the life cycle has two reasons. A timer accepts only what is created,
and what a thread finds at the head of its queue is scheduled or called off (`Coupled.live`), so
what it fires was scheduled (`World.advances_work`).

`World.Advances` compares the states before and after an action, task by task. It does not compose:
two changes in a row may skip a state. So it is shown of each operation as a whole, and from there
on only the terminal states are followed along a run.

`Task.Fits` says what else a record holds in each state.
-/
import TaskTimer.Proofs.Run.Acceptance

namespace TaskTimer

/-- The state stays, or it changes as the life cycle allows. -/
def TaskState.StepsTo (a b : TaskState) : Prop := b = a ∨ a.canBecome b = true

instance (a b : TaskState) : Decidable (a.StepsTo b) := inferInstanceAs (Decidable (_ ∨ _))

theorem TaskState.StepsTo.eq_of_isTerminal {a b : TaskState} (h : a.StepsTo b)
    (ha : a.isTerminal = true) : b = a :=
  h.resolve_right (by simp [canBecome_of_isTerminal ha])

namespace World

variable {w w' : World} {t : TimerRef} {k : TaskRef}

/-- From `w` to `w'`, the state of each task stays or changes as the life cycle allows. -/
def Advances (w w' : World) : Prop := ∀ k, (w.task k).state.StepsTo (w'.task k).state

theorem advances_of_task_eq (h : ∀ k, w'.task k = w.task k) : w.Advances w' :=
  fun k => .inl (congrArg Task.state (h k))

theorem Advances.of_state_eq {w'' : World} (h : w.Advances w')
    (heq : ∀ k, (w''.task k).state = (w'.task k).state) : w.Advances w'' := by
  intro k
  rw [heq]
  exact h k

theorem advances_setTask {x : Task} (h : (w.task k).state.StepsTo x.state) :
    w.Advances (w.setTask k x) := by
  intro j
  rw [task_setTask]
  split
  · next hj => exact hj ▸ h
  · exact .inl rfl

/-- What agrees with a world goes on as that world does. -/
theorem Agrees.advances {w'' : World} (h : w.Agrees w') (h' : w'.Advances w'') :
    w.Advances w'' := by
  intro k
  rw [← h.task k]
  exact h' k

/-! ## Submissions -/

theorem advances_accept (w : World) (t : TimerRef) (k : TaskRef) (due : Instant)
    (period : Period) : w.Advances (w.accept t k due period).world := by
  cases hopen : (w.timer t).accepting with
  | false =>
    rw [accept_of_closed hopen]
    exact advances_of_task_eq fun _ => rfl
  | true =>
    by_cases hnew : (w.task k).state = .created
    · rw [accept_of_created hopen hnew]
      refine advances_setTask (.inr ?_)
      rw [hnew]
      rfl
    · rw [accept_of_used hopen hnew]
      exact advances_of_task_eq fun _ => rfl

theorem advances_submitChecked (w : World) (t : TimerRef) (k : TaskRef)
    (start : Except SubmissionError Instant) (period : Except SubmissionError Period) :
    w.Advances (w.submitChecked t k start period).world := by
  match start, period with
  | .error _, _ => exact advances_of_task_eq fun _ => rfl
  | .ok _, .error _ => exact advances_of_task_eq fun _ => rfl
  | .ok due, .ok period => exact advances_accept w t k due period

theorem advances_perform {log : List Event} (hr : Recorded w log) (call : SubmissionCall) :
    w.Advances (call.perform t w).world := by
  by_cases hproper : call.Proper
  · obtain ⟨due, p, hdue, hp⟩ := hproper.exists_ok (w.timer t)
    rw [SubmissionCall.perform_of_proper hdue hp]
    exact (SubmissionCall.agrees_made hr call).advances (advances_accept _ t _ due p)
  · obtain ⟨-, -, hagrees⟩ := SubmissionCall.perform_of_not_proper (t := t) hr hproper
    exact advances_of_task_eq hagrees.task

/-! ## Calling off -/

/-- A task is called off, if at all, from a state that allows it. -/
theorem state_cancelTask (w : World) (k j : TaskRef) :
    ((w.cancelTask k).world.task j).state = (w.task j).state ∨
      (w.task j).state.canBecome .cancelled = true ∧
        ((w.cancelTask k).world.task j).state = .cancelled := by
  cases hopen : (w.task k).state.canBecome .cancelled with
  | false => exact .inl (by rw [cancelTask_of_ended hopen])
  | true =>
    rw [cancelTask_of_open hopen]
    by_cases hj : j = k
    · subst hj
      exact .inr ⟨hopen, by rw [task_setTask_same]⟩
    · exact .inl (by rw [task_setTask_of_ne w hj])

theorem advances_cancelTask (w : World) (k : TaskRef) : w.Advances (w.cancelTask k).world := by
  intro j
  rcases state_cancelTask w k j with hsame | ⟨hopen, hoff⟩
  · exact .inl hsame
  · exact .inr (hoff ▸ hopen)

/-- The first call that changes a task is the only one, since what is called off stays so. -/
theorem advances_cancelEach (w : World) (ks : List TaskRef) :
    w.Advances (w.cancelEach ks).world := by
  intro j
  induction ks generalizing w with
  | nil => exact .inl rfl
  | cons k ks ih =>
    rcases state_cancelTask w k j with hsame | ⟨hopen, hoff⟩
    · rw [← hsame]
      exact ih (w.cancelTask k).world
    · refine .inr ?_
      rw [show ((w.cancelEach (k :: ks)).world.task j).state = .cancelled from
        state_cancelEach_of_cancelled hoff ks]
      exact hopen

/-! ## A thread's turn -/

theorem advances_work (hc : Coupled w) (ht : w.HasTimer t) (interim : List TaskRef) :
    w.Advances (w.work t interim).world := by
  have between : w.Advances (w.cancelEach interim).world := advances_cancelEach w interim
  have hturn := comesTo_work ht interim
  generalize w.work t interim = o at hturn ⊢
  cases hturn with
  | idle | early | rest | discard => exact advances_of_task_eq fun _ => rfl
  | discardDue => exact between
  | postpone head next queue =>
    refine between.of_state_eq fun j => ?_
    by_cases hj : j = head.item
    · rw [hj, World.postpone, task_setTask_same]
    · rw [World.postpone, task_setTask_of_ne _ hj]
      rfl
  | retire head hpeek hlive hfires honce =>
    intro j
    by_cases hj : j = head.item
    · -- the queue shows the task at the head scheduled, and no other thread has called it off
      have hscheduled : (w.task j).state = .scheduled :=
        hj ▸ (hc.live t head (Queue.mem_of_peek hpeek)).resolve_right hlive
      refine .inr ?_
      rw [hscheduled, hj, World.retire, task_setTask_same]
      rfl
    · rw [World.retire, task_setTask_of_ne _ hj]
      exact between j

end World

namespace System

variable {s : System}

/-! ## Actions and runs -/

/-- Each action moves each task along its life cycle, if at all. -/
theorem advances_next (hc : Coupled s.world) (hr : Recorded s.world s.log) (a : Action) :
    s.world.Advances (s.next a).world := by
  have quiet : ∀ {w'}, (∀ k, w'.task k = s.world.task k) → s.world.Advances w' :=
    World.advances_of_task_eq
  by_cases hadmits : s.Admits a
  · rw [next, if_pos hadmits]
    cases a with
    | newTask => exact quiet hr.task_newTask
    | submission t k way => exact World.advances_perform (t := t) hr (.task k way)
    | insert t k due way => exact World.advances_submitChecked s.world t k (.ok due) way.period
    | submitOnce t delay => exact World.advances_perform (t := t) hr (.job delay)
    | submitRepeating t delay period mode =>
      exact World.advances_perform (t := t) hr (.repeatingJob delay period mode)
    | cancelTask k => exact World.advances_cancelTask s.world k
    | work t interim => exact World.advances_work hc hadmits.1 interim
    | startTimer | setClock | cancelAll | purge => exact quiet fun _ => rfl
    | close t =>
      refine quiet fun k => ?_
      simp only [take, record, World.close]
      split <;> rfl
    | finish t ending =>
      obtain ⟨f, hf⟩ := Option.ne_none_iff_exists'.1 hadmits.2.2
      simp only [take, hf]
      exact quiet fun k => World.task_finish s.world t f.task k ending
    | record t bursts => exact quiet fun k => World.task_record s.world t bursts k
  · rw [next, if_neg hadmits]
    exact quiet fun _ => rfl

/-- A terminal state is never left. -/
theorem state_run_of_isTerminal {acts : List Action} {k : TaskRef}
    (h : ((after acts).world.task k).state.isTerminal = true) (more : List Action) :
    (((after acts).run more).world.task k).state = ((after acts).world.task k).state := by
  refine run_induction
    (P := fun _ s => (s.world.task k).state = ((after acts).world.task k).state) rfl
    (fun more a ih => ?_) more
  have step := advances_next (coupled_after (acts ++ more)) (recorded_after (acts ++ more)) a k
  exact (step.eq_of_isTerminal (ih ▸ h)).trans ih

end System

/-! ## What a record holds in each state -/

/-- The record of a task fits its state: it is blank until the task is accepted, and a task that
runs once has run just when it is executed, which no task that repeats ever is. -/
structure Task.Fits (x : Task) : Prop where
  blank : x.state = .created → x = {}
  once : x.period = .once → x.executions = if x.state = .executed then 1 else 0
  repeating : x.period ≠ .once → x.state ≠ .executed

namespace Task.Fits

variable {x : Task}

theorem start : Fits {} where
  blank _ := rfl
  once _ := rfl
  repeating h := absurd rfl h

theorem accept (h : x.Fits) (hnew : x.state = .created) (due : Instant) (period : Period) :
    Fits { x with state := .scheduled, next := some due, period := period } where
  blank hs := by cases hs
  once _ := by rw [h.blank hnew]; rfl
  repeating _ hs := by cases hs

theorem cancel (h : x.Fits) (hopen : x.state.canBecome .cancelled = true) :
    Fits { x with state := .cancelled } where
  blank hs := by cases hs
  once honce := by
    have hnot : x.state ≠ .executed := by
      intro hs
      rw [hs] at hopen
      cases hopen
    rw [h.once honce, if_neg hnot]
    rfl
  repeating _ hs := by cases hs

theorem retire (h : x.Fits) (hlive : x.state = .scheduled) (honce : x.period = .once) :
    Fits { x with executions := x.executions + 1, state := .executed } where
  blank hs := by cases hs
  once _ := by simp [h.once honce, hlive]
  repeating hnot := absurd honce hnot

theorem postpone (h : x.Fits) (hlive : x.state = .scheduled) (hmore : x.period ≠ .once)
    (next : Instant) : Fits { x with executions := x.executions + 1, next := some next } where
  blank hs := by
    rw [show x.state = .created from hs] at hlive
    cases hlive
  once honce := absurd honce hmore
  repeating := h.repeating

theorem changed {k : TaskRef} {y : Task} {events : List Event} (h : x.Fits)
    (c : x.Changed k events y) : y.Fits := by
  cases c with
  | other => exact h
  | accept t due period newHead hnew => exact h.accept hnew due period
  | cancel hopen => exact h.cancel hopen
  | retire t f hk hlive hdue hmode honce => exact h.retire hlive honce
  | postpone t f next hk hlive hdue hmode hnext =>
    refine h.postpone hlive (fun honce => ?_) next
    rw [honce] at hnext
    cases hnext

end Task.Fits

namespace System

/-- Every record fits its state after every run. -/
theorem fits_after (acts : List Action) (k : TaskRef) : ((after acts).world.task k).Fits :=
  keep_records (P := fun _ x _ => x.Fits) (fun _ => Task.Fits.start) (fun _ h c => h.changed c)
    acts k

/-- What is executed is a task accepted to run once, whose one execution has begun. -/
theorem executed_iff {acts : List Action} {k : TaskRef} :
    ((after acts).world.task k).state = .executed ↔
      (∃ pre a post t start, acts = pre ++ a :: post ∧ (after pre).Accepts a t k start .once) ∧
        ((after acts).world.task k).executions = 1 := by
  have fits := fits_after acts k
  constructor
  · intro hexecuted
    have honce : ((after acts).world.task k).period = .once := by
      by_contra hmore
      exact fits.repeating hmore hexecuted
    have hone : ((after acts).world.task k).executions = 1 := by
      rw [fits.once honce, if_pos hexecuted]
    obtain ⟨t, p, b, hmem⟩ := acceptedBy_of_used (k := k) (.inr (by rw [hone]; exact Nat.one_pos))
    obtain ⟨pre, a, post, start, rfl, haccepts⟩ := accepts_of_scheduled hmem
    obtain rfl : p = .once := (timetabled_run haccepts post).mode.symm.trans honce
    exact ⟨⟨pre, a, post, t, start, rfl, haccepts⟩, hone⟩
  · rintro ⟨⟨pre, a, post, t, start, rfl, haccepts⟩, hone⟩
    by_contra hnot
    rw [fits.once (timetabled_run haccepts post).mode, if_neg hnot] at hone
    cases hone

end System

/-- **The life cycle of a task.** In every run of any timers, each action leaves the state of each
task or changes it as `TaskState.canBecome` allows, and a task that is executed or called off stays
so whatever comes after. A task is executed exactly if it was accepted to run once and has one
execution. One that is still created has no deadline, repeats in no way and was never executed. A
task that repeats is never executed, and it repeats as it was accepted to. -/
theorem task_life_cycle (k : TaskRef) (acts : List Action) :
    let s := System.after acts
    let x := s.world.task k
    (∀ a, x.state.StepsTo ((s.next a).world.task k).state) ∧
    (x.state.isTerminal = true → ∀ more, ((s.run more).world.task k).state = x.state) ∧
    (x.state = .executed ↔
      (∃ pre a post t start, acts = pre ++ a :: post ∧
        (System.after pre).Accepts a t k start .once) ∧ x.executions = 1) ∧
    (x.state = .created → x.next = none ∧ x.period = .once ∧ x.executions = 0) ∧
    (x.period.repeats = true → x.state ≠ .executed) ∧
    ∀ pre a post t start p, acts = pre ++ a :: post →
      (System.after pre).Accepts a t k start p → x.period = p := by
  have fits := System.fits_after acts k
  refine ⟨fun a => ?_, System.state_run_of_isTerminal, System.executed_iff, fun hnew => ?_,
    fun hrepeats => ?_, ?_⟩
  · exact System.advances_next (coupled_after acts) (recorded_after acts) a k
  · simp [fits.blank hnew]
  · refine fits.repeating fun honce => ?_
    rw [honce] at hrepeats
    cases hrepeats
  · rintro pre a post t start p rfl haccepts
    exact (System.timetabled_run haccepts post).mode

/-- A task that runs once is fired, and called off too late from its own body. -/
example :
    let s := System.after
      [.startTimer { now := .origin, wall := .epoch }, .newTask, .submission ⟨0⟩ ⟨0⟩ (.once 0),
        .work ⟨0⟩ [], .cancelTask ⟨0⟩]
    (s.world.task ⟨0⟩).state = .executed ∧ (s.world.task ⟨0⟩).executions = 1 := by
  decide +kernel

end TaskTimer
