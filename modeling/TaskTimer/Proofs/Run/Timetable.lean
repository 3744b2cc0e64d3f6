/-
TaskTimer.Proofs.Run.Timetable — every deadline of a task follows from the executions before it.

`System.Accepts` says that an action has a timer accept a task, with which first deadline and to
repeat how. From then on the task keeps to its timetable: it is first due at that deadline, and
after each execution it is next due when its period says, counted from the deadline or from the
moment of that execution (`Follows`). Nothing else has a say in it: not what other tasks and
timers do, nor how the clock moves, nor how long bodies take.

The deadline to come is kept with the task and in a queue, and the executions stand in the log;
`Timetabled` ties the three together. Each elementary change keeps it, so it holds in every run
from the acceptance on (`System.timetabled_run`).
-/
import TaskTimer.Proofs.Run.Retention

namespace TaskTimer

/-! ## Acceptance -/

namespace System

/-- What a call submits: to which timer, which task, due first when, and to repeat how. -/
def submitted? (s : System) : Action →
    Option (TimerRef × TaskRef × Except SubmissionError Instant × Except SubmissionError Period)
  | .submission t k way => some (t, k, way.start (s.world.timer t), way.period)
  | .insert t k due way => some (t, k, .ok due, way.period)
  | .submitOnce t delay =>
    some (t, ⟨s.world.taskCount⟩, (s.world.timer t).dueAfter delay, .ok .once)
  | .submitRepeating t delay period mode =>
    some (t, ⟨s.world.taskCount⟩, (s.world.timer t).dueAfter delay, mode.every period)
  | _ => none

/-- The action has `t` accept the task `k`, due first at `start` and to repeat as `period` says. -/
structure Accepts (s : System) (a : Action) (t : TimerRef) (k : TaskRef) (start : Instant)
    (period : Period) : Prop where
  admits : s.Admits a
  submitted : s.submitted? a = some (t, k, .ok start, .ok period)
  accepting : (s.world.timer t).accepting = true
  created : (s.world.task k).state = .created

variable {s : System} {a : Action} {t : TimerRef} {k : TaskRef} {start : Instant}
  {period : Period}

/-- What is accepted is queued, in the world as it was or with the task made just before. -/
theorem Accepts.next_eq (h : s.Accepts a t k start period) :
    ∃ w : World, (w = s.world ∨ w = (s.world.newTask).world ∧ k = (s.world.newTask).result) ∧
      (s.next a).world = w.enqueue t k start period ∧
      (s.next a).log = s.log ++
        [.scheduled t k period (World.isHead ((w.timer t).queue.push start k) k)] := by
  obtain ⟨hadmits, hsubmitted, hopen, hnew⟩ := h
  have known := World.accept_of_created hopen hnew start period
  have hopen' : ((s.world.newTask).world.timer t).accepting = true := hopen
  have hnew' : ((s.world.newTask).world.task (s.world.newTask).result).state = .created := by
    rw [World.task_newTask_result]
  have made := World.accept_of_created hopen' hnew' start
  rw [next, if_pos hadmits]
  cases a with
  | submission u j way =>
    obtain ⟨rfl, rfl, hstart, hperiod⟩ : u = t ∧ j = k ∧ way.start (s.world.timer u) = .ok start ∧
        way.period = .ok period := by simpa [submitted?] using hsubmitted
    refine ⟨s.world, .inl rfl, ?_⟩
    simp only [take, record, way.op_eq, hstart, hperiod, World.submitChecked, known, and_self]
  | insert u j due way =>
    obtain ⟨rfl, rfl, rfl, hperiod⟩ : u = t ∧ j = k ∧ due = start ∧ way.period = .ok period := by
      simpa [submitted?] using hsubmitted
    refine ⟨s.world, .inl rfl, ?_⟩
    simp only [take, record, hperiod, World.submitChecked, known, and_self]
  | submitOnce u delay =>
    obtain ⟨rfl, rfl, hstart, rfl⟩ : u = t ∧ ⟨s.world.taskCount⟩ = k ∧
        (s.world.timer u).dueAfter delay = .ok start ∧ .once = period := by
      simpa [submitted?] using hsubmitted
    refine ⟨(s.world.newTask).world, .inr ⟨rfl, rfl⟩, ?_⟩
    simp only [take, record, World.submitOnce_of_ok hstart, made]
    exact ⟨rfl, rfl⟩
  | submitRepeating u delay period' mode =>
    obtain ⟨rfl, rfl, hstart, hperiod⟩ : u = t ∧ ⟨s.world.taskCount⟩ = k ∧
        (s.world.timer u).dueAfter delay = .ok start ∧ mode.every period' = .ok period := by
      simpa [submitted?] using hsubmitted
    refine ⟨(s.world.newTask).world, .inr ⟨rfl, rfl⟩, ?_⟩
    simp only [take, record, World.submitRepeating_of_ok hstart hperiod, made]
    exact ⟨rfl, rfl⟩
  | _ => cases hsubmitted

/-- No task is accepted to repeat without any time in between. -/
theorem Accepts.positive (h : s.Accepts a t k start period) : period.Positive := by
  have hsubmitted := h.submitted
  cases a with
  | submission u j way | insert u j due way =>
    have hperiod : way.period = .ok period := by simp_all [submitted?]
    exact World.positive_of_period hperiod
  | submitOnce u delay =>
    obtain rfl : .once = period := by simp_all [submitted?]
    exact Period.positive_once
  | submitRepeating u delay period' mode =>
    have hperiod : mode.every period' = .ok period := by simp_all [submitted?]
    exact World.positive_of_every hperiod
  | _ => cases hsubmitted

end System

/-! ## Executions and the deadlines between them -/

/-- The execution of `k` that an event tells of. -/
def Event.execution? (k : TaskRef) : Event → Option (Firing TaskRef)
  | .firing _ f => if f.task = k then some f else none
  | _ => none

/-- The executions of `k`, on whichever timer, the first one first. -/
def executionsOf (k : TaskRef) (log : List Event) : List (Firing TaskRef) :=
  log.filterMap (Event.execution? k)

theorem Event.isSome_execution? (k : TaskRef) (e : Event) :
    (e.execution? k).isSome = e.fires k := by
  cases e with
  | firing t f => by_cases h : f.task = k <;> simp [execution?, fires, h]
  | _ => rfl

theorem length_executionsOf (k : TaskRef) (log : List Event) :
    (executionsOf k log).length = log.countP (Event.fires k) := by
  rw [executionsOf, List.length_filterMap_eq_countP]
  exact congrArg (log.countP ·) (funext (Event.isSome_execution? k))

/-- A task that is new has not run. -/
theorem TaskRecord.executionsOf_of_created {k : TaskRef} {x : Task} {log : List Event}
    (h : TaskRecord k x log) (hnew : x.state = .created) : executionsOf k log = [] := by
  rw [← List.length_eq_zero_iff, length_executionsOf, ← h.executions, h.fresh hnew]

theorem executionsOf_append (k : TaskRef) (log events : List Event) :
    executionsOf k (log ++ events) = executionsOf k log ++ executionsOf k events :=
  List.filterMap_append

theorem executionsOf_eq_nil {k : TaskRef} {events : List Event}
    (h : ∀ e ∈ events, e.fires k = false) : executionsOf k events = [] := by
  refine List.filterMap_eq_nil_iff.2 fun e he => ?_
  have hnot := h e he
  rw [← Event.isSome_execution?, Option.isSome_eq_false_iff, Option.isNone_iff_eq_none] at hnot
  exact hnot

theorem mem_executionsOf {k : TaskRef} {log : List Event} {f : Firing TaskRef} :
    f ∈ executionsOf k log ↔ f.task = k ∧ ∃ t, .firing t f ∈ log := by
  constructor
  · intro hf
    obtain ⟨e, he, hef⟩ := List.mem_filterMap.1 hf
    cases e with
    | firing t g =>
      simp only [Event.execution?, Option.ite_none_right_eq_some, Option.some.injEq] at hef
      obtain ⟨hk, rfl⟩ := hef
      exact ⟨hk, t, he⟩
    | _ => cases hef
  · rintro ⟨hk, t, he⟩
    exact List.mem_filterMap.2 ⟨_, he, if_pos hk⟩

theorem executionsOf_firing (t : TimerRef) (f : Firing TaskRef) :
    executionsOf f.task [.firing t f] = [f] := by
  simp [executionsOf, Event.execution?]

/-- When a task that was first due at `start` is due after the executions `fs`. -/
def Period.dueAfter? (period : Period) (start : Instant) (fs : List (Firing TaskRef)) :
    Option Instant :=
  match fs.getLast? with
  | none => some start
  | some f => period.next? f.due f.firedAt

theorem Period.dueAfter?_concat (period : Period) (start : Instant) (fs : List (Firing TaskRef))
    (f : Firing TaskRef) :
    period.dueAfter? start (fs ++ [f]) = period.next? f.due f.firedAt := by
  rw [dueAfter?, List.getLast?_concat]

/-- The executions keep to the timetable that `start` and `period` set: each has the deadline that
those before it lead to, was fired no earlier, and carries its number. -/
inductive Follows (start : Instant) (period : Period) : List (Firing TaskRef) → Prop
  | nil : Follows start period []
  | snoc {fs : List (Firing TaskRef)} {f : Firing TaskRef} (before : Follows start period fs)
      (due : period.dueAfter? start fs = some f.due) (due_le : f.due ≤ f.firedAt)
      (mode : f.period = period) (number : f.execution = fs.length + 1) :
      Follows start period (fs ++ [f])

/-! ## The timetable of a task -/

/-- The task `k`, accepted by `t`, keeps to the timetable that `start` and `period` set. -/
structure Timetabled (t : TimerRef) (k : TaskRef) (start : Instant) (period : Period) (w : World)
    (log : List Event) : Prop where
  used : (w.task k).state ≠ .created
  mode : (w.task k).period = period
  /-- A task that repeats is never done. -/
  repeats : period ≠ .once → (w.task k).state ≠ .executed
  elsewhere : ∀ u, u ≠ t → k ∉ w.queuedTasks u
  /-- Only `t` runs the task. -/
  fired : ∀ u f, .firing u f ∈ log → f.task = k → u = t
  follows : Follows start period (executionsOf k log)
  next : (w.task k).state ≠ .executed →
    (w.task k).next = period.dueAfter? start (executionsOf k log)

theorem World.queuedTasks_setTimer {w : World} {u : TimerRef} {x : Timer}
    (hx : x.queue.toList.map (·.item) ⊆ w.queuedTasks u) (v : TimerRef) :
    (w.setTimer u x).queuedTasks v ⊆ w.queuedTasks v := by
  by_cases hv : v = u
  · subst hv
    rwa [World.queuedTasks, World.queued, World.timer_setTimer_same]
  · rw [World.queuedTasks, World.queued, World.timer_setTimer_of_ne w hv]
    exact List.Subset.refl _

theorem World.queuedTasks_dropHead {w : World} {u : TimerRef} {head : Entry TaskRef}
    (hpeek : (w.timer u).queue.peek = some head) (v : TimerRef) :
    (w.dropHead u).queuedTasks v ⊆ w.queuedTasks v := by
  refine World.queuedTasks_setTimer (List.map_subset _ fun e he => ?_) v
  exact (Queue.toList_dropMin hpeek).mem_iff.2 (List.mem_cons_of_mem _ he)

/-- A task that is accepted is the only one that comes into a queue. -/
theorem World.mem_queuedTasks_enqueue {w : World} {u v : TimerRef} {j k : TaskRef}
    {due : Instant} {period : Period} (hne : k ≠ j)
    (hk : k ∈ (w.enqueue u j due period).queuedTasks v) : k ∈ w.queuedTasks v := by
  rw [World.queuedTasks, World.queued, World.enqueue, World.timer_setTimer] at hk
  split at hk
  · next hv =>
    subst hv
    obtain ⟨e, he, rfl⟩ := List.mem_map.1 hk
    rcases List.mem_cons.1 ((Queue.toList_push _ _ _).mem_iff.1 he) with rfl | hold
    · exact absurd rfl hne
    · exact List.mem_map_of_mem hold
  · exact hk

/-- A new deadline for the head leaves the same tasks queued. -/
theorem World.queuedTasks_postponeMin {w : World} {u : TimerRef} {head : Entry TaskRef}
    {due : Instant} {queue : Queue TaskRef} (hpeek : (w.timer u).queue.peek = some head)
    (hqueue : (w.timer u).queue.postponeMin due = .ok queue) (v : TimerRef) :
    (w.setTimer u { w.timer u with queue := queue }).queuedTasks v ⊆ w.queuedTasks v := by
  obtain ⟨rest, hrest, hcontent⟩ := Queue.toList_postponeMin hpeek hqueue
  refine World.queuedTasks_setTimer (fun k hk => ?_) v
  rw [World.queuedTasks, World.queued, hrest]
  exact (hcontent.map (·.item)).mem_iff.1 hk

namespace Timetabled

variable {t : TimerRef} {k : TaskRef} {start : Instant} {period : Period} {w w' : World}
  {log : List Event}

/-- What is accepted has its whole timetable before it. -/
theorem enqueue (hc : Coupled w) (hr : Recorded w log) (hnew : (w.task k).state = .created)
    (t : TimerRef) (start : Instant) (period : Period) (newHead : Bool) :
    Timetabled t k start period (w.enqueue t k start period)
      (log ++ [.scheduled t k period newHead]) := by
  have htask : (w.enqueue t k start period).task k =
      { w.task k with state := .scheduled, next := some start, period := period } :=
    World.task_setTask_same w k _
  have hnone : executionsOf k (log ++ [.scheduled t k period newHead]) = [] := by
    rw [executionsOf_append, (hr.task k).executionsOf_of_created hnew,
      executionsOf_eq_nil (by simp [Event.fires]), List.append_nil]
  constructor
  · simp [htask]
  · rw [htask]
  · simp [htask]
  · intro u hu hk
    have hold : k ∈ w.queuedTasks u := by
      rwa [World.queuedTasks, World.queued, World.enqueue, World.timer_setTimer_of_ne _ hu] at hk
    obtain ⟨e, he, heq⟩ := List.mem_map.1 hold
    exact hc.not_queued_of_created hnew u e he heq
  · intro u f hf hk
    have hmem := mem_executionsOf.2 ⟨hk, u, hf⟩
    rw [hnone] at hmem
    cases hmem
  · rw [hnone]
    exact .nil
  · rw [hnone, htask]
    exact fun _ => rfl

/-- Nothing happens to the task but that it may be called off. -/
theorem keep (h : Timetabled t k start period w log) {events : List Event}
    (htask : w'.task k = w.task k ∨ (w.task k).state ≠ .executed ∧
      w'.task k = { w.task k with state := .cancelled })
    (hqueued : ∀ u, u ≠ t → k ∈ w'.queuedTasks u → k ∈ w.queuedTasks u)
    (hevents : ∀ e ∈ events, e.fires k = false) :
    Timetabled t k start period w' (log ++ events) := by
  have same : executionsOf k (log ++ events) = executionsOf k log := by
    rw [executionsOf_append, executionsOf_eq_nil hevents, List.append_nil]
  constructor
  · rcases htask with heq | ⟨-, heq⟩
    · exact heq ▸ h.used
    · simp [heq]
  · rcases htask with heq | ⟨-, heq⟩
    · exact heq ▸ h.mode
    · rw [heq]
      exact h.mode
  · rcases htask with heq | ⟨-, heq⟩
    · exact heq ▸ h.repeats
    · simp [heq]
  · exact fun u hu hk => h.elsewhere u hu (hqueued u hu hk)
  · intro u f hf hk
    rcases List.mem_append.1 hf with hf | hf
    · exact h.fired u f hf hk
    · have hnot := hevents _ hf
      rw [← hk, Event.fires_firing] at hnot
      cases hnot
  · exact same ▸ h.follows
  · rw [same]
    rcases htask with heq | ⟨hopen, heq⟩
    · exact heq ▸ h.next
    · rw [heq]
      exact fun _ => h.next hopen

/-- The task fires, for the deadline that it is queued with. -/
theorem fire (h : Timetabled t k start period w log) (hc : Coupled w) (hr : Recorded w log)
    {head : Entry TaskRef} (hfires : w.Fires t head) (hk : head.item = k) {x : Task}
    (htask : w'.task head.item = x) (hmode : x.period = (w.task head.item).period)
    (hdone : x.state = .executed ∧ x.period = .once ∨ x.state = .scheduled ∧
      x.next = x.period.next? head.due (w.timer t).clock.now)
    (hqueued : ∀ u, u ≠ t → k ∈ w'.queuedTasks u → k ∈ w.queuedTasks u) :
    Timetabled t k start period w' (log ++ [.firing t (w.firing t head)]) := by
  subst hk
  rw [h.mode] at hmode
  rw [hmode] at hdone
  have hscheduled := Recorded.scheduled_of_fires hc hfires
  have hnew : executionsOf head.item (log ++ [.firing t (w.firing t head)]) =
      executionsOf head.item log ++ [w.firing t head] := by
    rw [executionsOf_append, show head.item = (w.firing t head).task from rfl,
      executionsOf_firing]
  have hdue : period.dueAfter? start (executionsOf head.item log) = some head.due := by
    rw [← h.next (by simp [hscheduled])]
    exact hc.next t head (Queue.mem_of_peek hfires.peek)
  constructor
  · rcases hdone with ⟨hs, -⟩ | ⟨hs, -⟩ <;> simp [htask, hs]
  · rw [htask, hmode]
  · rcases hdone with ⟨-, honce⟩ | ⟨hs, -⟩
    · exact fun hnot => absurd honce hnot
    · simp [htask, hs]
  · exact fun u hu hk => h.elsewhere u hu (hqueued u hu hk)
  · intro u f hf hk
    rcases List.mem_append.1 hf with hf | hf
    · exact h.fired u f hf hk
    · rw [List.mem_singleton, Event.firing.injEq] at hf
      exact hf.1
  · rw [hnew]
    refine h.follows.snoc hdue hfires.due_le h.mode ?_
    rw [length_executionsOf, ← (hr.task head.item).executions]
    rfl
  · rw [hnew, Period.dueAfter?_concat, htask]
    rcases hdone with ⟨hs, -⟩ | ⟨-, hnext⟩
    · exact fun hnot => absurd hs hnot
    · exact fun _ => hnext

/-- Only the timer that accepted the task has it queued. -/
theorem timer_of_mem (h : Timetabled t k start period w log) {u : TimerRef} {e : Entry TaskRef}
    (he : e ∈ w.queued u) (hk : e.item = k) : u = t := by
  by_contra hu
  exact h.elsewhere u hu (List.mem_map.2 ⟨e, he, hk⟩)

theorem retire (h : Timetabled t k start period w log) (hc : Coupled w) (hr : Recorded w log)
    {u : TimerRef} {head : Entry TaskRef} (hfires : w.Fires u head)
    (honce : (w.task head.item).period = .once) :
    Timetabled t k start period (w.retire u head) (log ++ [.firing u (w.firing u head)]) := by
  have hqueued : ∀ v, (w.retire u head).queuedTasks v ⊆ w.queuedTasks v :=
    World.queuedTasks_dropHead hfires.peek
  by_cases hk : head.item = k
  · obtain rfl := h.timer_of_mem (Queue.mem_of_peek hfires.peek) hk
    exact h.fire hc hr hfires hk (World.task_setTask_same _ _ _) rfl (.inl ⟨rfl, honce⟩)
      fun v _ hv => hqueued v hv
  · refine h.keep (.inl (World.task_setTask_of_ne _ (Ne.symm hk) _)) (fun v _ hv => hqueued v hv) ?_
    simpa [Event.fires, World.firing] using hk

theorem postpone (h : Timetabled t k start period w log) (hc : Coupled w) (hr : Recorded w log)
    {u : TimerRef} {head : Entry TaskRef} {next : Instant} {queue : Queue TaskRef}
    (hfires : w.Fires u head)
    (hnext : (w.task head.item).period.next? head.due (w.timer u).clock.now = some next)
    (hqueue : (w.timer u).queue.postponeMin next = .ok queue) :
    Timetabled t k start period (w.postpone u head next queue)
      (log ++ [.firing u (w.firing u head)]) := by
  have hqueued : ∀ v, (w.postpone u head next queue).queuedTasks v ⊆ w.queuedTasks v :=
    World.queuedTasks_postponeMin hfires.peek hqueue
  by_cases hk : head.item = k
  · obtain rfl := h.timer_of_mem (Queue.mem_of_peek hfires.peek) hk
    have hstays := Recorded.scheduled_of_fires hc hfires
    exact h.fire hc hr hfires hk (World.task_setTask_same _ _ _) rfl (.inr ⟨hstays, hnext.symm⟩)
      fun v _ hv => hqueued v hv
  · refine h.keep (.inl (World.task_setTask_of_ne _ (Ne.symm hk) _)) (fun v _ hv => hqueued v hv) ?_
    simpa [Event.fires, World.firing] using hk

theorem change {a : Action} {events : List Event} (hc : Coupled w) (hr : Recorded w log)
    (h : Timetabled t k start period w log) (c : Change a w events w') :
    Timetabled t k start period w' (log ++ events) := by
  have quiet : ∀ {u : TimerRef} {x : Timer} {events : List Event},
      x.queue.toList.map (·.item) ⊆ w.queuedTasks u → (∀ e ∈ events, e.fires k = false) →
      Timetabled t k start period (w.setTimer u x) (log ++ events) :=
    fun hx hevents => h.keep (.inl rfl) (fun v _ hv => World.queuedTasks_setTimer hx v hv) hevents
  cases c with
  | newTask => exact h.keep (.inl (hr.task_newTask k)) (fun _ _ hv => hv) (by simp)
  | startTimer clock ha =>
    have started : Timetabled t k start period (w.setTimer ⟨w.timerCount⟩ { clock := clock })
        (log ++ [.threadStarted ⟨w.timerCount⟩]) :=
      quiet (List.nil_subset _) (by simp [Event.fires])
    exact ⟨started.used, started.mode, started.repeats, started.elsewhere, started.fired,
      started.follows, started.next⟩
  | setClock | rest | fail => exact quiet (List.Subset.refl _) (by simp)
  | reject u j => exact h.keep (.inl rfl) (fun _ _ hv => hv) (by simp [Event.fires])
  | accept u j due p newHead ht hj hopen hnew hdue =>
    have hne : k ≠ j := fun hkj => h.used (hkj ▸ hnew)
    refine h.keep (.inl (World.task_setTask_of_ne w hne _)) (fun v _ hv => ?_)
      (by simp [Event.fires])
    exact World.mem_queuedTasks_enqueue hne hv
  | cancel j hj hopen =>
    refine h.keep ?_ (fun _ _ hv => hv) (by simp [Event.fires])
    by_cases hk : k = j
    · subst hk
      refine .inr ⟨fun hs => ?_, World.task_setTask_same w k _⟩
      rw [hs] at hopen
      cases hopen
    · exact .inl (World.task_setTask_of_ne w hk _)
  | cancelAll u events ha ht hevents | record u bursts reason events ha ht hleaving hevents =>
    refine quiet (List.nil_subset _) ?_
    rcases hevents with rfl | ⟨n, rfl⟩ <;> simp [Event.fires]
  | close u n ht => exact quiet (List.Subset.refl _) (by simp [Event.fires])
  | purge u events ht hevents =>
    refine quiet (List.map_subset _ fun e he => ?_) ?_
    · exact (List.mem_filter.1 ((Queue.purge_perm _ _).2.mem_iff.1 he)).1
    · rcases hevents with rfl | ⟨n, rfl⟩ <;> simp [Event.fires]
  | discard u head ht hpeek hcancelled =>
    exact h.keep (.inl rfl) (fun v _ hv => World.queuedTasks_dropHead hpeek v hv) (by simp)
  | retire u head interim ha hfires honce => exact h.retire hc hr hfires honce
  | postpone u head interim next queue ha hfires hnext hqueue =>
    exact h.postpone hc hr hfires hnext hqueue

end Timetabled

namespace System

/-- A task that was accepted keeps to its timetable from then on. -/
theorem timetabled_run {acts : List Action} {a : Action} {t : TimerRef} {k : TaskRef}
    {start : Instant} {period : Period} (h : (after acts).Accepts a t k start period)
    (more : List Action) :
    Timetabled t k start period (after (acts ++ a :: more)).world
      (after (acts ++ a :: more)).log := by
  have hc := coupled_after acts
  have hr := recorded_after acts
  have accepted : Timetabled t k start period ((after acts).next a).world
      ((after acts).next a).log := by
    obtain ⟨w, hw, hworld, hlog⟩ := h.next_eq
    rw [hworld, hlog]
    rcases hw with rfl | ⟨rfl, rfl⟩
    · exact Timetabled.enqueue hc hr h.created t start period _
    · have made : Recorded ((after acts).world.newTask).world ((after acts).log ++ []) :=
        hr.change (a := a) hc .newTask
      rw [List.append_nil] at made
      exact Timetabled.enqueue hc.newTask made
        (congrArg Task.state (World.task_newTask_result (after acts).world)) t start period _
  rw [show acts ++ a :: more = (acts ++ [a]) ++ more by simp, after_append]
  refine keep_run_recorded (fun hc hr h c => h.change hc hr c) ?_ ?_ ?_ more
  · exact coupled_after (acts ++ [a])
  · exact recorded_after (acts ++ [a])
  · rw [after_concat]
    exact accepted

end System

end TaskTimer
