/-
TaskTimer.Proofs.Settling.Alike — what goes on does not depend on the layout of a queue.

Worlds are `Alike` that differ in the queue of a timer alone. They are `Akin` if, moreover, the
same tasks that are to run wait in the two queues; where they stand there, and which tasks that
were called off stand among them, is left open. Calls keep worlds akin (`Akin.next`), since none
but the turns of a thread looks at the layout of a queue. And threads settle alike in akin worlds,
since what becomes of each task follows from its record (`Akin.settles`): they run the same, but
for the order of executions with equal deadlines. Where one of them settles, so does the other
(`Akin.exists_settles`).
-/
import TaskTimer.Proofs.Settling.Outcome

namespace TaskTimer

/-! ## Worlds that differ in a queue -/

/-- Nothing but the queue of `t`, and timers other than `t`, may be different. -/
structure Alike (t : TimerRef) (w w' : World) : Prop where
  task : ∀ k, w'.task k = w.task k
  taskCount : w'.taskCount = w.taskCount
  timerCount : w'.timerCount = w.timerCount
  timer : ∃ queue, w'.timer t = { w.timer t with queue := queue }

namespace Alike

variable {t : TimerRef} {w w' w'' : World}

theorem refl (t : TimerRef) (w : World) : Alike t w w :=
  ⟨fun _ => rfl, rfl, rfl, (w.timer t).queue, rfl⟩

theorem symm (h : Alike t w w') : Alike t w' w := by
  obtain ⟨queue, htimer⟩ := h.timer
  refine ⟨fun k => (h.task k).symm, h.taskCount.symm, h.timerCount.symm, (w.timer t).queue, ?_⟩
  rw [htimer]

theorem trans (h : Alike t w w') (h' : Alike t w' w'') : Alike t w w'' := by
  obtain ⟨queue, htimer⟩ := h.timer
  obtain ⟨queue', htimer'⟩ := h'.timer
  refine ⟨fun k => (h'.task k).trans (h.task k), h'.taskCount.trans h.taskCount,
    h'.timerCount.trans h.timerCount, queue', ?_⟩
  rw [htimer', htimer]

theorem hasTimer_iff (h : Alike t w w') (u : TimerRef) : w'.HasTimer u ↔ w.HasTimer u := by
  rw [World.HasTimer, World.HasTimer, h.timerCount]

theorem hasTask_iff (h : Alike t w w') (k : TaskRef) : w'.HasTask k ↔ w.HasTask k := by
  rw [World.HasTask, World.HasTask, h.taskCount]

theorem dueAfter_eq (h : Alike t w w') (delay : Delay) :
    (w'.timer t).dueAfter delay = (w.timer t).dueAfter delay := by
  obtain ⟨queue, htimer⟩ := h.timer
  rw [htimer]
  rfl

theorem start_eq (h : Alike t w w') (way : Session.Submission) :
    way.start (w'.timer t) = way.start (w.timer t) := by
  obtain ⟨queue, htimer⟩ := h.timer
  exact way.start_of_clock (by rw [htimer])

theorem result_newTask (h : Alike t w w') : (w'.newTask).result = (w.newTask).result :=
  congrArg TaskRef.mk h.taskCount

/-- A purge changes nothing but the queue. -/
theorem purge (t : TimerRef) (w : World) : Alike t w (w.purge t).world :=
  ⟨fun _ => rfl, rfl, rfl, _, World.timer_setTimer_same w t _⟩

end Alike

theorem World.mem_queuedTasks_enqueue_iff {w : World} {t : TimerRef} {j k : TaskRef}
    {due : Instant} {period : Period} :
    j ∈ (w.enqueue t k due period).queuedTasks t ↔ j = k ∨ j ∈ w.queuedTasks t := by
  have content := (Queue.toList_push (w.timer t).queue due k).map (·.item)
  rw [World.queuedTasks, World.queued, World.enqueue, World.timer_setTimer_same]
  exact content.mem_iff.trans List.mem_cons

/-- Of the tasks that are to run the same ones are queued; nothing else may be different but what
else is queued, and timers other than `t`. -/
structure Akin (t : TimerRef) (w w' : World) : Prop extends Alike t w w' where
  mem_iff : ∀ k, (w.task k).state = .scheduled → (k ∈ w'.queuedTasks t ↔ k ∈ w.queuedTasks t)

namespace Akin

variable {t : TimerRef} {w w' w'' : World}

theorem refl (t : TimerRef) (w : World) : Akin t w w := ⟨.refl t w, fun _ _ => Iff.rfl⟩

theorem symm (h : Akin t w w') : Akin t w' w :=
  ⟨h.toAlike.symm, fun k hk => (h.mem_iff k (h.task k ▸ hk)).symm⟩

theorem trans (h : Akin t w w') (h' : Akin t w' w'') : Akin t w w'' := by
  refine ⟨h.toAlike.trans h'.toAlike, fun k hk => ?_⟩
  exact (h'.mem_iff k ((h.task k).symm ▸ hk)).trans (h.mem_iff k hk)

/-- A task may change in both worlds in the same way, unless that schedules it. -/
theorem setTask (h : Akin t w w') {k : TaskRef} {x : Task}
    (hx : x.state = .scheduled → (w.task k).state = .scheduled) :
    Akin t (w.setTask k x) (w'.setTask k x) := by
  refine ⟨⟨fun j => ?_, h.taskCount, h.timerCount, h.timer⟩, fun j hj => h.mem_iff j ?_⟩
  · rw [World.task_setTask, World.task_setTask, h.task j]
  · rw [World.task_setTask] at hj
    split at hj
    · next hjk => exact hjk ▸ hx hj
    · exact hj

/-- In both worlds the timer may change, if it does so in the same way but for the layout of the
queue. -/
theorem setTimer (h : Akin t w w') {x x' : Timer} (hx : ∃ queue, x' = { x with queue := queue })
    (hmem : ∀ k, (w.task k).state = .scheduled →
      (k ∈ x'.queue.toList.map (·.item) ↔ k ∈ x.queue.toList.map (·.item))) :
    Akin t (w.setTimer t x) (w'.setTimer t x') := by
  refine ⟨⟨h.task, h.taskCount, h.timerCount, ?_⟩, ?_⟩
  · rw [World.timer_setTimer_same, World.timer_setTimer_same]
    exact hx
  · simp only [World.queuedTasks, World.queued, World.timer_setTimer_same]
    exact hmem

/-! ## Calls -/

theorem newTask (h : Akin t w w') : Akin t (w.newTask).world (w'.newTask).world := by
  have made : Akin t (w.setTask ⟨w.taskCount⟩ {}) (w'.setTask ⟨w.taskCount⟩ {}) :=
    h.setTask (by simp)
  rw [World.newTask, World.newTask, h.taskCount]
  exact ⟨⟨made.task, rfl, made.timerCount, made.timer⟩, made.mem_iff⟩

theorem enqueue (h : Akin t w w') (k : TaskRef) (due : Instant) (period : Period) :
    Akin t (w.enqueue t k due period) (w'.enqueue t k due period) := by
  obtain ⟨queue, htimer⟩ := h.timer
  refine ⟨⟨fun j => ?_, h.taskCount, h.timerCount, ?_⟩, fun j hj => ?_⟩
  · simp only [World.enqueue, World.task_setTimer, World.task_setTask, h.task]
  · refine ⟨queue.push due k, ?_⟩
    simp only [World.enqueue, World.timer_setTimer_same, htimer]
  · rw [World.mem_queuedTasks_enqueue_iff, World.mem_queuedTasks_enqueue_iff]
    by_cases hjk : j = k
    · simp [hjk]
    · rw [World.enqueue, World.task_setTimer, World.task_setTask_of_ne _ hjk] at hj
      rw [h.mem_iff j hj]

theorem accept (h : Akin t w w') (k : TaskRef) (due : Instant) (period : Period) :
    Akin t (w.accept t k due period).world (w'.accept t k due period).world := by
  obtain ⟨queue, htimer⟩ := h.timer
  have haccepting : (w'.timer t).accepting = (w.timer t).accepting := by rw [htimer]
  cases hopen : (w.timer t).accepting with
  | false =>
    rw [World.accept_of_closed hopen, World.accept_of_closed (haccepting.trans hopen)]
    exact h
  | true =>
    by_cases hnew : (w.task k).state = .created
    · rw [World.accept_of_created hopen hnew,
        World.accept_of_created (haccepting.trans hopen) (h.task k ▸ hnew)]
      exact h.enqueue k due period
    · rw [World.accept_of_used hopen hnew,
        World.accept_of_used (haccepting.trans hopen) (h.task k ▸ hnew)]
      exact h

theorem submitChecked (h : Akin t w w') (k : TaskRef) (start : Except SubmissionError Instant)
    (period : Except SubmissionError Period) :
    Akin t (w.submitChecked t k start period).world (w'.submitChecked t k start period).world := by
  cases start with
  | error e => exact h
  | ok due =>
    cases period with
    | error e => exact h
    | ok period => exact h.accept k due period

theorem submission (h : Akin t w w') (k : TaskRef) (way : Session.Submission) :
    Akin t (way.op t k w).world (way.op t k w').world := by
  rw [way.op_eq, way.op_eq, h.start_eq]
  exact h.submitChecked k _ _

theorem submitOnce (h : Akin t w w') (delay : Delay) :
    Akin t (w.submitOnce t delay).world (w'.submitOnce t delay).world := by
  show Akin t
    ((w.newTask).world.submitChecked t (w.newTask).result ((w.timer t).dueAfter delay) _).world
    ((w'.newTask).world.submitChecked t (w'.newTask).result ((w'.timer t).dueAfter delay) _).world
  rw [h.dueAfter_eq, h.result_newTask]
  exact h.newTask.submitChecked _ _ _

theorem submitRepeating (h : Akin t w w') (delay period : Delay) (mode : RepeatMode) :
    Akin t (w.submitRepeating t delay period mode).world
      (w'.submitRepeating t delay period mode).world := by
  rw [World.submitRepeating, World.submitRepeating, h.dueAfter_eq]
  cases (w.timer t).dueAfter delay with
  | error e => exact h
  | ok due =>
    cases mode.every period with
    | error e => exact h
    | ok period =>
      show Akin t ((w.newTask).world.accept t (w.newTask).result due period).world
        ((w'.newTask).world.accept t (w'.newTask).result due period).world
      rw [h.result_newTask]
      exact h.newTask.accept _ _ _

theorem cancelTask (h : Akin t w w') (k : TaskRef) :
    Akin t (w.cancelTask k).world (w'.cancelTask k).world := by
  cases hopen : (w.task k).state.canBecome .cancelled with
  | true =>
    rw [World.cancelTask_of_open hopen, World.cancelTask_of_open (h.task k ▸ hopen), h.task k]
    exact h.setTask (by simp)
  | false =>
    rw [World.cancelTask_of_ended hopen, World.cancelTask_of_ended (h.task k ▸ hopen)]
    exact h

theorem cancelAll (h : Akin t w w') :
    Akin t (w.cancelAll t).world (w'.cancelAll t).world := by
  obtain ⟨queue, htimer⟩ := h.timer
  refine h.setTimer ⟨.empty, ?_⟩ fun _ _ => Iff.rfl
  rw [htimer]

/-- What the timer has apart from its queue may change. -/
theorem setFlags (h : Akin t w w') {x : Timer} (hx : x.queue = (w.timer t).queue) :
    Akin t (w.setTimer t x) (w'.setTimer t { x with queue := (w'.timer t).queue }) := by
  refine h.setTimer ⟨_, rfl⟩ fun k hk => ?_
  rw [hx]
  exact h.mem_iff k hk

theorem setClock (h : Akin t w w') (clock : Clock) :
    Akin t (w.setClock t clock) (w'.setClock t clock) := by
  obtain ⟨queue, htimer⟩ := h.timer
  have set := h.setFlags (x := { w.timer t with clock := clock }) rfl
  rw [htimer] at set
  rw [World.setClock, World.setClock, htimer]
  exact set

theorem close (h : Akin t w w') : Akin t (w.close t).world (w'.close t).world := by
  obtain ⟨queue, htimer⟩ := h.timer
  have haccepting : (w'.timer t).accepting = (w.timer t).accepting := by rw [htimer]
  cases hopen : (w.timer t).accepting with
  | false =>
    rw [World.close, World.close, haccepting, hopen]
    exact h
  | true =>
    have set := h.setFlags (x := { w.timer t with accepting := false }) rfl
    rw [htimer] at set
    rw [World.close, World.close, haccepting, hopen, htimer]
    exact set

/-- A purge takes out nothing that is to run. -/
theorem purge (t : TimerRef) (w : World) : Akin t w (w.purge t).world := by
  have kept : ((w.timer t).queue.purge w.isCancelled).2.toList ⊆ w.queued t :=
    List.Subset.trans (Queue.purge_perm _ _).2.subset (List.filter_subset_self _)
  have fewer : ((w.timer t).queue.purge w.isCancelled).2.toList.map (·.item) ⊆
      w.queuedTasks t :=
    List.map_subset _ kept
  have holds : Holds t w (w.purge t).world := .of_purge rfl fun _ => rfl
  exact ⟨.purge t w, fun k hk =>
    ⟨fun hmem => World.queuedTasks_setTimer fewer t hmem, holds.queued k hk⟩⟩

end Akin

/-- A call of the kind that the main thread makes on the timer `t`. The clocks that it sets have
room. -/
def Action.IsCallOn (t : TimerRef) : Action → Prop
  | .newTask | .cancelTask _ => True
  | .setClock u clock => u = t ∧ clock.HasRoom
  | .submission u _ _ | .insert u _ _ _ | .submitOnce u _ | .submitRepeating u _ _ _
  | .cancelAll u | .close u | .purge u => u = t
  | .startTimer _ | .work _ _ | .finish _ _ | .record _ _ => False

instance (t : TimerRef) : (a : Action) → Decidable (a.IsCallOn t)
  | .newTask | .cancelTask _ => inferInstanceAs (Decidable True)
  | .setClock _ _ => inferInstanceAs (Decidable (_ ∧ _))
  | .submission _ _ _ | .insert _ _ _ _ | .submitOnce _ _ | .submitRepeating _ _ _ _
  | .cancelAll _ | .close _ | .purge _ => inferInstanceAs (Decidable (_ = _))
  | .startTimer _ | .work _ _ | .finish _ _ | .record _ _ => inferInstanceAs (Decidable False)

namespace System

variable {t : TimerRef} {s s' r r' : System} {a : Action} {fs gs : List (Firing TaskRef)}

theorem admits_iff_of_alike (h : Alike t s.world s'.world) (ha : a.IsCallOn t) :
    s'.Admits a ↔ s.Admits a := by
  cases a with
  | newTask => exact Iff.rfl
  | cancelTask k => exact h.hasTask_iff k
  | submission u k way | insert u k due way =>
    exact and_congr (h.hasTimer_iff u) (h.hasTask_iff k)
  | setClock u | submitOnce u | submitRepeating u | cancelAll u | close u | purge u =>
    exact h.hasTimer_iff u
  | startTimer | work | finish | record => exact absurd ha id

/-- A call runs no body. -/
theorem running_next_call (ha : a.IsCallOn t) : (s.next a).running = s.running := by
  rw [next]
  split
  · cases a with
    | startTimer | work | finish | record => exact absurd ha id
    | _ => rfl
  · rfl

theorem Unoccupied.next_call (h : Unoccupied t s) (ha : a.IsCallOn t) :
    Unoccupied t (s.next a) := by
  constructor
  · obtain ⟨acts, rfl⟩ := h.reachable
    exact ⟨acts ++ [a], (after_concat acts a).symm⟩
  · exact hasTimer_next h.hasTimer a
  · rw [running_next_call ha]
    exact h.free
  · obtain ⟨hstage, hshutdown⟩ := thread_next (a := a) h.hasTimer (by rintro interim rfl; exact ha)
      (by rintro ending rfl; exact ha) (by rintro bursts rfl; exact ha)
    rw [hstage, hshutdown]
    exact h.present

/-- The clocks that calls set have room, and other calls set none. -/
theorem hasRoom_next_call (ht : s.world.HasTimer t) (ha : a.IsCallOn t)
    (hroom : (s.world.timer t).clock.HasRoom) : ((s.next a).world.timer t).clock.HasRoom := by
  by_cases hset : ∃ clock, a = .setClock t clock
  · obtain ⟨clock, rfl⟩ := hset
    have hadmits : s.Admits (.setClock t clock) := ht
    rw [next, if_pos hadmits]
    show ((s.world.setTimer t _).timer t).clock.HasRoom
    rw [World.timer_setTimer_same]
    exact ha.2
  · rwa [clock_next ht fun clock hclock => hset ⟨clock, hclock⟩]

/-- After a call the timer is on its own as it was before. -/
theorem Attended.next_call (h : Attended t s) (ha : a.IsCallOn t) : Attended t (s.next a) := by
  obtain ⟨reachable, hasTimer, free, present⟩ := h.unoccupied.next_call ha
  refine ⟨reachable, hasTimer, fun u hu => ?_, free, present,
    hasRoom_next_call h.hasTimer ha h.room⟩
  rw [World.HasTimer, timerCount_next (by rintro clock rfl; exact ha)] at hu
  exact h.only u hu

/-- A call runs nothing. -/
theorem firingsOn_next_call (ha : a.IsCallOn t) :
    firingsOn t (s.next a).log = firingsOn t s.log := by
  refine firingsOn_next_of_ne fun interim hwork => ?_
  subst hwork
  exact ha

end System

/-! ## Settling alike -/

/-- Executions that are the same for each task are the same but for their order. -/
theorem perm_of_filter_task_eq {fs gs : List (Firing TaskRef)}
    (h : ∀ k, fs.filter (·.task = k) = gs.filter (·.task = k)) : fs.Perm gs := by
  refine List.perm_iff_count.2 fun f => ?_
  have hcount := congrArg (List.count f) (h f.task)
  rwa [List.count_filter (by simp), List.count_filter (by simp)] at hcount

/-- A timer is told by its flags and its queue. -/
theorem Timer.exists_queue_of_flags {x y : Timer} (clock : y.clock = x.clock)
    (accepting : y.accepting = x.accepting) (cancelled : y.cancelled = x.cancelled)
    (stage : y.stage = x.stage) (shutdown : y.shutdown = x.shutdown) :
    ∃ queue, y = { x with queue := queue } := by
  refine ⟨y.queue, ?_⟩
  rw [← clock, ← accepting, ← cancelled, ← stage, ← shutdown]

namespace Akin

variable {t : TimerRef} {s s' r r' : System} {a : Action} {fs gs : List (Firing TaskRef)}

/-- No call looks at the layout of a queue. -/
theorem next (h : Akin t s.world s'.world) (ha : a.IsCallOn t) :
    Akin t (s.next a).world (s'.next a).world := by
  by_cases hadmits : s.Admits a
  · rw [System.next, System.next, if_pos hadmits,
      if_pos ((System.admits_iff_of_alike h.toAlike ha).2 hadmits)]
    cases a with
    | newTask => exact h.newTask
    | cancelTask k => exact h.cancelTask k
    | setClock u clock =>
      obtain ⟨rfl, -⟩ := ha
      exact h.setClock clock
    | submission u k way =>
      obtain rfl : u = t := ha
      exact h.submission k way
    | insert u k due way =>
      obtain rfl : u = t := ha
      exact h.submitChecked k _ _
    | submitOnce u delay =>
      obtain rfl : u = t := ha
      exact h.submitOnce delay
    | submitRepeating u delay period mode =>
      obtain rfl : u = t := ha
      exact h.submitRepeating delay period mode
    | cancelAll u =>
      obtain rfl : u = t := ha
      exact h.cancelAll
    | close u =>
      obtain rfl : u = t := ha
      exact h.close
    | purge u =>
      obtain rfl : u = t := ha
      exact ((Akin.purge u s.world).symm.trans h).trans (.purge u s'.world)
    | startTimer | work | finish | record => exact absurd ha id
  · rw [System.next, System.next, if_neg hadmits,
      if_neg fun h' => hadmits ((System.admits_iff_of_alike h.toAlike ha).1 h')]
    exact h

/-- What becomes of a task, and what it runs, follows from its record and from whether it is
queued. -/
theorem settles_task (h : Akin t s.world s'.world) (hs : s.Unoccupied t) (hs' : s'.Unoccupied t)
    (hr : System.Settles t s fs r) (hr' : System.Settles t s' gs r') (k : TaskRef) :
    fs.filter (·.task = k) = gs.filter (·.task = k) ∧ r.world.task k = r'.world.task k := by
  by_cases hk : (s.world.task k).state = .scheduled → k ∈ s.world.queuedTasks t
  · obtain ⟨queue, htimer⟩ := h.timer
    have hexhausts' := hr'.exhausts hs' (k := k) fun hk' =>
      (h.mem_iff k (h.task k ▸ hk')).2 (hk (h.task k ▸ hk'))
    rw [h.task k, htimer] at hexhausts'
    exact (hr.exhausts hs hk).unique hexhausts'
  · obtain ⟨hsched, hnot⟩ := Classical.not_imp.1 hk
    obtain ⟨htask, hfs⟩ := hr.untouched hs fun _ => hnot
    obtain ⟨htask', hgs⟩ := hr'.untouched hs' (k := k) fun _ hmem =>
      hnot ((h.mem_iff k hsched).1 hmem)
    exact ⟨hfs.trans hgs.symm, by rw [htask, htask', h.task k]⟩

/-- Two threads that settle both go on, or both end for the same reason. -/
theorem settles_thread (h : Akin t s.world s'.world) (hs : s.Unoccupied t)
    (hs' : s'.Unoccupied t) (hr : System.Settles t s fs r) (hr' : System.Settles t s' gs r')
    (hpending : r'.world.Pending t ↔ r.world.Pending t)
    (hreason : World.restReason (r'.world.timer t) = World.restReason (r.world.timer t)) :
    (r'.world.timer t).stage = (r.world.timer t).stage ∧
      (r'.world.timer t).shutdown = (r.world.timer t).shutdown := by
  obtain ⟨queue, htimer⟩ := h.timer
  have hstage : (s'.world.timer t).stage = (s.world.timer t).stage := by rw [htimer]
  have hshutdown : (s'.world.timer t).shutdown = (s.world.timer t).shutdown := by rw [htimer]
  rcases hs.present with hgoing | hended
  · have hends := hr.shutdown_cases hs hgoing
    have hends' := hr'.shutdown_cases hs' (hstage.trans hgoing)
    rw [hpending, hreason] at hends'
    rcases hends with ⟨hstill, hnone, hmore⟩ | ⟨hover, hsome, hdone⟩
    · obtain ⟨hstill', hnone', -⟩ := hends'.resolve_right fun hends' => hends'.2.2 hmore
      exact ⟨hstill'.trans hstill.symm, hnone'.trans hnone.symm⟩
    · obtain ⟨hover', hsome', -⟩ := hends'.resolve_left fun hends' => hdone hends'.2.2
      exact ⟨hover'.trans hover.symm, hsome'.trans hsome.symm⟩
  · obtain ⟨-, rfl⟩ := hr.of_ended hended
    obtain ⟨-, rfl⟩ := hr'.of_ended (hshutdown ▸ hended)
    exact ⟨hstage, hshutdown⟩

/-- **Threads that settle in worlds that are akin** come to worlds that are akin, and run the same
on the way, in the same order of deadlines. -/
theorem settles (h : Akin t s.world s'.world) (hs : s.Unoccupied t) (hs' : s'.Unoccupied t)
    (hr : System.Settles t s fs r) (hr' : System.Settles t s' gs r') :
    Akin t r.world r'.world ∧ fs.Perm gs ∧ fs.map (·.due) = gs.map (·.due) := by
  have same := h.settles_task hs hs' hr hr'
  have hperm := perm_of_filter_task_eq fun k => (same k).1
  have hdues : fs.map (·.due) = gs.map (·.due) :=
    (hperm.map _).eq_of_pairwise (fun _ _ _ _ => Std.le_antisymm) (hr.sorted hs) (hr'.sorted hs')
  obtain ⟨queue, htimer⟩ := h.timer
  obtain ⟨hclock, haccepting, hcancelled⟩ := hr.timer_eq
  obtain ⟨hclock', haccepting', hcancelled'⟩ := hr'.timer_eq
  rw [htimer] at hclock' haccepting' hcancelled'
  have haccepts := haccepting'.trans haccepting.symm
  have hcancels := hcancelled'.trans hcancelled.symm
  have hmem : ∀ k, (r.world.task k).state = .scheduled →
      (k ∈ r'.world.queuedTasks t ↔ k ∈ r.world.queuedTasks t) := by
    intro k hk
    rw [hr'.drains.mem_iff k ((same k).2 ▸ hk), hr.drains.mem_iff k hk]
    exact h.mem_iff k (hr.drains.scheduled k hk)
  have hpending : r'.world.Pending t ↔ r.world.Pending t := by
    simp only [World.Pending, haccepts, ← (same _).2]
    refine or_congr Iff.rfl (exists_congr fun k => ?_)
    exact and_congr_left fun hk => hmem k hk
  have hreason : World.restReason (r'.world.timer t) = World.restReason (r.world.timer t) := by
    rw [World.restReason, World.restReason, hcancels]
  obtain ⟨hstage, hshutdown⟩ := h.settles_thread hs hs' hr hr' hpending hreason
  refine ⟨⟨⟨fun k => (same k).2.symm, ?_, ?_, ?_⟩, hmem⟩, hperm, hdues⟩
  · rw [hr.counts_eq.1, hr'.counts_eq.1, h.taskCount]
  · rw [hr.counts_eq.2, hr'.counts_eq.2, h.timerCount]
  · exact Timer.exists_queue_of_flags (hclock'.trans hclock.symm) haccepts hcancels hstage hshutdown

end Akin

/-! ## Settling as planned -/

namespace World

variable {t : TimerRef} {w w' : World} {fs plan : List (Firing TaskRef)}

/-- The executions in `plan` are all that the queued tasks have to run now. -/
def Planned (t : TimerRef) (w : World) (plan : List (Firing TaskRef)) : Prop :=
  ∀ k ∈ w.queuedTasks t, (w.task k).state = .scheduled →
    ∃ y, Task.Exhausts k (w.timer t).clock.now (w.task k) (plan.filter (·.task = k)) y

/-- When the head fires, the plan starts with that for its task. -/
theorem Planned.fire (hplan : w.Planned t plan) (hc : Coupled w) {head : Entry TaskRef}
    (hfires : w.Fires t head)
    (htask : w'.task head.item = (w.task head.item).fired head.due (w.timer t).clock.now)
    (hothers : ∀ j, j ≠ head.item → w'.task j = w.task j)
    (hclock : (w'.timer t).clock = (w.timer t).clock)
    (hqueued : w'.queuedTasks t ⊆ w.queuedTasks t) :
    ∃ plan', w'.Planned t plan' ∧ plan'.length < plan.length := by
  have hmem := Queue.mem_of_peek hfires.peek
  have hscheduled := (hc.live t head hmem).resolve_right hfires.live
  obtain ⟨y, hy⟩ := hplan head.item (List.mem_map_of_mem hmem) hscheduled
  have hnext := hc.next t head hmem
  generalize hfs : plan.filter (·.task = head.item) = fs at hy
  cases hy with
  | rest ahead => exact absurd (ahead hscheduled _ hnext) (Std.not_lt.2 hfires.due_le)
  | @fire _ _ due rest _ next due_le later =>
    obtain rfl : head.due = due := Option.some.inj (hnext.symm.trans next)
    let f := (w.task head.item).firing head.item head.due (w.timer t).clock.now
    have hf : f ∈ plan := (List.mem_filter.1 (hfs ▸ List.mem_cons_self : f ∈ plan.filter _)).1
    refine ⟨plan.erase f, fun k hk hs => ?_, ?_⟩
    · rw [hclock, ← List.erase_filter]
      by_cases hkh : k = head.item
      · subst hkh
        rw [htask, hfs, List.erase_cons_head]
        exact ⟨y, later⟩
      · have hnot : f ∉ plan.filter (·.task = k) := by
          simp [f, Task.firing, Ne.symm hkh]
        rw [hothers k hkh, List.erase_of_not_mem hnot]
        exact hplan k (hqueued hk) (hothers k hkh ▸ hs)
    · rw [List.length_erase_of_mem hf]
      exact Nat.sub_lt (List.length_pos_of_mem hf) Nat.one_pos

theorem length_queued_dropHead {head : Entry TaskRef}
    (hpeek : (w.timer t).queue.peek = some head) :
    (w.queued t).length = ((w.dropHead t).queued t).length + 1 := by
  rw [queued, queued, dropHead, timer_setTimer_same]
  exact (Queue.toList_dropMin hpeek).length_eq

theorem length_queued_postponeMin {head : Entry TaskRef} {due : Instant}
    {queue : Queue TaskRef} (hpeek : (w.timer t).queue.peek = some head)
    (hqueue : (w.timer t).queue.postponeMin due = .ok queue) :
    ((w.setTimer t { w.timer t with queue := queue }).queued t).length =
      (w.queued t).length := by
  obtain ⟨rest, hrest, hcontent⟩ := Queue.toList_postponeMin hpeek hqueue
  rw [queued, queued, timer_setTimer_same, hrest]
  exact hcontent.length_eq

/-- A turn ends the thread, or leaves less to do of what was planned. -/
theorem Turned.planned (h : Turned t w fs w') (hc : Coupled w) (hplan : w.Planned t plan) :
    (w'.timer t).shutdown ≠ none ∨ ∃ plan', w'.Planned t plan' ∧
      plan'.length + (w'.queued t).length < plan.length + (w.queued t).length := by
  have hclock := h.timer_eq.1
  cases h with
  | stop => exact .inl (by simp [ended])
  | discard head hpeek hcancelled =>
    refine .inr ⟨plan, fun k hk hs => ?_, Nat.add_lt_add_left ?_ _⟩
    · rw [hclock]
      exact hplan k (queuedTasks_dropHead hpeek t hk) hs
    · rw [length_queued_dropHead hpeek]
      exact Nat.lt_succ_self _
  | retire head hfires honce =>
    obtain ⟨plan', hplan', hless⟩ := hplan.fire hc hfires (task_retire honce)
      (fun j hj => task_setTask_of_ne _ hj _) hclock (queuedTasks_dropHead hfires.peek t)
    refine .inr ⟨plan', hplan', Nat.add_lt_add_of_lt_of_le hless ?_⟩
    rw [length_queued_dropHead hfires.peek]
    exact Nat.le_succ _
  | postpone head next queue hfires hnext hqueue =>
    obtain ⟨plan', hplan', hless⟩ := hplan.fire hc hfires (task_postpone hnext)
      (fun j hj => task_setTask_of_ne _ hj _) hclock
      (queuedTasks_postponeMin hfires.peek hqueue t)
    exact .inr ⟨plan', hplan', Nat.add_lt_add_of_lt_of_le hless
      (Nat.le_of_eq (length_queued_postponeMin hfires.peek hqueue))⟩

end World

/-- A thread with a plan settles. -/
theorem System.Unoccupied.exists_settles {t : TimerRef} {s : System}
    (hu : s.Unoccupied t) (plan : List (Firing TaskRef)) (hplan : s.world.Planned t plan) :
    ∃ fs r, System.Settles t s fs r := by
  induction hn : plan.length + (s.world.queued t).length using Nat.strongRecOn
    generalizing s plan with
  | ind n ih =>
    by_cases hsettled : s.Settled t
    · exact ⟨[], s, .rest hsettled⟩
    · obtain ⟨fs, hturned, -⟩ := hu.turned hsettled
      rcases hturned.planned hu.coupled hplan with hended | ⟨plan', hplan', hless⟩
      · exact ⟨_, _, .turn hsettled hturned (.rest (.inl hended))⟩
      · obtain ⟨gs, r, hlater⟩ := ih _ (hn ▸ hless) hu.turnOver plan' hplan' rfl
        exact ⟨_, r, .turn hsettled hturned hlater⟩

/-- Where a thread settles, it does so in all worlds that are akin. -/
theorem Akin.exists_settles {t : TimerRef} {s s' r : System} {fs : List (Firing TaskRef)}
    (h : Akin t s.world s'.world) (hs : s.Unoccupied t) (hs' : s'.Unoccupied t)
    (hr : System.Settles t s fs r) : ∃ gs r', System.Settles t s' gs r' := by
  obtain ⟨queue, htimer⟩ := h.timer
  refine hs'.exists_settles fs fun k hk hscheduled => ?_
  rw [h.task k] at hscheduled ⊢
  refine ⟨r.world.task k, ?_⟩
  rw [htimer]
  exact hr.exhausts hs fun _ => (h.mem_iff k hscheduled).1 hk

end TaskTimer
