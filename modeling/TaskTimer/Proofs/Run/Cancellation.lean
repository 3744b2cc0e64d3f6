/-
TaskTimer.Proofs.Run.Cancellation — a task that was called off never fires again.

A call can come at any point: before the task is submitted, while it is queued, between the two
looks at the head, from its own body. As the record of a task tells its history, an event that
the state of a task does not allow is missing from the log from then on; the rest is to take the
log apart at the event of the call (`Recorded.off_after`) and to follow the one turn in which the
call comes between the two looks (`System.work_of_off_between`).
-/
import TaskTimer.Proofs.Run.Record

namespace TaskTimer

namespace Recorded

variable {w : World} {log pre post : List Event} {k : TaskRef}

/-- A task is called off once, and nothing after that is an execution of it. -/
theorem off_after (h : Recorded w log) (hlog : log = pre ++ .taskCancelled k :: post) :
    .taskCancelled k ∉ pre ++ post ∧ ∀ e ∈ post, e.fires k = false := by
  have horder := h.order
  rw [hlog, List.pairwise_append, List.pairwise_cons] at horder
  obtain ⟨-, ⟨hafter, -⟩, hacross⟩ := horder
  refine ⟨fun hmem => ?_, fun e he => (hafter e he k rfl).2⟩
  rcases List.mem_append.1 hmem with hmem | hmem
  · exact (hacross _ hmem _ List.mem_cons_self k rfl).1 rfl
  · exact (hafter _ hmem k rfl).1 rfl

/-- The executions of a task that was called off are those before. -/
theorem executions_of_off (h : Recorded w log) (hlog : log = pre ++ .taskCancelled k :: post) :
    (w.task k).executions = pre.countP (Event.fires k) := by
  have hnone : post.countP (Event.fires k) = 0 :=
    List.countP_eq_zero.2 fun e he => by simp [(h.off_after hlog).2 e he]
  rw [(h.task k).executions, hlog, List.countP_append, List.countP_cons, hnone]
  simp [Event.fires]

/-- A task that was accepted to fire once and was called off did not fire. -/
theorem not_fired_of_off (h : Recorded w log) {t : TimerRef} {b : Bool}
    (honce : .scheduled t k .once b ∈ log) (hoff : .taskCancelled k ∈ log) :
    ∀ e ∈ log, e.fires k = false := by
  have hstate := (h.task k).cancelled.1 hoff
  have hnone : (w.task k).executions = 0 := by
    rw [← Nat.le_zero, ← Nat.not_lt]
    intro hpos
    rw [(h.task k).once ((h.task k).accepted t _ b honce).1 hpos] at hstate
    cases hstate
  rw [(h.task k).executions, List.countP_eq_zero] at hnone
  exact fun e he => by simpa using hnone e he

end Recorded

namespace System

/-- The log only grows. -/
theorem exists_log_run (s : System) (acts : List Action) :
    ∃ events, (s.run acts).log = s.log ++ events := by
  induction acts generalizing s with
  | nil => exact ⟨[], (List.append_nil _).symm⟩
  | cons a acts ih =>
    obtain ⟨events, -, hnext⟩ := s.changes_next a
    obtain ⟨events', hrest⟩ := ih (s.next a)
    refine ⟨events ++ events', ?_⟩
    rw [← List.append_assoc, ← hnext]
    exact hrest

variable {acts : List Action} {t : TimerRef} {interim : List TaskRef}

/-- The executions of a task that is off are counted no further. -/
theorem executions_run_of_off {k : TaskRef} (hoff : .taskCancelled k ∈ (after acts).log)
    (more : List Action) :
    (((after acts).run more).world.task k).executions =
      ((after acts).world.task k).executions := by
  obtain ⟨pre, post, hlog⟩ := List.append_of_mem hoff
  obtain ⟨events, hrun⟩ := exists_log_run (after acts) more
  rw [(recorded_after acts).executions_of_off hlog]
  rw [← after_append] at hrun ⊢
  rw [hlog, List.append_assoc, List.cons_append] at hrun
  exact (recorded_after (acts ++ more)).executions_of_off hrun

/-- What a turn fires is not off when the turn is over. -/
theorem not_off_of_fire {f : Firing TaskRef} (hadmits : (after acts).Admits (.work t interim))
    (hfire : ((after acts).world.work t interim).result = .fire f) :
    .taskCancelled f.task ∉ ((after acts).next (.work t interim)).log := by
  obtain ⟨head, -, hfires, rfl, hworld⟩ := World.fires_of_work hadmits.1 hfire
  have h := (recorded_after (acts ++ [.work t interim])).task head.item
  rw [after_concat, next, if_pos hadmits] at h
  rw [next, if_pos hadmits]
  intro hoff
  refine World.state_fireHead_ne_cancelled hfires ?_
  rw [← hworld]
  exact h.cancelled.1 hoff

/-- A head that is called off between the two looks is taken out, and nothing else happens to
any timer. -/
theorem work_of_off_between {head : Entry TaskRef}
    (hpeek : ((after acts).world.timer t).queue.peek = some head)
    (hlive : ((after acts).world.task head.item).state ≠ .cancelled)
    (hdue : head.due ≤ ((after acts).world.timer t).clock.now) (hoff : head.item ∈ interim) :
    (after acts).world.work t interim =
      { result := .discardDue head.item
        world := ((after acts).world.cancelEach interim).world.dropHead t
        events := ((after acts).world.cancelEach interim).events } := by
  have hstate := (coupled_after acts).live t head (Queue.mem_of_peek hpeek)
  have hnot : ((after acts).world.task head.item).state ≠ .executed := by
    simp [hstate.resolve_right hlive]
  exact World.work_of_cancelled_between hpeek hlive hdue (World.state_cancelEach_of_mem hoff hnot)

theorem timer_next_of_off_between {head : Entry TaskRef}
    (hadmits : (after acts).Admits (.work t interim))
    (hpeek : ((after acts).world.timer t).queue.peek = some head)
    (hlive : ((after acts).world.task head.item).state ≠ .cancelled)
    (hdue : head.due ≤ ((after acts).world.timer t).clock.now) (hoff : head.item ∈ interim)
    (u : TimerRef) :
    ((after acts).next (.work t interim)).world.timer u =
      (((after acts).world).dropHead t).timer u := by
  rw [next, if_pos hadmits]
  show ((after acts).world.work t interim).world.timer u = _
  rw [work_of_off_between hpeek hlive hdue hoff]
  simp only [World.dropHead, World.timer_setTimer, World.timer_cancelEach]

end System

/-- **Cancellation is safe.** A call leaves its event exactly when it answers that it called the
task off. After every run, what follows such an event holds no execution of the task and no
second such event, and the executions counted are those before it; they stay as they are however
the run goes on. A turn that fires a task ends with the task not called off, although calls may
come between its two looks. A task accepted to fire once does not both fire and get called off.
And when the head is called off between the two looks, whether it repeats or not, the queue loses
its entry and no other, and stays a heap. -/
theorem cancelled_tasks_stay_off (acts : List Action) :
    let s := System.after acts
    (∀ (w : World) (k : TaskRef), (w.cancelTask k).events =
      if (w.cancelTask k).result then [.taskCancelled k] else []) ∧
    (∀ k pre post, s.log = pre ++ .taskCancelled k :: post →
      (∀ t f, .firing t f ∈ post → f.task ≠ k) ∧ .taskCancelled k ∉ pre ++ post ∧
        (s.world.task k).executions = pre.countP (Event.fires k)) ∧
    (∀ k, .taskCancelled k ∈ s.log → ∀ more,
      ((s.run more).world.task k).executions = (s.world.task k).executions) ∧
    (∀ t interim f, s.Admits (.work t interim) → (s.world.work t interim).result = .fire f →
      .taskCancelled f.task ∉ (s.next (.work t interim)).log) ∧
    (∀ t u k b f, .scheduled t k .once b ∈ s.log → .firing u f ∈ s.log → f.task = k →
      .taskCancelled k ∉ s.log) ∧
    ∀ t interim head, s.Admits (.work t interim) →
      (s.world.timer t).queue.peek = some head → (s.world.task head.item).state ≠ .cancelled →
      head.due ≤ (s.world.timer t).clock.now → head.item ∈ interim →
      let s' := s.next (.work t interim)
      (s.world.work t interim).result = .discardDue head.item ∧
        (s.world.queued t).Perm (head :: s'.world.queued t) ∧
        (s'.world.timer t).queue.IsHeap ∧ (∀ e ∈ s'.world.queued t, e.item ≠ head.item) ∧
        ∀ u, u ≠ t → s'.world.timer u = s.world.timer u := by
  have h := recorded_after acts
  refine ⟨World.events_cancelTask, ?_, ?_, ?_, ?_, ?_⟩
  · intro k pre post hlog
    obtain ⟨hother, hafter⟩ := h.off_after hlog
    refine ⟨fun t f hmem hf => ?_, hother, h.executions_of_off hlog⟩
    have hfires := hafter _ hmem
    rw [← hf, Event.fires_firing] at hfires
    cases hfires
  · intro k hoff more
    exact System.executions_run_of_off hoff more
  · intro t interim f hadmits hfire
    exact System.not_off_of_fire hadmits hfire
  · rintro t u k b f honce hfired rfl hoff
    have hfires := h.not_fired_of_off honce hoff _ hfired
    rw [Event.fires_firing] at hfires
    cases hfires
  · intro t interim head hadmits hpeek hlive hdue hoff
    have htimer := System.timer_next_of_off_between hadmits hpeek hlive hdue hoff
    have hqueue : (((System.after acts).next (.work t interim)).world.timer t).queue =
        ((System.after acts).world.timer t).queue.dropMin := by
      rw [htimer t, World.dropHead, World.timer_setTimer_same]
    have hperm : ((System.after acts).world.queued t).Perm
        (head :: ((System.after acts).next (.work t interim)).world.queued t) := by
      rw [World.queued, World.queued, hqueue]
      exact Queue.toList_dropMin hpeek
    refine ⟨by rw [System.work_of_off_between hpeek hlive hdue hoff], hperm, ?_, ?_, ?_⟩
    · rw [hqueue]
      exact Queue.isHeap_dropMin ((coupled_after acts).isHeap t)
    · exact (coupled_after acts).item_ne_of_peek hperm
    · intro u hu
      rw [htimer u, World.dropHead, World.timer_setTimer_of_ne _ hu]

/-- A repeating task that is due and is called off between the two looks. -/
example :
    ((System.after
      [.startTimer { now := .origin, wall := .epoch }, .newTask,
        .submission ⟨0⟩ ⟨0⟩ (.fixedRate ⟨0, by decide, by decide⟩ ⟨2, by decide, by decide⟩)]
      ).world.work ⟨0⟩ [⟨0⟩]).result = .discardDue ⟨0⟩ := by
  decide +kernel

end TaskTimer
