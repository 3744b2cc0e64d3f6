/-
TaskTimer.Proofs.Settling.Outcome — what settling comes to, task by task.

Which task fires when depends on the layout of a heap as soon as two deadlines are equal. What
becomes of each task does not: as long as it is scheduled and due it fires, and then it has come
to its next deadline or is done (`Task.Exhausts`). Time stands still meanwhile, so its record and
its executions follow from the record that it had (`Task.Exhausts.unique`); and so does the end of
the thread, which comes just when no task is left and none can come (`Settles.shutdown_cases`).
-/
import TaskTimer.Proofs.Run.Timetable
import TaskTimer.Proofs.Settling.Progress

namespace TaskTimer

/-! ## What becomes of one task -/

namespace Task

/-- The task fired at `now` for the deadline `due`. -/
def fired (x : Task) (due now : Instant) : Task :=
  match x.period.next? due now with
  | none => { x with executions := x.executions + 1, state := .executed }
  | some next => { x with executions := x.executions + 1, next := some next }

/-- The execution that begins when the task `k` fires at `now` for the deadline `due`. -/
def firing (x : Task) (k : TaskRef) (due now : Instant) : Firing TaskRef :=
  { task := k
    due := due
    firedAt := now
    period := x.period
    execution := x.executions + 1 }

/-- The task `k` fires at `now` as long as it is due: it runs `fs` and ends up as `y`. -/
inductive Exhausts (k : TaskRef) (now : Instant) : Task → List (Firing TaskRef) → Task → Prop
  | rest {x : Task} (ahead : x.state = .scheduled → ∀ due, x.next = some due → now < due) :
    Exhausts k now x [] x
  | fire {x y : Task} {due : Instant} {fs : List (Firing TaskRef)}
      (scheduled : x.state = .scheduled) (next : x.next = some due) (due_le : due ≤ now)
      (later : Exhausts k now (x.fired due now) fs y) :
    Exhausts k now x (x.firing k due now :: fs) y

/-- The record of a task settles what it runs and what becomes of it. -/
theorem Exhausts.unique {k : TaskRef} {now : Instant} {x y z : Task}
    {fs gs : List (Firing TaskRef)} (h : Exhausts k now x fs y) (h' : Exhausts k now x gs z) :
    fs = gs ∧ y = z := by
  induction h generalizing gs with
  | rest ahead =>
    cases h' with
    | rest => exact ⟨rfl, rfl⟩
    | fire scheduled next due_le => exact absurd (ahead scheduled _ next) (Std.not_lt.2 due_le)
  | fire scheduled next due_le later ih =>
    cases h' with
    | rest ahead => exact absurd (ahead scheduled _ next) (Std.not_lt.2 due_le)
    | fire scheduled' next' due_le' later' =>
      obtain rfl := Option.some.inj (next.symm.trans next')
      obtain ⟨rfl, rfl⟩ := ih later'
      exact ⟨rfl, rfl⟩

end Task

namespace World

variable {t : TimerRef} {w w' : World} {fs : List (Firing TaskRef)}

/-! ## One turn -/

theorem task_retire {head : Entry TaskRef} (honce : (w.task head.item).period = .once) :
    (w.retire t head).task head.item =
      (w.task head.item).fired head.due (w.timer t).clock.now := by
  have hnone : (w.task head.item).period.next? head.due (w.timer t).clock.now = none := by
    rw [honce]
    rfl
  rw [retire, task_setTask_same, Task.fired, hnone]

theorem task_postpone {head : Entry TaskRef} {next : Instant} {queue : Queue TaskRef}
    (hnext : (w.task head.item).period.next? head.due (w.timer t).clock.now = some next) :
    (w.postpone t head next queue).task head.item =
      (w.task head.item).fired head.due (w.timer t).clock.now := by
  rw [postpone, task_setTask_same, Task.fired, hnext]

/-- A turn ends the thread if the queue is empty, and otherwise changes nothing about the timer but
its queue. -/
theorem Turned.timer_cases (h : Turned t w fs w') :
    (w.timer t).queue.peek = none ∧ (w.timer t).accepting = false ∧ fs = [] ∧
        w' = w.ended t (restReason (w.timer t)) .returned ∨
      (w.timer t).queue.peek ≠ none ∧ ∃ queue, w'.timer t = { w.timer t with queue := queue } := by
  cases h with
  | stop hempty hclosed => exact .inl ⟨hempty, hclosed, rfl, rfl⟩
  | discard head hpeek => exact .inr ⟨by simp [hpeek], _, timer_setTimer_same _ _ _⟩
  | retire head hfires | postpone head next queue hfires =>
    exact .inr ⟨by simp [hfires.peek], _, timer_setTimer_same _ _ _⟩

/-- A turn moves no clock, and does not turn to taking tasks or to calling them off. -/
theorem Turned.timer_eq (h : Turned t w fs w') :
    (w'.timer t).clock = (w.timer t).clock ∧ (w'.timer t).accepting = (w.timer t).accepting ∧
      (w'.timer t).cancelled = (w.timer t).cancelled := by
  rcases h.timer_cases with ⟨-, hclosed, -, rfl⟩ | ⟨-, queue, htimer⟩
  · rw [ended, timer_setTimer_same, hclosed]
    exact ⟨rfl, rfl, rfl⟩
  · rw [htimer]
    exact ⟨rfl, rfl, rfl⟩

theorem Turned.counts_eq (h : Turned t w fs w') :
    w'.taskCount = w.taskCount ∧ w'.timerCount = w.timerCount := by
  cases h <;> exact ⟨rfl, rfl⟩

/-- A turn fires a task as often as is due, and leaves all others as they are. -/
theorem Turned.exhausts (hc : Coupled w) (h : Turned t w fs w') {k : TaskRef} {y : Task}
    {gs : List (Firing TaskRef)}
    (later : Task.Exhausts k (w.timer t).clock.now (w'.task k) (gs.filter (·.task = k)) y) :
    Task.Exhausts k (w.timer t).clock.now (w.task k) ((fs ++ gs).filter (·.task = k)) y := by
  -- what the two ways to fire have in common
  have fire : ∀ {head : Entry TaskRef}, w.Fires t head → fs = [w.firing t head] →
      w'.task head.item = (w.task head.item).fired head.due (w.timer t).clock.now →
      (∀ j, j ≠ head.item → w'.task j = w.task j) →
      Task.Exhausts k (w.timer t).clock.now (w.task k) ((fs ++ gs).filter (·.task = k)) y := by
    rintro head hfires rfl hfired hothers
    have hmem := Queue.mem_of_peek hfires.peek
    rw [List.singleton_append, List.filter_cons]
    by_cases hk : head.item = k
    · subst hk
      rw [hfired] at later
      rw [if_pos (by simp [firing])]
      exact .fire ((hc.live t head hmem).resolve_right hfires.live) (hc.next t head hmem)
        hfires.due_le later
    · rw [hothers k (Ne.symm hk)] at later
      rw [if_neg (by simp [firing, hk])]
      exact later
  cases h with
  | stop | discard => exact later
  | retire head hfires honce =>
    exact fire hfires rfl (task_retire honce) fun j hj => task_setTask_of_ne _ hj _
  | postpone head next queue hfires hnext hqueue =>
    exact fire hfires rfl (task_postpone hnext) fun j hj => task_setTask_of_ne _ hj _

/-- A turn leaves a task as it is that is not both to run and queued. -/
theorem Turned.untouched (hc : Coupled w) (h : Turned t w fs w') {k : TaskRef}
    (hk : (w.task k).state = .scheduled → k ∉ w.queuedTasks t) :
    w'.task k = w.task k ∧ fs.filter (·.task = k) = [] := by
  -- what the two ways to fire have in common
  have fire : ∀ {head : Entry TaskRef}, w.Fires t head → head.item ≠ k := by
    rintro head hfires rfl
    have hmem := Queue.mem_of_peek hfires.peek
    exact hk ((hc.live t head hmem).resolve_right hfires.live) (List.mem_map_of_mem hmem)
  cases h with
  | stop | discard => exact ⟨rfl, rfl⟩
  | retire head hfires | postpone head next queue hfires =>
    exact ⟨task_setTask_of_ne _ (fire hfires).symm _, by simp [firing, fire hfires]⟩

/-! ## What is left in the queue -/

/-- From `w` to `w'` no task is scheduled anew, and of those that are scheduled the same ones are
queued. -/
structure Drains (t : TimerRef) (w w' : World) : Prop where
  scheduled : ∀ k, (w'.task k).state = .scheduled → (w.task k).state = .scheduled
  mem_iff : ∀ k, (w'.task k).state = .scheduled → (k ∈ w'.queuedTasks t ↔ k ∈ w.queuedTasks t)

theorem Drains.refl (t : TimerRef) (w : World) : Drains t w w := ⟨fun _ => id, fun _ _ => Iff.rfl⟩

theorem Drains.trans {w'' : World} (h : Drains t w w') (h' : Drains t w' w'') :
    Drains t w w'' where
  scheduled k hk := h.scheduled k (h'.scheduled k hk)
  mem_iff k hk := (h'.mem_iff k hk).trans (h.mem_iff k (h'.scheduled k hk))

theorem Turned.drains (h : Turned t w fs w') : Drains t w w' := by
  cases h with
  | stop hempty hclosed =>
    refine ⟨fun _ => id, fun k _ => iff_of_false ?_ (not_mem_queuedTasks_of_empty hempty k)⟩
    rw [queuedTasks, queued, ended, timer_setTimer_same]
    exact List.not_mem_nil
  | discard head hpeek hcancelled =>
    have holds : Holds t w (w.dropHead t) :=
      .of_dropHead rfl hpeek (by simp [dropHead, task_setTimer, hcancelled])
    exact ⟨fun _ => id, fun k hk => ⟨fun h => queuedTasks_dropHead hpeek t h, holds.queued k hk⟩⟩
  | retire head hfires honce =>
    have before : ∀ k, ((w.retire t head).task k).state = .scheduled →
        (w.task k).state = .scheduled := by
      intro k hk
      rw [World.retire, task_setTask] at hk
      split at hk
      · cases hk
      · exact hk
    have holds : Holds t w (w.retire t head) :=
      .of_dropHead rfl hfires.peek (by simp [World.retire])
    exact ⟨before, fun k hk =>
      ⟨fun h => queuedTasks_dropHead hfires.peek t h, holds.queued k hk⟩⟩
  | postpone head next queue hfires hnext hqueue =>
    have before : ∀ k, ((w.postpone t head next queue).task k).state = .scheduled →
        (w.task k).state = .scheduled := by
      intro k hk
      rw [World.postpone, task_setTask] at hk
      split at hk
      · next hj => exact hj ▸ hk
      · exact hk
    have holds : Holds t w (w.postpone t head next queue) :=
      .of_postponeMin rfl hfires.peek hqueue
    exact ⟨before, fun k hk =>
      ⟨fun h => queuedTasks_postponeMin hfires.peek hqueue t h, holds.queued k hk⟩⟩

/-! ## In the order of the deadlines -/

/-- What a turn fires, and what it leaves in the queue, is not due before all that was queued; and
what it fires is due no later than what it leaves. -/
theorem Turned.order (hc : Coupled w) (h : Turned t w fs w') :
    (∀ f ∈ fs, ∃ e ∈ w.queued t, e.due ≤ f.due) ∧
      (∀ f ∈ fs, ∀ e ∈ w'.queued t, f.due ≤ e.due) ∧
      ∀ e' ∈ w'.queued t, ∃ e ∈ w.queued t, e.due ≤ e'.due := by
  have dropped : ∀ {head : Entry TaskRef}, (w.timer t).queue.peek = some head →
      ∀ e ∈ (w.dropHead t).queued t, e ∈ w.queued t := by
    intro head hpeek e he
    rw [queued, dropHead, timer_setTimer_same] at he
    exact (Queue.toList_dropMin hpeek).mem_iff.2 (List.mem_cons_of_mem _ he)
  -- what the two ways to fire have in common
  have fire : ∀ {head : Entry TaskRef}, w.Fires t head → fs = [w.firing t head] →
      (∀ e ∈ w'.queued t, e ∈ w.queued t ∨ head.due ≤ e.due) →
      (∀ f ∈ fs, ∃ e ∈ w.queued t, e.due ≤ f.due) ∧
        (∀ f ∈ fs, ∀ e ∈ w'.queued t, f.due ≤ e.due) ∧
        ∀ e' ∈ w'.queued t, ∃ e ∈ w.queued t, e.due ≤ e'.due := by
    rintro head hfires rfl hqueued
    have hmem : head ∈ w.queued t := Queue.mem_of_peek hfires.peek
    have hafter : ∀ e ∈ w'.queued t, head.due ≤ e.due := fun e he =>
      (hqueued e he).elim (fun hold => (hc.isHeap t).due_le hfires.peek hold) id
    simp only [List.mem_singleton, forall_eq]
    exact ⟨⟨head, hmem, Std.le_refl _⟩, hafter, fun e he => ⟨head, hmem, hafter e he⟩⟩
  cases h with
  | stop hempty hclosed =>
    have hnone : (w.ended t (restReason (w.timer t)) .returned).queued t = [] := by
      rw [queued, ended, timer_setTimer_same]
      rfl
    simp [hnone]
  | discard head hpeek hcancelled =>
    exact ⟨by simp, by simp, fun e he => ⟨e, dropped hpeek e he, Std.le_refl _⟩⟩
  | retire head hfires honce => exact fire hfires rfl fun e he => .inl (dropped hfires.peek e he)
  | postpone head next queue hfires hnext hqueue =>
    obtain ⟨rest, hrest, hcontent⟩ := Queue.toList_postponeMin hfires.peek hqueue
    refine fire hfires rfl fun e he => ?_
    have hmem : e ∈ ((w.setTimer t { w.timer t with queue := queue }).timer t).queue.toList := he
    rw [timer_setTimer_same] at hmem
    rcases List.mem_cons.1 (hcontent.mem_iff.1 hmem) with rfl | hold
    · exact .inr (Period.le_of_next? hnext hfires.due_le)
    · exact .inl (by rw [queued, hrest]; exact List.mem_cons_of_mem _ hold)

/-- A turn fires one task at most. -/
theorem Turned.sorted (h : Turned t w fs w') : (fs.map (·.due)).Pairwise (· ≤ ·) := by
  cases h <;> simp

/-! ## The end of the thread -/

/-- A task is left that is to run, or one may still come. -/
def Pending (w : World) (t : TimerRef) : Prop :=
  (w.timer t).accepting = true ∨ ∃ k ∈ w.queuedTasks t, (w.task k).state = .scheduled

/-- Every task that is scheduled waits in the queue of `t`. -/
def AllQueued (w : World) (t : TimerRef) : Prop :=
  ∀ k, (w.task k).state = .scheduled → k ∈ w.queuedTasks t

end World

namespace System

variable {t : TimerRef} {s s' : System} {fs : List (Firing TaskRef)}

/-! ## Settling -/

theorem Unoccupied.coupled (h : Unoccupied t s) : Coupled s.world := by
  obtain ⟨acts, rfl⟩ := h.reachable
  exact coupled_after acts

/-- A timer that is off has nothing queued and takes nothing. -/
theorem Unoccupied.of_off (h : Unoccupied t s) (hoff : (s.world.timer t).Off) :
    s.world.queued t = [] ∧ (s.world.timer t).accepting = false := by
  obtain ⟨acts, rfl⟩ := h.reachable
  exact off_after hoff

/-- The thread of a timer that takes tasks has not ended. -/
theorem Unoccupied.going (h : Unoccupied t s) (hopen : (s.world.timer t).accepting = true) :
    (s.world.timer t).stage = .going := by
  refine h.present.resolve_right fun hended => ?_
  rw [(h.of_off (.inr hended)).2] at hopen
  cases hopen

/-- A thread in its loop has recorded nothing. -/
theorem Unoccupied.shutdown_eq_none (h : Unoccupied t s)
    (hgoing : (s.world.timer t).stage = .going) : (s.world.timer t).shutdown = none := by
  obtain ⟨acts, rfl⟩ := h.reachable
  exact (told_after acts t).shutdown_eq_none (by rw [hgoing]; rfl)

/-- As long as the only timer is not off, all that is scheduled waits in its queue. -/
theorem Attended.allQueued (h : Attended t s) (hon : ¬ (s.world.timer t).Off) :
    s.world.AllQueued t := by
  obtain ⟨acts, rfl⟩ := h.reachable
  intro k hk
  obtain ⟨u, haccepted⟩ := acceptedBy_of_used (.inl hk)
  have hretained := retained_after u acts
  obtain rfl := h.only u (hretained.known k haccepted)
  refine hretained.queued ⟨Bool.eq_false_iff.2 fun hmark => hon (.inl hmark), ?_⟩ k haccepted hk
  intro reason hended
  exact absurd (.inr (by simp [hended])) hon

/-- No task that is to run and queued is due. -/
def Quiet (t : TimerRef) (s : System) : Prop :=
  ∀ k ∈ s.world.queuedTasks t, (s.world.task k).state = .scheduled →
    ∀ due, (s.world.task k).next = some due → (s.world.timer t).clock.now < due

/-- Where a thread has settled, nothing is due. -/
theorem Unoccupied.quiet (hs : s.Unoccupied t) (hsettled : s.Settled t) : s.Quiet t := by
  intro k hk hscheduled due hdue
  obtain ⟨e, he, rfl⟩ := List.mem_map.1 hk
  obtain rfl : e.due = due := Option.some.inj ((hs.coupled.next t e he).symm.trans hdue)
  rcases hsettled with hended | hrests
  · rw [(hs.of_off (.inr hended)).1] at he
    cases he
  · exact hrests.now_lt hs.coupled e he

/-- Then nothing that is queued is left to fire. -/
theorem Quiet.exhausts (h : s.Quiet t) {k : TaskRef}
    (hk : (s.world.task k).state = .scheduled → k ∈ s.world.queuedTasks t) :
    Task.Exhausts k (s.world.timer t).clock.now (s.world.task k) [] (s.world.task k) :=
  .rest fun hs due hdue => h k (hk hs) hs due hdue

namespace Settles

theorem timer_eq (h : Settles t s fs s') :
    (s'.world.timer t).clock = (s.world.timer t).clock ∧
      (s'.world.timer t).accepting = (s.world.timer t).accepting ∧
      (s'.world.timer t).cancelled = (s.world.timer t).cancelled := by
  induction h with
  | rest => exact ⟨rfl, rfl, rfl⟩
  | turn busy turned later ih =>
    obtain ⟨hclock, haccepting, hcancelled⟩ := turned.timer_eq
    exact ⟨ih.1.trans hclock, ih.2.1.trans haccepting, ih.2.2.trans hcancelled⟩

theorem counts_eq (h : Settles t s fs s') :
    s'.world.taskCount = s.world.taskCount ∧ s'.world.timerCount = s.world.timerCount := by
  induction h with
  | rest => exact ⟨rfl, rfl⟩
  | turn busy turned later ih =>
    obtain ⟨htasks, htimers⟩ := turned.counts_eq
    exact ⟨ih.1.trans htasks, ih.2.trans htimers⟩

theorem drains (h : Settles t s fs s') : World.Drains t s.world s'.world := by
  induction h with
  | rest => exact .refl t _
  | turn busy turned later ih => exact turned.drains.trans ih

/-- Settling fires each task that is queued as often as is due. -/
theorem exhausts (h : Settles t s fs s') (hu : Unoccupied t s) {k : TaskRef}
    (hk : (s.world.task k).state = .scheduled → k ∈ s.world.queuedTasks t) :
    Task.Exhausts k (s.world.timer t).clock.now (s.world.task k) (fs.filter (·.task = k))
      (s'.world.task k) := by
  induction h with
  | rest settled => exact (hu.quiet settled).exhausts hk
  | turn busy turned later ih =>
    have rest := ih hu.turnOver fun hs =>
      (turned.drains.mem_iff k hs).2 (hk (turned.drains.scheduled k hs))
    rw [turned.timer_eq.1] at rest
    exact turned.exhausts hu.coupled rest

/-- All other tasks stay as they are. -/
theorem untouched (h : Settles t s fs s') (hu : Unoccupied t s) {k : TaskRef}
    (hk : (s.world.task k).state = .scheduled → k ∉ s.world.queuedTasks t) :
    s'.world.task k = s.world.task k ∧ fs.filter (·.task = k) = [] := by
  induction h with
  | rest => exact ⟨rfl, rfl⟩
  | turn busy turned later ih =>
    obtain ⟨hsame, hnone⟩ := turned.untouched hu.coupled hk
    obtain ⟨hsame', hnone'⟩ := ih hu.turnOver fun hs hmem =>
      hk (turned.drains.scheduled k hs) ((turned.drains.mem_iff k hs).1 hmem)
    exact ⟨hsame'.trans hsame, by rw [List.filter_append, hnone, hnone', List.append_nil]⟩

/-- Settling fires nothing that is due before all that was queued. -/
theorem exists_due_le (h : Settles t s fs s') (hu : Unoccupied t s) :
    ∀ f ∈ fs, ∃ e ∈ s.world.queued t, e.due ≤ f.due := by
  induction h with
  | rest => simp
  | turn busy turned later ih =>
    obtain ⟨hfired, -, hleft⟩ := turned.order hu.coupled
    intro f hf
    rcases List.mem_append.1 hf with hf | hf
    · exact hfired f hf
    · obtain ⟨e', he', hle'⟩ := ih hu.turnOver f hf
      obtain ⟨e, he, hle⟩ := hleft e' he'
      exact ⟨e, he, Std.le_trans hle hle'⟩

/-- Settling fires in the order of the deadlines. -/
theorem sorted (h : Settles t s fs s') (hu : Unoccupied t s) :
    (fs.map (·.due)).Pairwise (· ≤ ·) := by
  induction h with
  | rest => exact .nil
  | turn busy turned later ih =>
    rw [List.map_append, List.pairwise_append]
    refine ⟨turned.sorted, ih hu.turnOver, ?_⟩
    simp only [List.mem_map, forall_exists_index, and_imp, forall_apply_eq_imp_iff₂]
    intro f hf g hg
    obtain ⟨e, he, hle⟩ := later.exists_due_le hu.turnOver g hg
    exact Std.le_trans ((turned.order hu.coupled).2.1 f hf e he) hle

/-- A thread that had ended stays as it is. -/
theorem of_ended (h : Settles t s fs s') (hended : (s.world.timer t).shutdown ≠ none) :
    fs = [] ∧ s' = s := by
  cases h with
  | rest => exact ⟨rfl, rfl⟩
  | turn busy => exact absurd (.inl hended) busy

/-- The thread goes on as long as a task is left or may come. -/
theorem shutdown_cases (h : Settles t s fs s') (hu : Unoccupied t s)
    (hgoing : (s.world.timer t).stage = .going) :
    (s'.world.timer t).stage = .going ∧ (s'.world.timer t).shutdown = none ∧
        s'.world.Pending t ∨
      (s'.world.timer t).stage = .returned ∧
        (s'.world.timer t).shutdown = some (World.restReason (s'.world.timer t)) ∧
        ¬ s'.world.Pending t := by
  induction h with
  | rest settled =>
    have hnone := hu.shutdown_eq_none hgoing
    obtain ⟨-, -, due, hwait⟩ := settled.resolve_left (absurd hnone ·)
    refine .inl ⟨hgoing, hnone, ?_⟩
    rcases World.work_wait_iff.1 hwait with ⟨-, -, hopen⟩ | ⟨head, -, hpeek, hlive, -⟩
    · exact .inl hopen
    · have hmem := Queue.mem_of_peek hpeek
      exact .inr ⟨head.item, List.mem_map_of_mem hmem,
        (hu.coupled.live t head hmem).resolve_right hlive⟩
  | turn busy turned later ih =>
    rcases turned.timer_cases with ⟨hempty, hclosed, -, hworld⟩ | ⟨-, queue, htimer⟩
    · obtain ⟨-, rfl⟩ := later.of_ended (by rw [hworld, World.ended]; simp)
      rw [hworld, World.Pending, World.queuedTasks, World.queued, World.ended,
        World.timer_setTimer_same]
      refine .inr ⟨rfl, rfl, ?_⟩
      rintro (hopen | ⟨k, hk, -⟩)
      · cases hopen
      · cases hk
    · refine ih hu.turnOver ?_
      rw [htimer, hgoing]

end Settles

end System

end TaskTimer
