/-
TaskTimer.Proofs.Run.Retention — an accepted task stays queued until it is done.

Entries leave a queue in several ways: the task fires for the last time, it was called off and
its turn comes, it is called off while it fires, or a purge takes it out. In each of them the
task is executed or called off by then. Only `cancelAll` and the end of the thread by a body drop
tasks that are still to run (`Timer.Keeps`). A thread that ends for want of work finds its queue
empty, so all that was ever accepted is done, and until it has recorded that nothing more is
accepted (`Retained.drained`).
-/
import TaskTimer.Proofs.Run.Record

namespace TaskTimer

/-- The tasks of a timer were not called off all at once, and no body ended its thread. -/
def Timer.Keeps (x : Timer) : Prop :=
  x.cancelled = false ∧ ∀ reason, x.shutdown = some reason → reason.error? = none

/-- Whether the log shows that `t` accepted the task `k`. -/
def AcceptedBy (t : TimerRef) (log : List Event) (k : TaskRef) : Prop :=
  ∃ period newHead, .scheduled t k period newHead ∈ log

theorem AcceptedBy.append {t : TimerRef} {log : List Event} {k : TaskRef}
    (h : AcceptedBy t log k) (events : List Event) : AcceptedBy t (log ++ events) k := by
  obtain ⟨p, b, hmem⟩ := h
  exact ⟨p, b, List.mem_append_left _ hmem⟩

theorem AcceptedBy.of_append {t : TimerRef} {log events : List Event} {k : TaskRef}
    (h : AcceptedBy t (log ++ events) k) (hevents : ∀ p b, .scheduled t k p b ∉ events) :
    AcceptedBy t log k := by
  obtain ⟨p, b, hmem⟩ := h
  exact ⟨p, b, (List.mem_append.1 hmem).resolve_right (hevents p b)⟩

/-- The tasks that a timer has queued. -/
def World.queuedTasks (w : World) (t : TimerRef) : List TaskRef := (w.queued t).map (·.item)

theorem World.not_mem_queuedTasks_of_empty {w : World} {t : TimerRef}
    (hempty : (w.timer t).queue.peek = none) (k : TaskRef) : k ∉ w.queuedTasks t := by
  rw [World.queuedTasks, World.queued, Queue.peek_eq_none_iff.1 hempty]
  exact List.not_mem_nil

/-- What `t` accepted is queued or done. -/
structure Retained (t : TimerRef) (w : World) (log : List Event) : Prop where
  known : ∀ k, AcceptedBy t log k → w.HasTimer t
  queued : (w.timer t).Keeps → ∀ k, AcceptedBy t log k →
    (w.task k).state = .scheduled → k ∈ w.queuedTasks t
  marked : (w.timer t).EndsFor .cancelled → (w.timer t).cancelled = true
  closed : (w.timer t).EndsFor .drained → (w.timer t).accepting = false
  drained : (w.timer t).EndsFor .drained → ∀ k, AcceptedBy t log k →
    (w.task k).state.isTerminal = true

/-- From `w` to `w'` the timer `t` loses no task that is still to run, and its flags stay. -/
structure Holds (t : TimerRef) (w w' : World) : Prop where
  cancelled : (w'.timer t).cancelled = (w.timer t).cancelled
  stage : (w'.timer t).stage = (w.timer t).stage
  shutdown : (w'.timer t).shutdown = (w.timer t).shutdown
  accepting : (w.timer t).accepting = false → (w'.timer t).accepting = false
  queued : ∀ k, (w'.task k).state = .scheduled → k ∈ w.queuedTasks t → k ∈ w'.queuedTasks t

namespace Holds

variable {t u : TimerRef} {w w' : World}

/-- The timer `t` is the same. -/
theorem of_timer_eq (h : w'.timer t = w.timer t) : Holds t w w' where
  cancelled := by rw [h]
  stage := by rw [h]
  shutdown := by rw [h]
  accepting := by simp [h]
  queued k _ hk := by rwa [World.queuedTasks, World.queued, h]

/-- The timer `u`, which may be `t`, loses none that is still to run. -/
theorem of_setTimer {x : Timer} (hw : w'.timer t = (w.setTimer u x).timer t)
    (hcancelled : x.cancelled = (w.timer u).cancelled) (hstage : x.stage = (w.timer u).stage)
    (hshutdown : x.shutdown = (w.timer u).shutdown)
    (haccepting : (w.timer u).accepting = false → x.accepting = false)
    (hqueued : ∀ k, (w'.task k).state = .scheduled → k ∈ w.queuedTasks u →
      k ∈ x.queue.toList.map (·.item)) : Holds t w w' := by
  by_cases hu : t = u
  · subst hu
    rw [World.timer_setTimer_same] at hw
    constructor
    · rw [hw, hcancelled]
    · rw [hw, hstage]
    · rw [hw, hshutdown]
    · rw [hw]
      exact haccepting
    · rw [World.queuedTasks, World.queued, World.queuedTasks, World.queued, hw]
      exact hqueued
  · rw [World.timer_setTimer_of_ne w hu] at hw
    exact of_timer_eq hw

/-- The head leaves, and its task is not to run any more. -/
theorem of_dropHead {head : Entry TaskRef} (hw : w'.timer t = (w.dropHead u).timer t)
    (hpeek : (w.timer u).queue.peek = some head) (hdone : (w'.task head.item).state ≠ .scheduled) :
    Holds t w w' := by
  refine of_setTimer hw rfl rfl rfl id fun k hk hmem => ?_
  have hsplit := ((Queue.toList_dropMin hpeek).map (·.item)).mem_iff.1 hmem
  rcases List.mem_cons.1 hsplit with rfl | hrest
  · exact absurd hk hdone
  · exact hrest

theorem of_purge (hw : w'.timer t = (w.setTimer u
      { w.timer u with queue := ((w.timer u).queue.purge w.isCancelled).2 }).timer t)
    (htask : ∀ k, w'.task k = w.task k) : Holds t w w' := by
  refine of_setTimer hw rfl rfl rfl id fun k hk hmem => ?_
  obtain ⟨e, he, rfl⟩ := List.mem_map.1 hmem
  refine List.mem_map.2 ⟨e, (Queue.purge_perm _ _).2.mem_iff.2 (List.mem_filter.2 ⟨he, ?_⟩), rfl⟩
  rw [htask] at hk
  simp [World.isCancelled, hk]

theorem endsFor_iff (h : Holds t w w') (reason : Shutdown TaskRef) :
    (w'.timer t).EndsFor reason ↔ (w.timer t).EndsFor reason := by
  rw [Timer.EndsFor, Timer.EndsFor, h.stage, h.shutdown]

/-- The head gets another deadline. -/
theorem of_postponeMin {head : Entry TaskRef} {next : Instant} {queue : Queue TaskRef}
    (hw : w'.timer t = (w.setTimer u { w.timer u with queue := queue }).timer t)
    (hpeek : (w.timer u).queue.peek = some head)
    (hqueue : (w.timer u).queue.postponeMin next = .ok queue) : Holds t w w' := by
  refine of_setTimer hw rfl rfl rfl id fun k hk hmem => ?_
  obtain ⟨rest, hrest, hcontent⟩ := Queue.toList_postponeMin hpeek hqueue
  rw [World.queuedTasks, World.queued, hrest] at hmem
  exact (hcontent.map (·.item)).mem_iff.2 hmem

end Holds

namespace Retained

variable {t : TimerRef} {w : World} {log : List Event}

theorem start (t : TimerRef) : Retained t .empty [] where
  known k hk := by simp [AcceptedBy] at hk
  queued _ k hk := by simp [AcceptedBy] at hk
  marked h := by rcases h with h | h <;> cases h
  closed h := by rcases h with h | h <;> cases h
  drained _ k hk := by simp [AcceptedBy] at hk

/-- Nothing is accepted, nothing is lost, and a task changes its state only to be done. -/
theorem hold (h : Retained t w log) {w' : World} {events : List Event} (holds : Holds t w w')
    (hcount : w.timerCount ≤ w'.timerCount)
    (haccepted : ∀ k, AcceptedBy t (log ++ events) k → AcceptedBy t log k)
    (hstate : ∀ k, AcceptedBy t log k →
      (w'.task k).state = (w.task k).state ∨ (w'.task k).state.isTerminal = true) :
    Retained t w' (log ++ events) where
  known k hk := Nat.lt_of_lt_of_le (h.known k (haccepted k hk)) hcount
  queued hkeeps k hk hs := by
    rw [Timer.Keeps, holds.cancelled, holds.shutdown] at hkeeps
    refine holds.queued k hs (h.queued hkeeps k (haccepted k hk) ?_)
    rcases hstate k (haccepted k hk) with heq | hdone
    · rw [← heq, hs]
    · rw [hs] at hdone
      cases hdone
  marked hends := by
    rw [holds.cancelled]
    exact h.marked ((holds.endsFor_iff _).1 hends)
  closed hends := holds.accepting (h.closed ((holds.endsFor_iff _).1 hends))
  drained hends k hk := by
    rcases hstate k (haccepted k hk) with heq | hdone
    · rw [heq]
      exact h.drained ((holds.endsFor_iff _).1 hends) k (haccepted k hk)
    · exact hdone

/-- The tasks of a timer that has to keep them and has none queued are done. -/
theorem isTerminal_of_empty (h : Retained t w log) (hr : Recorded w log)
    (hkeeps : (w.timer t).Keeps) (hempty : (w.timer t).queue.peek = none) {k : TaskRef}
    (hk : AcceptedBy t log k) : (w.task k).state.isTerminal = true := by
  obtain ⟨p, b, hmem⟩ := hk
  cases hs : (w.task k).state with
  | executed | cancelled => rfl
  | created => exact absurd hs ((hr.task k).accepted t p b hmem).2
  | scheduled =>
    exact absurd (h.queued hkeeps k ⟨p, b, hmem⟩ hs) (World.not_mem_queuedTasks_of_empty hempty k)

theorem startTimer (h : Retained t w log) (clock : Clock) :
    Retained t { w.setTimer ⟨w.timerCount⟩ { clock := clock } with timerCount := w.timerCount + 1 }
      (log ++ [.threadStarted ⟨w.timerCount⟩]) := by
  have haccepted : ∀ k, AcceptedBy t (log ++ [.threadStarted ⟨w.timerCount⟩]) k →
      AcceptedBy t log k := fun k hk => hk.of_append (by simp)
  by_cases ht : t = ⟨w.timerCount⟩
  · -- nothing was accepted by a timer that did not exist
    have hnone : ∀ k, ¬ AcceptedBy t log k := fun k hk => by
      have hlt := h.known k hk
      rw [ht] at hlt
      exact Nat.lt_irrefl _ hlt
    have hgoing : ∀ reason,
        ¬ ((w.setTimer ⟨w.timerCount⟩ { clock := clock }).timer t).EndsFor reason := by
      rw [ht, World.timer_setTimer_same]
      rintro reason (hleaving | hended)
      · cases hleaving
      · cases hended
    constructor
    · exact fun k hk => absurd (haccepted k hk) (hnone k)
    · exact fun _ k hk => absurd (haccepted k hk) (hnone k)
    · exact fun hends => absurd hends (hgoing _)
    · exact fun hends => absurd hends (hgoing _)
    · exact fun _ k hk => absurd (haccepted k hk) (hnone k)
  · refine h.hold (.of_timer_eq ?_) (Nat.le_succ _) haccepted fun k _ => .inl rfl
    exact World.timer_setTimer_of_ne w ht _

/-- What is accepted is queued. -/
theorem enqueue (h : Retained t w log) (hr : Recorded w log) {u : TimerRef} {k : TaskRef}
    (hu : w.HasTimer u) (hopen : (w.timer u).accepting = true)
    (hnew : (w.task k).state = .created) (due : Instant) (period : Period) (newHead : Bool) :
    Retained t (w.enqueue u k due period) (log ++ [.scheduled u k period newHead]) := by
  have hother : ∀ j, AcceptedBy t log j → j ≠ k := by
    rintro j ⟨p, b, hmem⟩ rfl
    exact ((hr.task j).accepted t p b hmem).2 hnew
  have hstate : ∀ j, AcceptedBy t log j →
      ((w.enqueue u k due period).task j).state = (w.task j).state := by
    intro j hj
    show ((w.setTask k _).task j).state = _
    rw [World.task_setTask_of_ne w (hother j hj)]
  by_cases ht : t = u
  · subst ht
    have htimer : (w.enqueue t k due period).timer t =
        { w.timer t with queue := (w.timer t).queue.push due k } := World.timer_setTimer_same _ _ _
    have hgoing : ¬ (w.timer t).EndsFor .drained := by
      intro hends
      rw [h.closed hends] at hopen
      cases hopen
    have hqueued : ∀ j, j ∈ (w.enqueue t k due period).queuedTasks t ↔
        j = k ∨ j ∈ w.queuedTasks t := by
      intro j
      rw [World.queuedTasks, World.queued, htimer,
        ((Queue.toList_push (w.timer t).queue due k).map (·.item)).mem_iff, List.map_cons,
        List.mem_cons]
      rfl
    constructor
    · exact fun _ _ => hu
    · rintro hkeeps j ⟨p, b, hmem⟩ hs
      rw [htimer] at hkeeps
      rw [hqueued]
      by_cases hj : j = k
      · exact .inl hj
      · have hold : AcceptedBy t log j := by
          refine AcceptedBy.of_append ⟨p, b, hmem⟩ fun p b hmem => hj ?_
          simp_all
        rw [hstate j hold] at hs
        exact .inr (h.queued hkeeps j hold hs)
    · rw [htimer]
      exact h.marked
    · rw [htimer]
      exact fun hends => absurd hends hgoing
    · rw [htimer]
      exact fun hends => absurd hends hgoing
  · refine h.hold ?_ (Nat.le_refl _) (fun j hj => hj.of_append ?_) fun j hj => .inl (hstate j hj)
    · exact .of_timer_eq (World.timer_setTimer_of_ne _ ht _)
    · intro p b hmem
      simp_all

/-- Calling off all tasks of a timer is why it need not keep them. -/
theorem cancelAll (h : Retained t w log) (u : TimerRef) {events : List Event}
    (hevents : events = [] ∨ ∃ n, events = [.timerCancelled u n]) :
    Retained t
      (w.setTimer u { w.timer u with queue := .empty, accepting := false, cancelled := true })
      (log ++ events) := by
  have haccepted : ∀ k, AcceptedBy t (log ++ events) k → AcceptedBy t log k := by
    refine fun k hk => hk.of_append fun p b => ?_
    rcases hevents with rfl | ⟨n, rfl⟩ <;> simp
  by_cases ht : t = u
  · subst ht
    constructor
    · exact fun k hk => h.known k (haccepted k hk)
    · intro hkeeps
      rw [World.timer_setTimer_same] at hkeeps
      cases hkeeps.1
    · rw [World.timer_setTimer_same]
      exact fun _ => rfl
    · rw [World.timer_setTimer_same]
      exact fun _ => rfl
    · rw [World.timer_setTimer_same]
      exact fun hends k hk => h.drained hends k (haccepted k hk)
  · exact h.hold (.of_timer_eq (World.timer_setTimer_of_ne w ht _)) (Nat.le_refl _) haccepted
      fun k _ => .inl rfl

/-- A thread leaves its loop. -/
theorem leave (h : Retained t w log) (u : TimerRef) (stage : Stage)
    (hmarked : u = t → stage = .leaving .cancelled → (w.timer t).cancelled = true)
    (hclosed : u = t → stage = .leaving .drained → (w.timer t).accepting = false)
    (hdone : u = t → stage = .leaving .drained →
      ∀ k, AcceptedBy t log k → (w.task k).state.isTerminal = true) :
    Retained t (w.setStage u stage) (log ++ []) := by
  rw [List.append_nil]
  by_cases ht : t = u
  · subst ht
    have htimer : (w.setStage t stage).timer t = { w.timer t with stage := stage } :=
      World.timer_setTimer_same _ _ _
    constructor
    · exact h.known
    · rw [World.queuedTasks, World.queued, htimer]
      exact h.queued
    · rw [htimer]
      rintro (hleaving | hended)
      · exact hmarked rfl hleaving
      · exact h.marked (.inr hended)
    · rw [htimer]
      rintro (hleaving | hended)
      · exact hclosed rfl hleaving
      · exact h.closed (.inr hended)
    · rw [htimer]
      rintro (hleaving | hended)
      · exact hdone rfl hleaving
      · exact h.drained (.inr hended)
  · have kept : Retained t (w.setStage u stage) (log ++ []) :=
      h.hold (.of_timer_eq (World.timer_setTimer_of_ne w ht _)) (Nat.le_refl _)
        (fun k hk => hk.of_append (by simp)) fun k _ => .inl rfl
    rwa [List.append_nil] at kept

/-- The end of a thread drops what is queued: nothing, if it ends for want of work. -/
theorem ended (h : Retained t w log) (u : TimerRef) {reason : Shutdown TaskRef}
    (hleaving : (w.timer u).stage = .leaving reason) {stage : Stage}
    (hstage : stage.reason? = none) {events : List Event}
    (hevents : events = [] ∨ ∃ n, events = [.threadEnded u reason n]) :
    Retained t (w.ended u reason stage) (log ++ events) := by
  have haccepted : ∀ k, AcceptedBy t (log ++ events) k → AcceptedBy t log k := by
    refine fun k hk => hk.of_append fun p b => ?_
    rcases hevents with rfl | ⟨n, rfl⟩ <;> simp
  by_cases ht : t = u
  · subst ht
    have htimer : (w.ended t reason stage).timer t =
        { w.timer t with
          queue := .empty, accepting := false, shutdown := some reason, stage := stage } :=
      World.timer_setTimer_same _ _ _
    have before : ∀ {reason'}, ((w.ended t reason stage).timer t).EndsFor reason' →
        reason = reason' := by
      rw [htimer]
      rintro reason' (hagain | hended)
      · simp only at hagain
        rw [hagain] at hstage
        cases hstage
      · exact Option.some.inj hended
    constructor
    · exact fun k hk => h.known k (haccepted k hk)
    · intro hkeeps k hk hs
      rw [htimer] at hkeeps
      have hs' : (w.task k).state = .scheduled := hs
      have herror := hkeeps.2 reason rfl
      cases reason with
      | cancelled =>
        have hunmarked := hkeeps.1
        rw [h.marked (.inl hleaving)] at hunmarked
        cases hunmarked
      | drained =>
        have hterminal := h.drained (.inl hleaving) k (haccepted k hk)
        rw [hs'] at hterminal
        cases hterminal
      | taskFailed | panicked => cases herror
    · intro hends
      obtain rfl := before hends
      rw [htimer]
      exact h.marked (.inl hleaving)
    · rw [htimer]
      exact fun _ => rfl
    · intro hends k hk
      obtain rfl := before hends
      exact h.drained (.inl hleaving) k (haccepted k hk)
  · exact h.hold (.of_timer_eq (World.timer_setTimer_of_ne w ht _)) (Nat.le_refl _) haccepted
      fun k _ => .inl rfl

theorem change {a : Action} {w' : World} {events : List Event} (h : Retained t w log)
    (hr : Recorded w log) (htold : (w.timer t).Told) (c : Change a w events w') :
    Retained t w' (log ++ events) := by
  have none_new : ∀ {events : List Event}, (∀ k p b, .scheduled t k p b ∉ events) →
      ∀ k, AcceptedBy t (log ++ events) k → AcceptedBy t log k :=
    fun hevents k hk => hk.of_append (hevents k)
  cases c with
  | newTask =>
    exact h.hold (.of_timer_eq rfl) (Nat.le_refl _) (none_new (by simp)) fun k _ =>
      .inl (congrArg Task.state (hr.task_newTask k))
  | startTimer clock ha => exact h.startTimer clock
  | setClock u clock ha ht =>
    refine h.hold ?_ (Nat.le_refl _) (none_new (by simp)) fun k _ => .inl rfl
    exact .of_setTimer (x := { w.timer u with clock := clock }) rfl rfl rfl rfl id fun k _ hk => hk
  | reject u k =>
    exact h.hold (.of_timer_eq rfl) (Nat.le_refl _) (none_new (by simp)) fun k _ => .inl rfl
  | accept u k due period newHead ht hk hopen hnew hdue =>
    exact h.enqueue hr ht hopen hnew due period newHead
  | cancel k hk hopen =>
    refine h.hold (.of_timer_eq rfl) (Nat.le_refl _) (none_new (by simp)) fun j _ => ?_
    rw [World.task_setTask]
    split
    · exact .inr rfl
    · exact .inl rfl
  | cancelAll u events ha ht hevents => exact h.cancelAll u hevents
  | close u n ht =>
    refine h.hold ?_ (Nat.le_refl _) (none_new (by simp)) fun k _ => .inl rfl
    exact .of_setTimer (x := { w.timer u with accepting := false }) rfl rfl rfl rfl (fun _ => rfl)
      fun k _ hk => hk
  | purge u events ht hevents =>
    refine h.hold (.of_purge rfl fun _ => rfl) (Nat.le_refl _) (none_new fun k p b => ?_)
      fun k _ => .inl rfl
    rcases hevents with rfl | ⟨n, rfl⟩ <;> simp
  | discard u head ht hpeek hcancelled =>
    refine h.hold (.of_dropHead rfl hpeek ?_) (Nat.le_refl _) (none_new (by simp))
      fun k _ => .inl rfl
    show (w.task head.item).state ≠ .scheduled
    simp [hcancelled]
  | retire u head interim ha hfires honce =>
    have hstate : ((w.retire u head).task head.item).state = .executed := by simp [World.retire]
    refine h.hold (.of_dropHead rfl hfires.peek ?_) (Nat.le_refl _) (none_new (by simp)) ?_
    · simp [hstate]
    · intro k _
      by_cases hk : k = head.item
      · rw [hk, hstate]
        exact .inr rfl
      · exact .inl (congrArg Task.state (World.task_setTask_of_ne _ hk _))
  | postpone u head interim next queue ha hfires hnext hqueue =>
    refine h.hold (.of_postponeMin rfl hfires.peek hqueue) (Nat.le_refl _) (none_new (by simp)) ?_
    intro k _
    refine .inl ?_
    rw [World.postpone, World.task_setTask]
    split
    · next hk => rw [hk]
    · rfl
  | rest u interim ha ht hgoing hempty hclosed =>
    refine h.leave u _ ?_ ?_ ?_
    · rintro rfl hreason
      by_contra hunmarked
      simp [World.restReason, hunmarked] at hreason
    · rintro rfl -
      exact hclosed
    · rintro rfl hreason k hk
      have hnone := htold.shutdown_eq_none (by rw [hgoing]; rfl)
      refine h.isTerminal_of_empty hr ⟨?_, by simp [hnone]⟩ hempty hk
      by_contra hmarked
      simp [World.restReason, hmarked] at hreason
  | fail u ending k stage ha ht hgoing hexit =>
    -- a body never says that there was nothing left to do
    have herror : ∀ {reason : Shutdown TaskRef}, stage = .leaving reason → reason.error? ≠ none :=
      fun hstage => Ending.error_of_exit (hstage ▸ hexit)
    refine h.leave u stage ?_ ?_ ?_
    · exact fun _ hstage => absurd rfl (herror hstage)
    · exact fun _ hstage => absurd rfl (herror hstage)
    · exact fun _ hstage => absurd rfl (herror hstage)
  | record u bursts reason events ha ht hleaving hevents =>
    refine h.ended u hleaving ?_ hevents
    cases bursts <;> rfl

end Retained

namespace System

variable {t : TimerRef} {acts : List Action}

theorem retained_after (t : TimerRef) (acts : List Action) :
    Retained t (after acts).world (after acts).log := by
  have both := keep_after_recorded
    (P := fun w log => (∀ u, (w.timer u).Told) ∧ Retained t w log)
    ⟨fun _ => .start rfl rfl, Retained.start t⟩
    (fun _ hr h c => ⟨Timer.Told.change h.1 c, h.2.change hr (h.1 t) c⟩) acts
  exact both.2

/-- What is to be executed, or has been, was accepted by a timer. -/
theorem acceptedBy_of_used {k : TaskRef}
    (hk : ((after acts).world.task k).state = .scheduled ∨
      0 < ((after acts).world.task k).executions) : ∃ u, AcceptedBy u (after acts).log k := by
  refine keep_records
    (P := fun k x log => x.state = .scheduled ∨ 0 < x.executions → ∃ u, AcceptedBy u log k)
    (fun k hk => by rcases hk with hk | hk <;> cases hk)
    (fun {k x y log events} _ h c hy => ?_) acts k hk
  have old : x.state = .scheduled ∨ 0 < x.executions →
      ∃ u, AcceptedBy u (log ++ events) k := by
    intro hx
    obtain ⟨u, hu⟩ := h hx
    exact ⟨u, hu.append events⟩
  cases c with
  | other => exact old hy
  | accept t due period newHead => exact ⟨t, period, newHead, by simp⟩
  | cancel => exact old (.inr (by simpa using hy))
  | retire t f hk hlive | postpone t f next hk hlive => exact old (.inl hlive)

/-- The mark that all tasks were called off stands for a call. -/
theorem cancelAll_mem (h : ((after acts).world.timer t).cancelled = true) :
    .cancelAll t ∈ acts := by
  refine after_induction
    (P := fun acts s => (s.world.timer t).cancelled = true → .cancelAll t ∈ acts)
    (fun h => by cases h) (fun acts a ih => ?_) acts h
  refine keep_next (P := fun w _ => (w.timer t).cancelled = true → .cancelAll t ∈ acts ++ [a])
    (fun hw c hmark => ?_) fun hmark => List.mem_append_left _ (ih hmark)
  rcases c.cancelled_cases hmark with hbefore | rfl
  · exact hw hbefore
  · simp

/-- An error for which a thread ends stands for a body that ended with it. -/
theorem finish_mem {reason : Shutdown TaskRef} (herror : reason.error? ≠ none)
    (h : ((after acts).world.timer t).EndsFor reason) :
    ∃ ending k, .finish t ending ∈ acts ∧ ending.shutdown? k = some reason := by
  refine after_induction
    (P := fun acts s => (s.world.timer t).EndsFor reason →
      ∃ ending k, .finish t ending ∈ acts ∧ ending.shutdown? k = some reason)
    (fun h => by rcases h with h | h <;> cases h) (fun acts a ih => ?_) acts h
  refine keep_next
    (P := fun w _ => (w.timer t).EndsFor reason →
      ∃ ending k, .finish t ending ∈ acts ++ [a] ∧ ending.shutdown? k = some reason)
    (fun {w} _ _ _ hw c hends => ?_) fun hends => ?_
  · rcases c.endsFor_cases hends with hbefore | ⟨-, hrest⟩ | ⟨ending, k, rfl, hending⟩
    · exact hw hbefore
    · refine absurd ?_ herror
      rw [hrest, World.restReason]
      split <;> rfl
    · exact ⟨ending, k, by simp, hending⟩
  · obtain ⟨ending, k, hmem, hending⟩ := ih hends
    exact ⟨ending, k, List.mem_append_left _ hmem, hending⟩

end System

/-- **No accepted task is lost.** A submission leaves its event exactly when it is accepted.
After every run, each task that `t` accepted and that is still scheduled stands in its queue, and
stands there once, unless all tasks of `t` were called off or a body ended its thread; the record
says the one only after that call, and the other only after the end of such a body. If the record
says that the thread ended for want of work, every task that `t` ever accepted has been executed
or called off. -/
theorem accepted_tasks_kept (t : TimerRef) (acts : List Action) :
    let s := System.after acts
    (∀ (w : World) (k : TaskRef) (due : Instant) (period : Period),
      (w.accept t k due period).result = .ok () ↔
        ∃ newHead, (w.accept t k due period).events = [.scheduled t k period newHead]) ∧
    ((s.world.timer t).cancelled = false →
      (∀ reason, (s.world.timer t).shutdown = some reason → reason.error? = none) →
      ∀ k, AcceptedBy t s.log k → (s.world.task k).state = .scheduled →
        (s.world.queuedTasks t).count k = 1) ∧
    ((s.world.timer t).cancelled = true → .cancelAll t ∈ acts) ∧
    (∀ reason, (s.world.timer t).shutdown = some reason → reason.error? ≠ none →
      ∃ ending k, .finish t ending ∈ acts ∧ ending.shutdown? k = some reason) ∧
    ((s.world.timer t).shutdown = some .drained →
      ∀ k, AcceptedBy t s.log k →
        (s.world.task k).state = .executed ∨ (s.world.task k).state = .cancelled) := by
  have h := System.retained_after t acts
  refine ⟨fun w => w.accept_ok_iff t, ?_, System.cancelAll_mem, ?_, ?_⟩
  · intro hcancelled hgoing k hk hs
    have hmem := h.queued ⟨hcancelled, hgoing⟩ k hk hs
    have hnodup : ((System.after acts).world.queuedTasks t).Nodup := (coupled_after acts).nodup t
    rw [hnodup.count, if_pos hmem]
  · intro reason hended herror
    exact System.finish_mem herror (.inr hended)
  · intro hdrained k hk
    have hterminal := h.drained (.inr hdrained) k hk
    cases hs : ((System.after acts).world.task k).state with
    | executed => exact .inl rfl
    | cancelled => exact .inr rfl
    | created | scheduled =>
      rw [hs] at hterminal
      cases hterminal

/-- A closed timer runs one task, discards the other, and ends for want of work. -/
example :
    ((System.after
      [.startTimer { now := .origin, wall := .epoch }, .newTask, .newTask,
        .submission ⟨0⟩ ⟨0⟩ (.once ⟨0, by decide, by decide⟩),
        .submission ⟨0⟩ ⟨1⟩ (.once ⟨0, by decide, by decide⟩), .close ⟨0⟩, .cancelTask ⟨1⟩,
        .work ⟨0⟩ [], .finish ⟨0⟩ .returned, .work ⟨0⟩ [], .work ⟨0⟩ [], .record ⟨0⟩ false]
      ).world.timer ⟨0⟩).shutdown = some .drained := by
  decide +kernel

end TaskTimer
