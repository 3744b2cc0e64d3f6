/-
TaskTimer.Proofs.Run.Shutdown — a timer that was shut down stays so.

Four things make a timer refuse tasks: `close`, giving up its handle, which closes it, `cancelAll`,
and the end of its thread. The last two empty its queue as well. They come in any order, also from
the body of a task that has been queued again already; and whatever comes after them, the timer
neither takes a task nor fires one (`System.work_of_off`, `System.firingsOn_run_of_off`).
-/
import TaskTimer.Proofs.Run.Idling
import TaskTimer.Proofs.Run.Submission
import TaskTimer.Proofs.Run.Thread

namespace TaskTimer

/-- A timer is off once it is recorded why its thread ended. -/
theorem Timer.off_of_shutdown {x : Timer} {reason : Shutdown TaskRef}
    (h : x.shutdown = some reason) : x.Off :=
  .inr (by simp [h])

theorem Timer.Stays.off {x y : Timer} (h : x.Stays y) (hoff : x.Off) : y.Off := by
  rcases hoff with hcancelled | hended
  · exact .inl (h.cancelled hcancelled)
  · obtain ⟨reason, hreason⟩ := Option.ne_none_iff_exists'.1 hended
    exact off_of_shutdown (h.shutdown reason hreason)

/-! ## Timers that were never started -/

/-- Only timers that were started differ from those of the empty world. -/
def World.Untouched (w : World) : Prop := ∀ t, ¬ w.HasTimer t → w.timer t = World.empty.timer t

theorem World.Untouched.change {a : Action} {w w' : World} {events : List Event}
    (h : w.Untouched) (c : Change a w events w') : w'.Untouched := by
  have set : ∀ {u : TimerRef} {x : Timer}, w.HasTimer u → (w.setTimer u x).Untouched := by
    intro u x hu t ht
    have hne : t ≠ u := fun heq => ht (heq ▸ hu)
    rw [World.timer_setTimer_of_ne w hne]
    exact h t ht
  cases c with
  | newTask | reject | cancel => exact h
  | startTimer clock =>
    intro t ht
    have hlt : w.timerCount < t.index := Nat.not_le.1 fun hle => ht (Nat.lt_succ_of_le hle)
    have hne : t ≠ ⟨w.timerCount⟩ := fun heq => by simp [heq] at hlt
    exact (World.timer_setTimer_of_ne w hne _).trans (h t (Nat.lt_asymm hlt))
  | setClock t clock ha ht | accept t k due period newHead ht | close t n ht
  | cancelAll t events ha ht | purge t events ht | discard t head ht | rest t interim ha ht
  | fail t ending k stage ha ht | record t bursts reason events ha ht => exact set ht
  | retire t head interim ha hfires | postpone t head interim next queue ha hfires =>
    exact set hfires.hasTimer

/-- Calling off all tasks does nothing to a timer on which that was done. -/
theorem World.cancelAll_of_cleared {w : World} {t : TimerRef}
    (hqueue : (w.timer t).queue = .empty) (hclosed : (w.timer t).accepting = false)
    (hmark : (w.timer t).cancelled = true) :
    w.Agrees (w.cancelAll t).world ∧ (w.cancelAll t).events = [] := by
  have same : { w.timer t with queue := .empty, accepting := false, cancelled := true } =
      w.timer t := by
    cases hx : w.timer t
    simp_all
  refine ⟨⟨fun u => ?_, fun _ => rfl⟩, by simp [cancelAll, hclosed, hmark]⟩
  rw [cancelAll, same, timer_setTimer]
  split
  · next hu => rw [hu]
  · rfl

namespace System

variable {acts : List Action} {t : TimerRef}

theorem untouched_after (acts : List Action) : (after acts).world.Untouched :=
  keep_after (P := fun w _ => w.Untouched) (fun _ _ => rfl) (fun h c => h.change c) acts

/-- A timer that takes no tasks was started. -/
theorem hasTimer_of_closed (h : ((after acts).world.timer t).accepting = false) :
    (after acts).world.HasTimer t := by
  by_contra ht
  rw [untouched_after acts t ht] at h
  cases h

/-! ## Timers that are off -/

theorem off_run (h : ((after acts).world.timer t).Off) (more : List Action) :
    (((after acts).run more).world.timer t).Off :=
  (stays_run (hasTimer_of_closed (off_after h).2) more).off h

/-- A turn on a timer that is off finds nothing to do but to stop. -/
theorem work_of_off (h : ((after acts).world.timer t).Off) (interim : List TaskRef) :
    ((after acts).world.work t interim).result =
        .stop (World.restReason ((after acts).world.timer t)) ∧
      firingsOn t ((after acts).world.work t interim).events = [] := by
  obtain ⟨hempty, hclosed⟩ := off_after h
  rw [World.work_of_closed interim (Queue.peek_eq_none_iff.2 hempty) hclosed]
  exact ⟨rfl, rfl⟩

theorem firingsOn_run_of_off (h : ((after acts).world.timer t).Off) (more : List Action) :
    firingsOn t ((after acts).run more).log = firingsOn t (after acts).log := by
  refine run_induction (P := fun _ s => firingsOn t s.log = firingsOn t (after acts).log) rfl
    (fun more a ih => Eq.trans ?_ ih) more
  by_cases hwork : ∃ interim, a = .work t interim
  · obtain ⟨interim, rfl⟩ := hwork
    by_cases hadmits : (after (acts ++ more)).Admits (.work t interim)
    · have hoff := off_run h more
      rw [← after_append] at hoff
      rw [(next_work hadmits).2, firingsOn_append, (work_of_off hoff interim).2, List.append_nil]
    · rw [next, if_neg hadmits]
  · exact firingsOn_next_of_ne fun interim ha => hwork ⟨interim, ha⟩

/-! ## Calling off all tasks -/

theorem timer_next_cancelAll {s : System} (ht : s.world.HasTimer t) :
    (s.next (.cancelAll t)).world.timer t =
      { s.world.timer t with queue := .empty, accepting := false, cancelled := true } := by
  have hadmits : s.Admits (.cancelAll t) := ht
  rw [next, if_pos hadmits]
  exact World.timer_setTimer_same _ _ _

theorem off_next_cancelAll {s : System} (ht : s.world.HasTimer t) :
    ((s.next (.cancelAll t)).world.timer t).Off :=
  .inl (by rw [timer_next_cancelAll ht])

/-- Right after a call, there is nothing left for another one to do. -/
theorem cancelAll_again (s : System) (t : TimerRef) :
    let s' := s.next (.cancelAll t)
    s'.world.Agrees (s'.next (.cancelAll t)).world ∧ (s'.next (.cancelAll t)).log = s'.log ∧
      (s'.next (.cancelAll t)).running = s'.running := by
  by_cases hadmits : s.Admits (.cancelAll t)
  · have hadmits' : (s.next (.cancelAll t)).Admits (.cancelAll t) := hasTimer_next hadmits _
    have htimer := timer_next_cancelAll hadmits
    obtain ⟨hagrees, hevents⟩ := World.cancelAll_of_cleared (w := (s.next (.cancelAll t)).world)
      (t := t) (by rw [htimer]) (by rw [htimer]) (by rw [htimer])
    intro s'
    rw [next, if_pos hadmits']
    refine ⟨hagrees, ?_, rfl⟩
    show s'.log ++ (s'.world.cancelAll t).events = s'.log
    rw [hevents, List.append_nil]
  · simp only [next, if_neg hadmits]
    exact ⟨.refl _, trivial, trivial⟩

end System

/-- **Shutdown is absorbing.** From any point of a run on: a timer that takes no tasks takes none
later. One whose tasks were all called off, or whose thread has ended, stays so; its queue is
empty, no turn of its thread fires and no execution on it begins, and every submission with
arguments in order is told that the timer takes none and changes no timer and no task. The reason
recorded for the end of a thread stays as it is, whatever is called afterwards. To call off all
tasks shuts the timer down in this way, and to do so twice in a row changes nothing more. -/
theorem shutdown_is_absorbing (t : TimerRef) (acts more : List Action) :
    let s := System.after acts
    let s' := s.run more
    ((s.world.timer t).accepting = false → (s'.world.timer t).accepting = false) ∧
    (s.world.HasTimer t → ((s.next (.cancelAll t)).world.timer t).Off) ∧
    ((s.world.timer t).Off →
      (s'.world.timer t).Off ∧ s'.world.queued t = [] ∧ (s'.world.timer t).accepting = false ∧
      (∀ interim f, (s'.world.work t interim).result ≠ .fire f) ∧
      firingsOn t s'.log = firingsOn t s.log ∧
      ∀ call : SubmissionCall, call.Proper →
        refusal? (call.perform t s'.world).result = some "IllegalState" ∧
          s'.world.Agrees (call.perform t s'.world).world) ∧
    (∀ reason, (s.world.timer t).shutdown = some reason →
      (s'.world.timer t).shutdown = some reason) ∧
    let once := s.next (.cancelAll t)
    let twice := once.next (.cancelAll t)
    once.world.Agrees twice.world ∧ twice.log = once.log ∧ twice.running = once.running := by
  refine ⟨fun hclosed => ?_, System.off_next_cancelAll, fun hoff => ?_, fun reason hended => ?_,
    System.cancelAll_again _ t⟩
  · exact (System.stays_run (System.hasTimer_of_closed hclosed) more).accepting hclosed
  · have hfirings := System.firingsOn_run_of_off hoff more
    have hlater := System.off_run hoff more
    rw [← System.after_append] at hfirings hlater ⊢
    obtain ⟨hempty, hclosed⟩ := System.off_after hlater
    refine ⟨hlater, hempty, hclosed, fun interim f hfire => ?_, hfirings, fun call hproper => ?_⟩
    · rw [(System.work_of_off hlater interim).1] at hfire
      cases hfire
    · obtain ⟨hresult, -, hagrees⟩ :=
        SubmissionCall.perform_of_closed (recorded_after (acts ++ more)) hproper hclosed
      rw [hresult]
      exact ⟨rfl, hagrees⟩
  · have hclosed := (System.off_after (Timer.off_of_shutdown hended)).2
    have hstays := System.stays_run (System.hasTimer_of_closed hclosed) more
    exact hstays.shutdown reason hended

/-- All tasks are called off from the body of one that repeats. The body returns, and the thread
ends for that reason. -/
example :
    ((System.after
      [.startTimer { now := .origin, wall := .epoch }, .newTask,
        .submission ⟨0⟩ ⟨0⟩ (.fixedRate 0 2), .work ⟨0⟩ [], .cancelAll ⟨0⟩,
        .finish ⟨0⟩ .returned, .work ⟨0⟩ [], .record ⟨0⟩ false, .close ⟨0⟩, .cancelAll ⟨0⟩]
      ).world.timer ⟨0⟩).shutdown = some .cancelled := by
  decide +kernel

end TaskTimer
