/-
TaskTimer.Proofs.Run.Postponement — a task that repeats is moved on in its place.

A thread that fires a repeating task leaves its entry at the root and gives it a later deadline.
`Queue.postponeMin` refuses a deadline that is earlier than the present one, and it changes the
root, whatever stands there. Neither can go wrong. The new deadline is counted from the old one or
from a reading of the clock that is no earlier, and near the end of the range, where the sum does
not exist, it is still not before what it is counted from (`Period.le_of_next?`). And the root is
still the entry that was found due, because other threads can do no more in between than call tasks
off, which leaves all queues alone (`World.timer_cancelEach`).

`World.Postpones` says what becomes of the world, with everything else unchanged.
-/
import TaskTimer.Proofs.Run.Shutdown

namespace TaskTimer

theorem Coupled.cancelEach {w : World} (h : Coupled w) (ks : List TaskRef) :
    Coupled (w.cancelEach ks).world :=
  World.keep_cancelEach (fun {_ k} h _ => h.cancel k) h ks

namespace World

variable {w : World} {t : TimerRef} {head : Entry TaskRef} {interim : List TaskRef}

/-- From `w` to `w'` the root `head` of the queue of `t` and its task have got the deadline `next`,
which is no earlier, and one more execution is counted. Nothing else has changed but the layout of
the queue. -/
structure Postpones (w : World) (t : TimerRef) (head : Entry TaskRef) (next : Instant)
    (w' : World) : Prop where
  root : (w.timer t).queue.peek = some head
  later : head.due ≤ next
  /-- The other entries, which are of other tasks, are the same. -/
  queue : ∃ rest, (w.queued t).Perm (head :: rest) ∧
    (w'.queued t).Perm ({ head with due := next } :: rest) ∧ ∀ e ∈ rest, e.item ≠ head.item
  timer : w'.timer t = { w.timer t with queue := (w'.timer t).queue }
  task : w'.task head.item = { w.task head.item with
    executions := (w.task head.item).executions + 1, next := some next }
  otherTimers : ∀ u, u ≠ t → w'.timer u = w.timer u
  otherTasks : ∀ j, j ≠ head.item → w'.task j = w.task j

theorem Fires.postpones (h : w.Fires t head) (hc : Coupled w) {next : Instant}
    {queue : Queue TaskRef} (hlater : head.due ≤ next)
    (hqueue : (w.timer t).queue.postponeMin next = .ok queue) :
    w.Postpones t head next (w.postpone t head next queue) := by
  have htimer : (w.postpone t head next queue).timer t = { w.timer t with queue := queue } :=
    timer_setTimer_same _ _ _
  obtain ⟨rest, hrest, hcontent⟩ := Queue.toList_postponeMin h.peek hqueue
  have hbefore : (w.queued t).Perm (head :: rest) := List.Perm.of_eq hrest
  constructor
  · exact h.peek
  · exact hlater
  · refine ⟨rest, hbefore, ?_, hc.item_ne_of_peek hbefore⟩
    rw [queued, htimer]
    exact hcontent
  · rw [htimer]
  · exact task_setTask_same _ _ _
  · exact fun u hu => timer_setTimer_of_ne _ hu _
  · exact fun j hj => task_setTask_of_ne _ hj _

/-- A head that is due, repeats, and is not called off at the second look either is moved on. -/
theorem work_of_repeating (hc : Coupled w) (ht : w.HasTimer t)
    (hpeek : (w.timer t).queue.peek = some head) (hdue : head.due ≤ (w.timer t).clock.now)
    (hlive : ((w.cancelEach interim).world.task head.item).state ≠ .cancelled)
    (hrepeats : ((w.cancelEach interim).world.task head.item).period.repeats = true) :
    ∃ next,
      ((w.cancelEach interim).world.task head.item).period.next? head.due
        (w.timer t).clock.now = some next ∧
      (w.timer t).queue.postponeMin next = .ok ((w.work t interim).world.timer t).queue ∧
      (w.work t interim).result = .fire ((w.cancelEach interim).world.firing t head) ∧
      (w.cancelEach interim).world.Postpones t head next (w.work t interim).world := by
  have hfirst : (w.task head.item).state ≠ .cancelled := fun hoff =>
    hlive (state_cancelEach_of_cancelled hoff interim)
  have hfires := fires_cancelEach ht hpeek hdue hlive
  rw [work_of_due hpeek hfirst hdue hfires]
  rcases fireHead_eq hfires with ⟨honce, -⟩ | ⟨next, queue, hnext, hqueue, heq⟩
  · rw [honce] at hrepeats
    cases hrepeats
  · have hpostpones := hfires.postpones (hc.cancelEach interim)
      (Period.le_of_next? hnext hfires.due_le) hqueue
    rw [timer_cancelEach] at hnext hqueue
    rw [heq]
    refine ⟨next, hnext, ?_, rfl, hpostpones⟩
    simpa [postpone, timer_setTask] using hqueue

/-- There is no way for a turn to fail on the deadline it gives to the head. -/
theorem Worked.ne_fault {turn : Turn} {x : Timer} {events : List Event}
    (h : w.Worked t interim turn x events) (e : PostponeError) : turn ≠ .fault e := by
  cases h <;> simp

end World

namespace System

variable {acts : List Action} {t : TimerRef}

/-- A timer that has something queued was started. -/
theorem hasTimer_of_peek {head : Entry TaskRef}
    (h : ((after acts).world.timer t).queue.peek = some head) :
    (after acts).world.HasTimer t := by
  have hmem := Queue.mem_of_peek h
  by_contra ht
  rw [untouched_after acts t ht] at hmem
  cases hmem

theorem work_ne_fault (acts : List Action) (t : TimerRef) (interim : List TaskRef)
    (e : PostponeError) : ((after acts).world.work t interim).result ≠ .fault e := by
  cases hpeek : ((after acts).world.timer t).queue.peek with
  | none =>
    cases hopen : ((after acts).world.timer t).accepting with
    | true => simp [World.work_of_open interim hpeek hopen]
    | false => simp [World.work_of_closed interim hpeek hopen]
  | some head => exact (World.worked_work (hasTimer_of_peek hpeek) interim).ne_fault e

end System

/-- **A repeating task is moved on in its place.** After every run, with the clock set to whatever
instant, no turn of a thread fails on the deadline that it gives to the head, whichever tasks are
called off in the middle of it. If the head is due, and its task repeats and is not called off by
the second look, the turn fires that task. The deadline that its period asks for next is no earlier
than the present one. The root that gets it is the entry of this task. Afterwards the entry and the
task both have it, every other entry is as before, and so are all other timers and tasks, but for
those called off before the second look. -/
theorem repeating_head_moved_on (t : TimerRef) (acts : List Action) (interim : List TaskRef) :
    let s := System.after acts
    let w := (s.world.cancelEach interim).world
    let o := s.world.work t interim
    (∀ e, o.result ≠ .fault e) ∧
    ∀ head, (s.world.timer t).queue.peek = some head →
      head.due ≤ (s.world.timer t).clock.now → (w.task head.item).state ≠ .cancelled →
      (w.task head.item).period.repeats = true →
      ∃ next,
        (w.task head.item).period.next? head.due (s.world.timer t).clock.now = some next ∧
        (s.world.timer t).queue.postponeMin next = .ok (o.world.timer t).queue ∧
        o.result = .fire (w.firing t head) ∧ w.Postpones t head next o.world := by
  refine ⟨System.work_ne_fault acts t interim, fun head hpeek hdue hlive hrepeats => ?_⟩
  have ht := System.hasTimer_of_peek hpeek
  exact World.work_of_repeating (coupled_after acts) ht hpeek hdue hlive hrepeats

/-- At the last instant there is no later deadline, and the task stays due. -/
example :
    let w := (System.after
      [.startTimer { now := .last, wall := .epoch }, .newTask,
        .submission ⟨0⟩ ⟨0⟩ (.fixedRate 0 2), .work ⟨0⟩ []]).world
    w.queued ⟨0⟩ = [⟨.last, ⟨0⟩⟩] ∧ (w.task ⟨0⟩).next = some .last := by
  decide +kernel

end TaskTimer
