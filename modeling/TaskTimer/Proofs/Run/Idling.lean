/-
TaskTimer.Proofs.Run.Idling — a thread rests only when nothing is due.

A turn looks at the root of the queue and at nothing behind it. That is enough because the queue
is a heap: what holds up the root holds up all entries. So the two ways in which a turn does no
work can be told from the whole queue (`World.work_wait_iff`, `World.work_stop_iff`), and a thread
that has come to rest (`System.Settled`) leaves no task waiting that could run.

A timer that is off, because all its tasks were called off or its thread has ended, holds no
entry and takes none (`System.off_after`).
-/
import TaskTimer.Proofs.Run.Coupling

namespace TaskTimer

/-- Whether the turn found nothing to do. -/
def Turn.idles : Turn → Bool
  | .wait _ | .stop _ => true
  | .discard _ | .discardDue _ | .fire _ | .fault _ => false

namespace World

variable {w : World} {t : TimerRef} {interim : List TaskRef}

/-! ## When a turn does no work -/

theorem idles_fireHead (w : World) (t : TimerRef) (head : Entry TaskRef) :
    (w.fireHead t head).result.idles = false := by
  simp only [fireHead]
  split
  · rfl
  · split <;> rfl

/-- A head that is due keeps the thread busy, whatever becomes of it. -/
theorem idles_work_of_due {head : Entry TaskRef} (interim : List TaskRef)
    (hpeek : (w.timer t).queue.peek = some head)
    (hlive : (w.task head.item).state ≠ .cancelled) (hdue : head.due ≤ (w.timer t).clock.now) :
    (w.work t interim).result.idles = false := by
  rw [work_of_late interim hpeek hlive hdue]
  simp only [Outcome.andThen, fireUnlessCancelled]
  split
  · rfl
  · exact idles_fireHead _ t head

theorem work_wait_iff {due : Option Instant} :
    (w.work t interim).result = .wait due ↔
      (due = none ∧ (w.timer t).queue.peek = none ∧ (w.timer t).accepting = true) ∨
      ∃ head, due = some head.due ∧ (w.timer t).queue.peek = some head ∧
        (w.task head.item).state ≠ .cancelled ∧ (w.timer t).clock.now < head.due := by
  cases hpeek : (w.timer t).queue.peek with
  | none =>
    cases hopen : (w.timer t).accepting with
    | true => simp [work_of_open interim hpeek hopen, eq_comm]
    | false => simp [work_of_closed interim hpeek hopen]
  | some head =>
    by_cases hcancelled : (w.task head.item).state = .cancelled
    · simp [work_of_cancelled interim hpeek hcancelled, hcancelled]
    · by_cases hdue : head.due ≤ (w.timer t).clock.now
      · have hbusy := idles_work_of_due interim hpeek hcancelled hdue
        constructor
        · intro hwait
          rw [hwait] at hbusy
          cases hbusy
        · rintro (⟨-, hnone, -⟩ | ⟨_, -, hsame, -, hearly⟩)
          · cases hnone
          · obtain rfl := Option.some.inj hsame
            exact absurd hearly (Std.not_lt.2 hdue)
      · have hearly := Std.not_le.1 hdue
        rw [work_of_early interim hpeek hcancelled hearly]
        constructor
        · intro hwait
          exact .inr ⟨head, (Turn.wait.inj hwait).symm, rfl, hcancelled, hearly⟩
        · rintro (⟨-, hnone, -⟩ | ⟨_, rfl, hsame, -⟩)
          · cases hnone
          · rw [Option.some.inj hsame]

theorem work_stop_iff {reason : Shutdown TaskRef} :
    (w.work t interim).result = .stop reason ↔
      reason = restReason (w.timer t) ∧ (w.timer t).queue.peek = none ∧
        (w.timer t).accepting = false := by
  cases hpeek : (w.timer t).queue.peek with
  | none =>
    cases hopen : (w.timer t).accepting with
    | true => simp [work_of_open interim hpeek hopen]
    | false => simp [work_of_closed interim hpeek hopen, eq_comm]
  | some head =>
    by_cases hcancelled : (w.task head.item).state = .cancelled
    · simp [work_of_cancelled interim hpeek hcancelled]
    · by_cases hdue : head.due ≤ (w.timer t).clock.now
      · have hbusy := idles_work_of_due interim hpeek hcancelled hdue
        constructor
        · intro hstop
          rw [hstop] at hbusy
          cases hbusy
        · rintro ⟨-, hnone, -⟩
          cases hnone
      · simp [work_of_early interim hpeek hcancelled (Std.not_le.1 hdue)]

end World

namespace Coupled

variable {w : World} {t : TimerRef}

/-- The root of a heap lies ahead just when all entries do. -/
theorem now_lt_head_iff (h : Coupled w) {head : Entry TaskRef}
    (hpeek : (w.timer t).queue.peek = some head) (now : Instant) :
    now < head.due ↔ ∀ e ∈ w.queued t, now < e.due :=
  ⟨fun hlt _ he => Std.lt_of_lt_of_le hlt ((h.isHeap t).due_le hpeek he),
    fun hall => hall head (Queue.mem_of_peek hpeek)⟩

end Coupled

/-! ## Timers that are off -/

/-- All tasks of the timer were called off at once, or its thread has ended. -/
def Timer.Off (x : Timer) : Prop := x.cancelled = true ∨ x.shutdown ≠ none

/-- What is off holds nothing and takes nothing. -/
def Timer.Spent (x : Timer) : Prop := x.Off → x.queue.toList = [] ∧ x.accepting = false

namespace Timer.Spent

/-- An entry that is queued shows that the timer is not off. -/
theorem not_off_of_peek {x : Timer} (h : x.Spent) {head : Entry TaskRef}
    (hpeek : x.queue.peek = some head) : ¬ x.Off := by
  intro hoff
  rw [Queue.peek_eq_none_iff.2 (h hoff).1] at hpeek
  cases hpeek

theorem change {a : Action} {w w' : World} {events : List Event} (h : ∀ t, (w.timer t).Spent)
    (c : Change a w events w') (t : TimerRef) : (w'.timer t).Spent := by
  have set : ∀ {u : TimerRef} {x : Timer}, x.Spent → ((w.setTimer u x).timer t).Spent :=
    fun hx => World.keep_setTimer (h t) fun _ => hx
  cases c with
  | newTask | reject | cancel => exact h t
  | startTimer clock ha =>
    refine set fun hoff => ?_
    rcases hoff with hmark | hended
    · cases hmark
    · exact absurd rfl hended
  | setClock u | rest u | fail u => exact set (h u)
  | accept u k due period newHead ht hk hopen hnew hdue =>
    refine set fun hoff => ?_
    rw [(h u hoff).2] at hopen
    cases hopen
  | cancelAll | record => exact set fun _ => ⟨rfl, rfl⟩
  | close u n ht => exact set fun hoff => ⟨(h u hoff).1, rfl⟩
  | purge u events ht hevents =>
    refine set fun hoff => ⟨?_, (h u hoff).2⟩
    have hleft := (Queue.purge_perm w.isCancelled (w.timer u).queue).2
    rw [(h u hoff).1] at hleft
    exact hleft.eq_nil
  | discard u head ht hpeek hcancelled =>
    exact set fun hoff => absurd hoff ((h u).not_off_of_peek hpeek)
  | retire u head interim ha hfires honce =>
    exact set fun hoff => absurd hoff ((h u).not_off_of_peek hfires.peek)
  | postpone u head interim next queue ha hfires hnext hqueue =>
    exact set fun hoff => absurd hoff ((h u).not_off_of_peek hfires.peek)

end Timer.Spent

namespace System

/-- After every run, a timer that is off has nothing queued and takes nothing. -/
theorem off_after {acts : List Action} {t : TimerRef}
    (h : ((after acts).world.timer t).Off) :
    (after acts).world.queued t = [] ∧ ((after acts).world.timer t).accepting = false := by
  have start : ∀ u, (World.empty.timer u).Spent := by
    rintro u (hmark | hended)
    · cases hmark
    · exact absurd rfl hended
  exact keep_after (P := fun w _ => ∀ u, (w.timer u).Spent) start
    (fun hs c => Timer.Spent.change hs c) acts t h

/-! ## Coming to rest -/

/-- The thread of `t` is in its loop, runs no body, and would wait if it took a turn. -/
def Rests (s : System) (t : TimerRef) : Prop :=
  (s.world.timer t).stage = .going ∧ s.running t = none ∧
    ∃ due, (s.world.work t []).result = .wait due

/-- The thread of `t` has ended and recorded why, or it rests. -/
def Settled (s : System) (t : TimerRef) : Prop :=
  (s.world.timer t).shutdown ≠ none ∨ s.Rests t

theorem Rests.shutdown_eq_none {acts : List Action} {t : TimerRef} (h : (after acts).Rests t) :
    ((after acts).world.timer t).shutdown = none :=
  (told_after acts t).shutdown_eq_none (by rw [h.1]; rfl)

/-- Where a thread rests, everything in its queue lies ahead. -/
theorem Rests.now_lt {s : System} {t : TimerRef} (h : s.Rests t) (hc : Coupled s.world) :
    ∀ e ∈ s.world.queued t, (s.world.timer t).clock.now < e.due := by
  obtain ⟨-, -, due, hwait⟩ := h
  rcases World.work_wait_iff.1 hwait with ⟨-, hnone, -⟩ | ⟨head, -, hpeek, -, hearly⟩
  · intro e he
    rw [World.queued, Queue.peek_eq_none_iff.1 hnone] at he
    cases he
  · exact (hc.now_lt_head_iff hpeek _).1 hearly

/-- Where a thread rests, the task at the head is not called off. -/
theorem Rests.head_live {s : System} {t : TimerRef} (h : s.Rests t) {head : Entry TaskRef}
    (hpeek : (s.world.timer t).queue.peek = some head) :
    (s.world.task head.item).state ≠ .cancelled := by
  obtain ⟨-, -, due, hwait⟩ := h
  rcases World.work_wait_iff.1 hwait with ⟨-, hnone, -⟩ | ⟨head', -, hpeek', hlive, -⟩
  · rw [hnone] at hpeek
    cases hpeek
  · obtain rfl := Option.some.inj (hpeek.symm.trans hpeek')
    exact hlive

end System

/-- **No idling over work that is due.** After every run, a turn of a thread waits exactly if its
queue is empty and the timer takes tasks, or the task at the head is not called off and the
deadline of every entry, those of cancelled tasks included, lies ahead; it then waits for the
head's. A turn stops the thread exactly if the queue is empty and the timer takes no tasks. So
where a thread has settled, no task that is due and not called off is queued, and none that is
called off is at the head. -/
theorem no_idling_over_due_work (t : TimerRef) (acts : List Action) (interim : List TaskRef) :
    let s := System.after acts
    let timer := s.world.timer t
    (∀ due, (s.world.work t interim).result = .wait due ↔
      (due = none ∧ s.world.queued t = [] ∧ timer.accepting = true) ∨
      ∃ head, due = some head.due ∧ timer.queue.peek = some head ∧
        (s.world.task head.item).state ≠ .cancelled ∧
        ∀ e ∈ s.world.queued t, timer.clock.now < e.due) ∧
    ((∃ reason, (s.world.work t interim).result = .stop reason) ↔
      s.world.queued t = [] ∧ timer.accepting = false) ∧
    (s.Settled t →
      (∀ e ∈ s.world.queued t, (s.world.task e.item).state ≠ .cancelled →
        timer.clock.now < e.due) ∧
      ∀ head, timer.queue.peek = some head → (s.world.task head.item).state ≠ .cancelled) := by
  have hc := coupled_after acts
  refine ⟨fun due => ?_, ?_, ?_⟩
  · rw [World.work_wait_iff, Queue.peek_eq_none_iff]
    refine or_congr Iff.rfl (exists_congr fun head => and_congr Iff.rfl ?_)
    exact and_congr_right fun hpeek => and_congr Iff.rfl (hc.now_lt_head_iff hpeek _)
  · simp only [World.work_stop_iff, Queue.peek_eq_none_iff, exists_eq_left]
    exact Iff.rfl
  · rintro (hended | hrests)
    · have hempty := (System.off_after (.inr hended)).1
      refine ⟨fun e he => ?_, fun head hpeek => ?_⟩
      · rw [hempty] at he
        cases he
      · rw [Queue.peek_eq_none_iff.2 hempty] at hpeek
        cases hpeek
    · exact ⟨fun e he _ => hrests.now_lt hc e he, fun head hpeek => hrests.head_live hpeek⟩

end TaskTimer
