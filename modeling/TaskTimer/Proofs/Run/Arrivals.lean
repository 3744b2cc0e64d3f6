/-
TaskTimer.Proofs.Run.Arrivals — what comes into a queue between two turns, and who is told.

Between the turns of its thread a queue loses entries in many ways and gains them in one: a timer
accepts a task (`System.queued_next`). The event that says so tells whether the new entry is at the
root, and that is when a sleeping thread is woken. So the flag must be true whenever the thread
would otherwise sleep too long. It is true exactly if the entry is earlier than all others
(`World.isHead_push_iff`): an earlier one is sifted up to the root, and one that is not never gets
past it.

`World.NothingEarlier` compares a queue with what it was before. As long as no flag is true, it
holds from the moment on at which the thread went to sleep (`System.nothingEarlier_run`).
-/
import TaskTimer.Proofs.Run.Acceptance

namespace TaskTimer

/-! ## Queues between the turns -/

section Frame

variable {a : Action} {t : TimerRef} {w w' : World} {events : List Event}

/-- Where a change is no turn of the thread and schedules nothing on the timer, the queue may lose
entries and gains none. -/
theorem Change.queued_subperm (c : Change a w events w') (hwork : ∀ interim, a ≠ .work t interim)
    (hnone : ∀ k p b, .scheduled t k p b ∉ events) : (w'.queued t).Subperm (w.queued t) := by
  have set : ∀ {u : TimerRef} {x : Timer}, (u = t → x.queue.toList.Subperm (w.queued u)) →
      ((w.setTimer u x).queued t).Subperm (w.queued t) := fun hx =>
    World.keep_setTimer (P := fun y => y.queue.toList.Subperm (w.queued t))
      (List.Subperm.refl _) fun ht => ht ▸ hx ht.symm
  have drop : ∀ {u : TimerRef} {head : Entry TaskRef}, (w.timer u).queue.peek = some head →
      (w.timer u).queue.dropMin.toList.Subperm (w.queued u) := fun hpeek =>
    (List.sublist_cons_self _ _).subperm.trans (Queue.toList_dropMin hpeek).symm.subperm
  cases c with
  | newTask | reject | cancel => exact List.Subperm.refl _
  | startTimer | cancelAll | record => exact set fun _ => List.nil_subperm
  | setClock | close | rest | fail => exact set fun _ => List.Subperm.refl _
  | accept u k due period newHead =>
    refine set fun hu => absurd (List.mem_singleton.2 ?_) (hnone k period newHead)
    rw [hu]
  | purge u =>
    exact set fun _ => (Queue.purge_perm _ _).2.subperm.trans List.filter_sublist.subperm
  | discard u head ht hpeek => exact set fun _ => drop hpeek
  | retire u head interim ha hfires => exact set fun _ => drop hfires.peek
  | postpone u head interim next queue ha => exact set fun hu => absurd (hu ▸ ha) (hwork interim)

theorem Changes.queued_subperm (h : Changes a w events w')
    (hwork : ∀ interim, a ≠ .work t interim) (hnone : ∀ k p b, .scheduled t k p b ∉ events) :
    (w'.queued t).Subperm (w.queued t) := by
  induction h with
  | nil => exact List.Subperm.refl _
  | snoc _ last ih =>
    have later := last.queued_subperm hwork fun k p b hmem =>
      hnone k p b (List.mem_append_right _ hmem)
    exact later.trans (ih fun k p b hmem => hnone k p b (List.mem_append_left _ hmem))

end Frame

namespace System

variable {s : System} {a : Action} {t : TimerRef} {k : TaskRef} {due : Instant} {p : Period}

/-- Nothing comes into a queue but by a turn of its thread or what the timer accepts. -/
theorem queued_next (hc : Coupled s.world) (hr : Recorded s.world s.log)
    (hwork : ∀ interim, a ≠ .work t interim) (hnone : ∀ k due p, ¬ s.Accepts a t k due p) :
    ((s.next a).world.queued t).Subperm (s.world.queued t) := by
  obtain ⟨events, hchanges, hlog⟩ := s.changes_next a
  obtain ⟨events', hlog', haccepts⟩ := events_next hc hr a
  obtain rfl := List.append_cancel_left (hlog.symm.trans hlog')
  refine hchanges.queued_subperm hwork fun k p b hmem => ?_
  obtain ⟨due, h⟩ := haccepts t k p b hmem
  exact hnone k due p h

/-- What is accepted is pushed, and the flag is read off the queue with it. -/
theorem Accepts.queue_next (h : s.Accepts a t k due p) :
    ((s.next a).world.timer t).queue = (s.world.timer t).queue.push due k ∧
      (s.next a).log = s.log ++
        [.scheduled t k p (World.isHead ((s.world.timer t).queue.push due k) k)] := by
  obtain ⟨w, hw, hworld, hlog⟩ := h.next_eq
  have htimer : w.timer t = s.world.timer t := by
    rcases hw with rfl | ⟨rfl, -⟩ <;> rfl
  rw [hworld, hlog, ← htimer]
  exact ⟨congrArg Timer.queue (World.timer_setTimer_same _ t _), rfl⟩

end System

/-! ## The flag -/

/-- A new entry is at the root exactly if all others are later. -/
theorem World.isHead_push_iff {queue : Queue TaskRef} (hq : queue.IsHeap) {k : TaskRef}
    (hfresh : ∀ e ∈ queue.toList, e.item ≠ k) (due : Instant) :
    isHead (queue.push due k) k = true ↔ ∀ e ∈ queue.toList, due < e.due := by
  constructor
  · intro hflag e he
    by_contra hlate
    cases hpeek : queue.peek with
    | none =>
      rw [Queue.peek_eq_none_iff.1 hpeek] at he
      cases he
    | some head =>
      have hle : head.due ≤ due := Std.le_trans (hq.due_le hpeek he) (Std.not_lt.1 hlate)
      simp only [isHead, Queue.peek_push_of_le hpeek hle, decide_eq_true_eq] at hflag
      exact hfresh head (Queue.mem_of_peek hpeek) hflag
  · intro hlt
    simp [isHead, Queue.peek_push_of_lt hq hlt]

namespace System

variable {s : System} {a : Action} {t : TimerRef} {k : TaskRef} {due : Instant} {p : Period}

theorem Accepts.flag_iff (h : s.Accepts a t k due p) (hc : Coupled s.world) :
    World.isHead ((s.world.timer t).queue.push due k) k = true ↔
      ∀ e ∈ s.world.queued t, due < e.due :=
  World.isHead_push_iff (hc.isHeap t) (hc.not_queued_of_created h.created t) due

end System

/-! ## While the thread sleeps -/

/-- Each entry that `t` has queued in `w'` is no earlier than one it had queued in `w`. -/
def World.NothingEarlier (t : TimerRef) (w w' : World) : Prop :=
  ∀ e ∈ w'.queued t, ∃ e₀ ∈ w.queued t, e₀.due ≤ e.due

namespace World.NothingEarlier

variable {t : TimerRef} {w w' w'' : World}

theorem of_subset (h : w'.queued t ⊆ w.queued t) : w.NothingEarlier t w' :=
  fun e he => ⟨e, h he, Std.le_refl _⟩

theorem trans (h : w.NothingEarlier t w') (h' : w'.NothingEarlier t w'') :
    w.NothingEarlier t w'' := by
  intro e he
  obtain ⟨e₁, he₁, hle₁⟩ := h' e he
  obtain ⟨e₀, he₀, hle₀⟩ := h e₁ he₁
  exact ⟨e₀, he₀, Std.le_trans hle₀ hle₁⟩

/-- What the thread was to wait for is still the first thing to come. -/
theorem le_of_wait (h : w.NothingEarlier t w') (hc : Coupled w) {interim : List TaskRef}
    {due : Option Instant} (hwait : (w.work t interim).result = .wait due) :
    ∀ e ∈ w'.queued t, ∃ d, due = some d ∧ d ≤ e.due := by
  intro e he
  obtain ⟨e₀, he₀, hle⟩ := h e he
  rcases work_wait_iff.1 hwait with ⟨-, hnone, -⟩ | ⟨head, rfl, hpeek, -⟩
  · rw [queued, Queue.peek_eq_none_iff.1 hnone] at he₀
    cases he₀
  · exact ⟨head.due, rfl, Std.le_trans ((hc.isHeap t).due_le hpeek he₀) hle⟩

end World.NothingEarlier

namespace System

variable {acts : List Action} {t : TimerRef}

/-- Where the flag is not raised, what comes into the queue is no earlier than something there. -/
theorem nothingEarlier_next {a : Action} {events : List Event}
    (hlog : ((after acts).next a).log = (after acts).log ++ events)
    (hwork : ∀ interim, a ≠ .work t interim) (hflag : ∀ k p, .scheduled t k p true ∉ events) :
    (after acts).world.NothingEarlier t ((after acts).next a).world := by
  have hc := coupled_after acts
  by_cases haccepts : ∃ k due p, (after acts).Accepts a t k due p
  · obtain ⟨k, due, p, haccepts⟩ := haccepts
    obtain ⟨hqueue, hlog'⟩ := haccepts.queue_next
    obtain rfl := List.append_cancel_left (hlog.symm.trans hlog')
    intro e he
    rw [World.queued, hqueue] at he
    rcases List.mem_cons.1 ((Queue.toList_push _ due k).mem_iff.1 he) with rfl | hold
    · have hlate : ¬ ∀ e ∈ (after acts).world.queued t, due < e.due := by
        rw [← haccepts.flag_iff hc]
        intro hhead
        exact hflag k p (by rw [hhead]; exact List.mem_singleton_self _)
      simpa only [not_forall, exists_prop, Std.not_lt] using hlate
    · exact ⟨e, hold, Std.le_refl _⟩
  · refine .of_subset (queued_next hc (recorded_after acts) hwork ?_).subset
    exact fun k due p h => haccepts ⟨k, due, p, h⟩

theorem nothingEarlier_run {calls : List Action} {events : List Event}
    (hlog : ((after acts).run calls).log = (after acts).log ++ events)
    (hwork : ∀ interim, .work t interim ∉ calls) (hflag : ∀ k p, .scheduled t k p true ∉ events) :
    (after acts).world.NothingEarlier t ((after acts).run calls).world := by
  refine run_induction (P := fun calls s => ∀ events, s.log = (after acts).log ++ events →
    (∀ interim, .work t interim ∉ calls) → (∀ k p, .scheduled t k p true ∉ events) →
    (after acts).world.NothingEarlier t s.world)
    (fun _ _ _ _ => .of_subset (List.Subset.refl _)) (fun calls a ih events hlog hwork hflag => ?_)
    calls events hlog hwork hflag
  -- the flags of the calls before and those of the last one
  obtain ⟨first, hfirst⟩ := exists_log_run (after acts) calls
  rw [← after_append] at hfirst
  obtain ⟨last, -, hlast⟩ := (after (acts ++ calls)).changes_next a
  obtain rfl : events = first ++ last := by
    rw [hlast, hfirst, List.append_assoc] at hlog
    exact (List.append_cancel_left hlog).symm
  have before := ih first hfirst (fun interim hmem => hwork interim (List.mem_append_left _ hmem))
    fun k p hmem => hflag k p (List.mem_append_left _ hmem)
  refine before.trans (nothingEarlier_next hlast ?_ fun k p hmem =>
    hflag k p (List.mem_append_right _ hmem))
  rintro interim rfl
  exact hwork interim (by simp)

end System

/-- **A sleeping thread is woken when it must be.** After every run, a timer that accepts a task
tells that it is at the head of the queue exactly if nothing was queued, or the deadline is earlier
than those of all entries, cancelled tasks included. So as long as the thread takes no turn and no
submission to its timer tells so, whatever else is called and however the clocks move, nothing
comes into the queue that is earlier than all that was there. In particular every entry lies at or
after the deadline for which the thread went to sleep, and if it was waiting for the first task,
there is none. -/
theorem sleeping_thread_misses_nothing (t : TimerRef) (acts : List Action) :
    let s := System.after acts
    (∀ a k due p, s.Accepts a t k due p →
      ∃ newHead, (s.next a).log = s.log ++ [.scheduled t k p newHead] ∧
        (newHead = true ↔ s.world.queued t = [] ∨ ∀ e ∈ s.world.queued t, due < e.due)) ∧
    ∀ calls : List Action, (∀ interim, .work t interim ∉ calls) →
      let s' := s.run calls
      (∀ k p, .scheduled t k p true ∉ s'.log.drop s.log.length) →
      (∀ e ∈ s'.world.queued t, ∃ e₀ ∈ s.world.queued t, e₀.due ≤ e.due) ∧
        ∀ interim due, (s.world.work t interim).result = .wait due →
          ∀ e ∈ s'.world.queued t, ∃ d, due = some d ∧ d ≤ e.due := by
  have hc := coupled_after acts
  refine ⟨fun a k due p haccepts => ?_, ?_⟩
  · refine ⟨_, haccepts.queue_next.2, (haccepts.flag_iff hc).trans ⟨.inr, ?_⟩⟩
    rintro (hempty | hlt)
    · simp [hempty]
    · exact hlt
  · intro calls hwork s' hflag
    obtain ⟨events, hlog⟩ := System.exists_log_run (System.after acts) calls
    have hnew : s'.log.drop (System.after acts).log.length = events := by
      rw [show s'.log = _ from hlog, List.drop_left]
    have hnothing := System.nothingEarlier_run hlog hwork (hnew ▸ hflag)
    exact ⟨hnothing, fun interim due hwait => hnothing.le_of_wait hc hwait⟩

/-- Of three submissions the first and the last are told to be at the head; the second one comes
at the same time as the first, and does not overtake it. -/
example :
    (System.after
      [.startTimer { now := .origin, wall := .epoch }, .submitOnce ⟨0⟩ 5, .submitOnce ⟨0⟩ 5,
        .submitOnce ⟨0⟩ 4]).log =
      [.threadStarted ⟨0⟩, .scheduled ⟨0⟩ ⟨0⟩ .once true, .scheduled ⟨0⟩ ⟨1⟩ .once false,
        .scheduled ⟨0⟩ ⟨2⟩ .once true] := by
  decide +kernel

end TaskTimer
