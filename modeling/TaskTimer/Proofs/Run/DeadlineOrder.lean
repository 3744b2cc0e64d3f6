/-
TaskTimer.Proofs.Run.DeadlineOrder — a timer fires in the order of the deadlines.

That needs two things of a run, and no more (`System.Steady`): the clock of the timer never moves
back, and a submission reads the clock and queues its task in one step. Then a deadline that
comes into the queue is not before the present, and whatever fired was due by then. So nothing
can be queued any more with a deadline before one that has fired (`Punctual`), although bodies
run late, catch up, and submit, call off and purge as they like.
-/
import TaskTimer.Proofs.Run.Coupling

namespace TaskTimer

/-- The execution by `t` that an event tells of. -/
def Event.firingOn? (t : TimerRef) : Event → Option (Firing TaskRef)
  | .firing u f => if u = t then some f else none
  | _ => none

/-- The executions by `t`, the first one first. -/
def firingsOn (t : TimerRef) (log : List Event) : List (Firing TaskRef) :=
  log.filterMap (Event.firingOn? t)

theorem firingsOn_append (t : TimerRef) (log events : List Event) :
    firingsOn t (log ++ events) = firingsOn t log ++ firingsOn t events :=
  List.filterMap_append

theorem mem_firingsOn {t : TimerRef} {log : List Event} {f : Firing TaskRef} :
    f ∈ firingsOn t log ↔ .firing t f ∈ log := by
  constructor
  · intro hf
    obtain ⟨e, he, hef⟩ := List.mem_filterMap.1 hf
    cases e with
    | firing u g =>
      simp only [Event.firingOn?, Option.ite_none_right_eq_some, Option.some.injEq] at hef
      obtain ⟨rfl, rfl⟩ := hef
      exact he
    | _ => cases hef
  · exact fun he => List.mem_filterMap.2 ⟨_, he, if_pos rfl⟩

namespace System

/-- No execution on `t` but from a turn of its thread. -/
theorem firingsOn_next_of_ne {s : System} {t : TimerRef} {a : Action}
    (ha : ∀ interim, a ≠ .work t interim) :
    firingsOn t (s.next a).log = firingsOn t s.log := by
  refine keep_next (P := fun _ log => firingsOn t log = firingsOn t s.log)
    (fun {_ _ log events} hlog c => ?_) rfl
  have hnone : firingsOn t events = [] := by
    refine List.filterMap_eq_nil_iff.2 fun e he => ?_
    cases e with
    | firing u f =>
      refine if_neg fun hu => ?_
      subst hu
      obtain ⟨head, interim, hwork, -⟩ := c.firing_cases he
      exact ha interim hwork
    | _ => rfl
  rw [firingsOn_append, hnone, List.append_nil, hlog]

/-- The action does not move the clock of `t` back, and it is not a submission to `t` in two
steps. -/
def Steady (s : System) (t : TimerRef) : Action → Prop
  | .setClock u clock => u = t → s.world.HasTimer t → (s.world.timer t).clock.now ≤ clock.now
  | .insert u _ _ _ => u ≠ t
  | _ => True

instance (t : TimerRef) (s : System) : (a : Action) → Decidable (s.Steady t a)
  | .setClock _ _ => inferInstanceAs (Decidable (_ → _ → _))
  | .insert _ _ _ _ => inferInstanceAs (Decidable (_ ≠ _))
  | .newTask | .startTimer _ | .submission _ _ _ | .submitOnce _ _ | .submitRepeating _ _ _ _
  | .cancelTask _ | .cancelAll _ | .close _ | .purge _ | .work _ _ | .finish _ _ | .record _ _ =>
    inferInstanceAs (Decidable True)

end System

/-- What has fired on `t` fired in order and no earlier than due, and is due no later than the
present and than all that is queued. -/
structure Punctual (t : TimerRef) (w : World) (log : List Event) : Prop where
  known : ¬ w.HasTimer t → firingsOn t log = []
  due_le_firedAt : ∀ f ∈ firingsOn t log, f.due ≤ f.firedAt
  due_le_now : ∀ f ∈ firingsOn t log, f.due ≤ (w.timer t).clock.now
  due_le_queued : ∀ f ∈ firingsOn t log, ∀ e ∈ w.queued t, f.due ≤ e.due
  order : ((firingsOn t log).map (·.due)).Pairwise (· ≤ ·)

namespace Punctual

variable {t : TimerRef} {w : World} {log : List Event}

theorem start (t : TimerRef) : Punctual t .empty [] where
  known _ := rfl
  due_le_firedAt := by simp [firingsOn]
  due_le_now := by simp [firingsOn]
  due_le_queued := by simp [firingsOn]
  order := List.Pairwise.nil

/-- Where nothing has fired on `t`, there is nothing to say. -/
theorem of_firingsOn_eq_nil (h : firingsOn t log = []) (w : World) : Punctual t w log where
  known _ := h
  due_le_firedAt := by simp [h]
  due_le_now := by simp [h]
  due_le_queued := by simp [h]
  order := by simp [h]

/-- A world in which `t` is the same. -/
theorem congr (h : Punctual t w log) {w' : World} (htimer : w'.timer t = w.timer t)
    (hcount : w.timerCount ≤ w'.timerCount) : Punctual t w' log where
  known hnot := h.known fun ht => hnot (Nat.lt_of_lt_of_le ht hcount)
  due_le_firedAt := h.due_le_firedAt
  due_le_now := htimer ▸ h.due_le_now
  due_le_queued f hf e he := by
    rw [World.queued, htimer] at he
    exact h.due_le_queued f hf e he
  order := h.order

/-- Nothing fires on `t`, time goes on, and what is queued now was queued before or is not due
before the present. -/
theorem quiet (h : Punctual t w log) {w' : World} {events : List Event}
    (hcount : w.timerCount ≤ w'.timerCount)
    (hnow : (w.timer t).clock.now ≤ (w'.timer t).clock.now)
    (hqueued : ∀ e ∈ w'.queued t, e ∈ w.queued t ∨ (w.timer t).clock.now ≤ e.due)
    (hevents : firingsOn t events = []) : Punctual t w' (log ++ events) := by
  have same : firingsOn t (log ++ events) = firingsOn t log := by
    rw [firingsOn_append, hevents, List.append_nil]
  constructor
  · intro hnot
    rw [same]
    exact h.known fun ht => hnot (Nat.lt_of_lt_of_le ht hcount)
  · rw [same]
    exact h.due_le_firedAt
  · intro f hf
    rw [same] at hf
    exact Std.le_trans (h.due_le_now f hf) hnow
  · intro f hf e he
    rw [same] at hf
    rcases hqueued e he with hold | hlater
    · exact h.due_le_queued f hf e hold
    · exact Std.le_trans (h.due_le_now f hf) hlater
  · rw [same]
    exact h.order

/-- Another timer changes, or this one does so that time goes on and all that is new in its queue
lies ahead. -/
theorem setTimer (h : Punctual t w log) {u : TimerRef} {x : Timer} {events : List Event}
    (hx : u = t → (w.timer t).clock.now ≤ x.clock.now ∧
      ∀ e ∈ x.queue.toList, e ∈ w.queued t ∨ (w.timer t).clock.now ≤ e.due)
    (hevents : firingsOn t events = []) : Punctual t (w.setTimer u x) (log ++ events) := by
  by_cases hu : u = t
  · subst hu
    refine h.quiet (Nat.le_refl _) ?_ ?_ hevents
    · rw [World.timer_setTimer_same]
      exact (hx rfl).1
    · rw [World.queued, World.timer_setTimer_same]
      exact (hx rfl).2
  · have same : (w.setTimer u x).timer t = w.timer t := World.timer_setTimer_of_ne w (Ne.symm hu) x
    refine h.quiet (Nat.le_refl _) ?_ ?_ hevents
    · rw [same]
      exact Std.le_refl _
    · rw [World.queued, same]
      exact fun e he => .inl he

/-- The timer keeps its clock, and its queue gets no new entry. -/
theorem shrink (h : Punctual t w log) {u : TimerRef} {x : Timer} {events : List Event}
    (hclock : x.clock = (w.timer u).clock) (hqueue : ∀ e ∈ x.queue.toList, e ∈ w.queued u)
    (hevents : firingsOn t events = []) : Punctual t (w.setTimer u x) (log ++ events) := by
  refine h.setTimer ?_ hevents
  rintro rfl
  rw [hclock]
  exact ⟨Std.le_refl _, fun e he => .inl (hqueue e he)⟩

/-- The head fires: it is due by now, and all that stays queued is due no earlier. -/
theorem fire (h : Punctual t w log) {head : Entry TaskRef}
    (hfires : w.Fires t head) {w' : World} (hcount : w'.timerCount = w.timerCount)
    (hclock : (w'.timer t).clock = (w.timer t).clock)
    (hqueued : ∀ e ∈ w'.queued t, head.due ≤ e.due) :
    Punctual t w' (log ++ [.firing t (w.firing t head)]) := by
  have hnew : firingsOn t (log ++ [.firing t (w.firing t head)]) =
      firingsOn t log ++ [w.firing t head] := by
    rw [firingsOn_append]
    simp [firingsOn, Event.firingOn?]
  have hold : ∀ f ∈ firingsOn t log, f.due ≤ head.due := fun f hf =>
    h.due_le_queued f hf head (Queue.mem_of_peek hfires.peek)
  have hmem : ∀ f ∈ firingsOn t (log ++ [.firing t (w.firing t head)]),
      f ∈ firingsOn t log ∨ f = w.firing t head := by
    intro f hf
    rw [hnew] at hf
    simpa using hf
  constructor
  · intro hnot
    refine absurd ?_ hnot
    rw [World.HasTimer, hcount]
    exact hfires.hasTimer
  · intro f hf
    rcases hmem f hf with hf | rfl
    · exact h.due_le_firedAt f hf
    · exact hfires.due_le
  · intro f hf
    rw [hclock]
    rcases hmem f hf with hf | rfl
    · exact h.due_le_now f hf
    · exact hfires.due_le
  · intro f hf e he
    rcases hmem f hf with hf | rfl
    · exact Std.le_trans (hold f hf) (hqueued e he)
    · exact hqueued e he
  · rw [hnew, List.map_append, List.pairwise_append]
    refine ⟨h.order, List.pairwise_singleton _ _, ?_⟩
    intro due hdue due' hdue'
    obtain ⟨f, hf, rfl⟩ := List.mem_map.1 hdue
    obtain rfl := List.mem_singleton.1 hdue'
    exact hold f hf

theorem startTimer (h : Punctual t w log) (clock : Clock) :
    Punctual t { w.setTimer ⟨w.timerCount⟩ { clock := clock } with timerCount := w.timerCount + 1 }
      (log ++ [.threadStarted ⟨w.timerCount⟩]) := by
  by_cases ht : t = ⟨w.timerCount⟩
  · subst ht
    refine of_firingsOn_eq_nil ?_ _
    rw [firingsOn_append, h.known (Nat.lt_irrefl _)]
    rfl
  · have noted : Punctual t w (log ++ [.threadStarted ⟨w.timerCount⟩]) :=
      h.quiet (Nat.le_refl _) (Std.le_refl _) (fun e he => .inl he) rfl
    exact noted.congr (World.timer_setTimer_of_ne w ht _) (Nat.le_succ _)

/-- What is accepted is queued for the present or later. -/
theorem enqueue (h : Punctual t w log) {u : TimerRef} {k : TaskRef} {due : Instant}
    (hdue : u = t → (w.timer t).clock.now ≤ due) (period : Period) (newHead : Bool) :
    Punctual t (w.enqueue u k due period) (log ++ [.scheduled u k period newHead]) := by
  have taskChanged : ∀ x, Punctual t (w.setTask k x) log := fun _ => h.congr rfl (Nat.le_refl _)
  refine (taskChanged _).setTimer ?_ rfl
  rintro rfl
  refine ⟨Std.le_refl _, fun e he => ?_⟩
  rcases List.mem_cons.1 ((Queue.toList_push _ _ _).mem_iff.1 he) with rfl | hold
  · exact .inr (hdue rfl)
  · exact .inl hold

theorem retire (h : Punctual t w log) (hc : Coupled w) {u : TimerRef} {head : Entry TaskRef}
    (hfires : w.Fires u head) :
    Punctual t (w.retire u head) (log ++ [.firing u (w.firing u head)]) := by
  have hdrop := Queue.toList_dropMin hfires.peek
  by_cases hu : u = t
  · subst hu
    have htimer : (w.retire u head).timer u =
        { w.timer u with queue := (w.timer u).queue.dropMin } := World.timer_setTimer_same _ _ _
    refine h.fire hfires rfl (by rw [htimer]) fun e he => ?_
    rw [World.queued, htimer] at he
    exact (hc.isHeap u).due_le hfires.peek (hdrop.mem_iff.2 (List.mem_cons_of_mem _ he))
  · have dropped : Punctual t (w.dropHead u) (log ++ [.firing u (w.firing u head)]) := by
      refine h.shrink rfl (fun e he => hdrop.mem_iff.2 (List.mem_cons_of_mem _ he)) ?_
      simp [firingsOn, Event.firingOn?, hu]
    exact dropped.congr rfl (Nat.le_refl _)

/-- What fires repeatedly is next due no earlier. -/
theorem postpone (h : Punctual t w log) (hc : Coupled w) {u : TimerRef} {head : Entry TaskRef}
    {next : Instant} {queue : Queue TaskRef} (hfires : w.Fires u head) (hnext : head.due ≤ next)
    (hqueue : (w.timer u).queue.postponeMin next = .ok queue) :
    Punctual t (w.postpone u head next queue) (log ++ [.firing u (w.firing u head)]) := by
  by_cases hu : u = t
  · subst hu
    have htimer : (w.postpone u head next queue).timer u =
        { w.timer u with queue := queue } := World.timer_setTimer_same _ _ _
    refine h.fire hfires rfl (by rw [htimer]) fun e he => ?_
    rw [World.queued, htimer] at he
    obtain ⟨rest, hrest, hcontent⟩ := Queue.toList_postponeMin hfires.peek hqueue
    rcases List.mem_cons.1 (hcontent.mem_iff.1 he) with rfl | hold
    · exact hnext
    · refine (hc.isHeap u).due_le hfires.peek ?_
      rw [hrest]
      exact List.mem_cons_of_mem _ hold
  · have quiet : firingsOn t [.firing u (w.firing u head)] = [] := by
      simp [firingsOn, Event.firingOn?, hu]
    have moved : Punctual t (w.setTimer u { w.timer u with queue := queue })
        (log ++ [.firing u (w.firing u head)]) := h.setTimer (fun heq => absurd heq hu) quiet
    exact moved.congr rfl (Nat.le_refl _)

/-- Every change but a move of the clock of `t`, of which more has to be known. -/
theorem change {a : Action} {w' : World} {events : List Event} (h : Punctual t w log)
    (hc : Coupled w) (hclock : ∀ clock, a ≠ .setClock t clock)
    (hwhole : ∀ k due way, a ≠ .insert t k due way) (c : Change a w events w') :
    Punctual t w' (log ++ events) := by
  have untouched : ∀ {w' : World} {events : List Event}, w.timerCount ≤ w'.timerCount →
      w'.timer t = w.timer t → firingsOn t events = [] → Punctual t w' (log ++ events) := by
    intro w' events hcount htimer hevents
    refine h.quiet hcount ?_ ?_ hevents
    · rw [htimer]
      exact Std.le_refl _
    · rw [World.queued, htimer]
      exact fun e he => .inl he
  cases c with
  | newTask => exact untouched (Nat.le_refl _) rfl rfl
  | startTimer clock ha => exact h.startTimer clock
  | setClock u clock ha ht =>
    refine h.setTimer ?_ rfl
    rintro rfl
    exact absurd ha (hclock clock)
  | reject | cancel => exact untouched (Nat.le_refl _) rfl rfl
  | accept u k due period newHead ht hk hopen hnew hdue =>
    refine h.enqueue ?_ period newHead
    rintro rfl
    refine hdue.resolve_right ?_
    rintro ⟨way, ha⟩
    exact hwhole k due way ha
  | cancelAll u events ha ht hevents | record u bursts reason events ha ht hleaving hevents =>
    refine h.shrink rfl (by simp) ?_
    rcases hevents with rfl | ⟨n, rfl⟩ <;> rfl
  | close | rest | fail => exact h.shrink rfl (fun e he => he) rfl
  | purge u events ht hevents =>
    refine h.shrink rfl (fun e he => ?_) ?_
    · exact (List.mem_filter.1 ((Queue.purge_perm _ _).2.mem_iff.1 he)).1
    · rcases hevents with rfl | ⟨n, rfl⟩ <;> rfl
  | discard u head ht hpeek hcancelled =>
    refine h.shrink rfl (fun e he => ?_) rfl
    exact (Queue.toList_dropMin hpeek).mem_iff.2 (List.mem_cons_of_mem _ he)
  | retire u head interim ha hfires honce => exact h.retire hc hfires
  | postpone u head interim next queue ha hfires hnext hqueue =>
    exact h.postpone hc hfires (Period.le_of_next? hnext hfires.due_le) hqueue

end Punctual

namespace System

variable {t : TimerRef}

theorem punctual_next {s : System} {a : Action} (hc : Coupled s.world)
    (h : Punctual t s.world s.log) (hsteady : s.Steady t a) :
    Punctual t (s.next a).world (s.next a).log := by
  by_cases hclock : ∃ clock, a = .setClock t clock
  · obtain ⟨clock, rfl⟩ := hclock
    by_cases hadmits : s.Admits (.setClock t clock)
    · rw [next, if_pos hadmits]
      have moved : Punctual t (s.world.setClock t clock) (s.log ++ []) :=
        h.setTimer (fun _ => ⟨hsteady rfl hadmits, fun e he => .inl he⟩) rfl
      rw [List.append_nil] at moved
      exact moved
    · rwa [next, if_neg hadmits]
  · have hwhole : ∀ k due way, a ≠ .insert t k due way := by
      rintro k due way rfl
      exact hsteady rfl
    have both := keep_next (P := fun w log => Coupled w ∧ Punctual t w log)
      (fun h c => ⟨h.1.change c, h.2.change h.1 (fun clock ha => hclock ⟨clock, ha⟩) hwhole c⟩)
      ⟨hc, h⟩
    exact both.2

theorem punctual_after {acts : List Action} (hsteady : Along (·.Steady t) {} acts) :
    Punctual t (after acts).world (after acts).log := by
  induction acts using List.reverseRecOn with
  | nil => exact Punctual.start t
  | append_singleton acts a ih =>
    obtain ⟨hbefore, hlast, -⟩ := along_append.1 hsteady
    rw [after_concat]
    exact punctual_next (coupled_after acts) (ih hbefore) hlast

/-- What a turn fires is due no later than all that is queued. -/
theorem due_le_of_fire {acts : List Action} {interim : List TaskRef} {f : Firing TaskRef}
    (hadmits : (after acts).Admits (.work t interim))
    (hfire : ((after acts).world.work t interim).result = .fire f) :
    ∀ e ∈ (after acts).world.queued t, f.due ≤ e.due := by
  obtain ⟨head, hpeek, -, rfl, -⟩ := World.fires_of_work hadmits.1 hfire
  intro e he
  exact ((coupled_after acts).isHeap t).due_le hpeek he

end System

/-- **Deadlines in order.** Let the clock of `t` never move back in a run, and let every
submission to `t` be a single step. Then nothing fires on `t` before it is due; the deadlines of
what fires, one execution after another and whichever way the tasks repeat, never decrease; and a
task that fires is due no later than all that is queued at that moment or at any moment after. -/
theorem fires_in_deadline_order (t : TimerRef) (acts : List Action)
    (hsteady : System.Along (·.Steady t) {} acts) :
    let s := System.after acts
    (∀ f ∈ firingsOn t s.log, f.due ≤ f.firedAt) ∧
    ((firingsOn t s.log).map (·.due)).Pairwise (· ≤ ·) ∧
    (∀ pre interim post f, acts = pre ++ .work t interim :: post →
      (System.after pre).Admits (.work t interim) →
      ((System.after pre).world.work t interim).result = .fire f →
      ∀ e ∈ (System.after pre).world.queued t, f.due ≤ e.due) ∧
    ∀ f ∈ firingsOn t s.log, ∀ e ∈ s.world.queued t, f.due ≤ e.due := by
  have h := System.punctual_after hsteady
  refine ⟨h.due_le_firedAt, h.order, ?_, h.due_le_queued⟩
  intro pre interim post f _ hadmits hfire
  exact System.due_le_of_fire hadmits hfire

/-- Three tasks, one of each kind, that a timer gets to when all of them are overdue. -/
def lateRun : List Action :=
  [.startTimer { now := .origin, wall := .epoch }, .newTask, .newTask, .newTask,
    .submission ⟨0⟩ ⟨0⟩ (.fixedRate ⟨1, by decide, by decide⟩ ⟨2, by decide, by decide⟩),
    .submission ⟨0⟩ ⟨1⟩ (.once ⟨4, by decide, by decide⟩),
    .submission ⟨0⟩ ⟨2⟩ (.fixedDelay ⟨2, by decide, by decide⟩ ⟨3, by decide, by decide⟩),
    .setClock ⟨0⟩ { now := ⟨6, by decide, by decide⟩, wall := .epoch },
    .work ⟨0⟩ [], .finish ⟨0⟩ .returned, .work ⟨0⟩ [], .finish ⟨0⟩ .returned,
    .work ⟨0⟩ [], .finish ⟨0⟩ .returned, .work ⟨0⟩ [], .finish ⟨0⟩ .returned, .work ⟨0⟩ []]

theorem fires_in_deadline_order_lateRun :
    System.Along (·.Steady ⟨0⟩) {} lateRun ∧
      (firingsOn ⟨0⟩ (System.after lateRun).log).map (·.due.val) = [1, 2, 3, 4, 5] ∧
      ((firingsOn ⟨0⟩ (System.after lateRun).log).map (·.due)).Pairwise (· ≤ ·) := by
  have steady : System.Along (·.Steady ⟨0⟩) {} lateRun := by decide +kernel
  exact ⟨steady, by decide +kernel, (fires_in_deadline_order ⟨0⟩ lateRun steady).2.1⟩

end TaskTimer
