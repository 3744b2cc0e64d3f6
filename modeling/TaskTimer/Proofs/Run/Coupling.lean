/-
TaskTimer.Proofs.Run.Coupling — queues and tasks fit together throughout a run.

The deadline of a queued task is kept twice, in the entry and with the task, and several
operations move it. `Coupled` says that the two agree, that the entries are in the layout of a
heap, that only tasks which are scheduled or called off are queued, and that no task is queued
twice, be it by one timer or by two. Every elementary change keeps it (`Coupled.change`), so it
holds after every run (`coupled_after`).
-/
import Mathlib.Data.List.Perm.Subperm
import TaskTimer.Proofs.Run.Change

namespace TaskTimer

/-- The entries a timer has queued, in storage order. -/
def World.queued (w : World) (t : TimerRef) : List (Entry TaskRef) := (w.timer t).queue.toList

/-- What ties the queues of a world to its tasks. -/
structure Coupled (w : World) : Prop where
  isHeap : ∀ t, (w.timer t).queue.IsHeap
  live : ∀ t, ∀ e ∈ w.queued t,
    (w.task e.item).state = .scheduled ∨ (w.task e.item).state = .cancelled
  next : ∀ t, ∀ e ∈ w.queued t, (w.task e.item).next = some e.due
  nodup : ∀ t, ((w.queued t).map (·.item)).Nodup
  apart : ∀ t u, t ≠ u → ∀ e ∈ w.queued t, ∀ f ∈ w.queued u, e.item ≠ f.item
  known : ∀ t, ∀ e ∈ w.queued t, w.HasTask e.item

namespace Coupled

theorem start : Coupled .empty where
  isHeap _ := Queue.isHeap_empty
  live _ e he := by cases he
  next _ e he := by cases he
  nodup _ := List.nodup_nil
  apart _ _ _ e he := by cases he
  known _ e he := by cases he

variable {w : World}

/-! ## Entries leave a queue -/

theorem nodup_of_subperm {l l' : List (Entry TaskRef)} (h : l.Subperm l')
    (hnodup : (l'.map (·.item)).Nodup) : (l.map (·.item)).Nodup := by
  obtain ⟨m, hperm, hsub⟩ := h
  exact (hperm.map (·.item)).nodup_iff.1 ((hsub.map _).nodup hnodup)

/-- A timer may lose entries, as long as a heap is left. -/
theorem setTimer (h : Coupled w) {t : TimerRef} {x : Timer} (heap : x.queue.IsHeap)
    (sub : x.queue.toList.Subperm (w.queued t)) : Coupled (w.setTimer t x) := by
  have shrunk : ∀ u, ((w.setTimer t x).queued u).Subperm (w.queued u) := by
    intro u
    by_cases hu : u = t
    · subst hu
      simpa only [World.queued, World.timer_setTimer_same] using sub
    · simp only [World.queued, World.timer_setTimer_of_ne w hu]
      exact List.Subperm.refl _
  constructor
  · intro u
    exact World.keep_setTimer (P := fun y => y.queue.IsHeap) (h.isHeap u) fun _ => heap
  · exact fun u e he => h.live u e ((shrunk u).subset he)
  · exact fun u e he => h.next u e ((shrunk u).subset he)
  · exact fun u => nodup_of_subperm (shrunk u) (h.nodup u)
  · exact fun u v huv e he f hf =>
      h.apart u v huv e ((shrunk u).subset he) f ((shrunk v).subset hf)
  · exact fun u e he => h.known u e ((shrunk u).subset he)

/-- The numbers of timers and tasks may grow. -/
theorem ofCounts (h : Coupled w) {n m : Nat} (hm : w.taskCount ≤ m) :
    Coupled { w with timerCount := n, taskCount := m } where
  isHeap := h.isHeap
  live := h.live
  next := h.next
  nodup := h.nodup
  apart := h.apart
  known t e he := Nat.lt_of_lt_of_le (h.known t e he) hm

theorem dropHead (h : Coupled w) {t : TimerRef} {head : Entry TaskRef}
    (hpeek : (w.timer t).queue.peek = some head) : Coupled (w.dropHead t) := by
  refine h.setTimer (Queue.isHeap_dropMin (h.isHeap t)) ?_
  exact (List.sublist_cons_self head _).subperm.trans (Queue.toList_dropMin hpeek).symm.subperm

theorem purge (h : Coupled w) (t : TimerRef) :
    Coupled (w.setTimer t
      { w.timer t with queue := ((w.timer t).queue.purge w.isCancelled).2 }) := by
  refine h.setTimer (Queue.isHeap_purge (h.isHeap t) _) ?_
  exact (Queue.purge_perm _ _).2.subperm.trans List.filter_sublist.subperm

/-! ## A task changes -/

/-- A task may change in any way if no timer has it queued. -/
theorem setTask_of_not_queued (h : Coupled w) {k : TaskRef} (x : Task)
    (hk : ∀ t, ∀ e ∈ w.queued t, e.item ≠ k) : Coupled (w.setTask k x) where
  isHeap := h.isHeap
  live t e he := by
    rw [World.task_setTask_of_ne w (hk t e he)]
    exact h.live t e he
  next t e he := by
    rw [World.task_setTask_of_ne w (hk t e he)]
    exact h.next t e he
  nodup := h.nodup
  apart := h.apart
  known := h.known

theorem cancel (h : Coupled w) (k : TaskRef) :
    Coupled (w.setTask k { w.task k with state := .cancelled }) where
  isHeap := h.isHeap
  live t e he := by
    rw [World.task_setTask]
    split
    · exact .inr rfl
    · exact h.live t e he
  next t e he := by
    rw [World.task_setTask]
    split
    · next hek => exact hek ▸ h.next t e he
    · exact h.next t e he
  nodup := h.nodup
  apart := h.apart
  known := h.known

theorem not_queued_of_created (h : Coupled w) {k : TaskRef} (hk : (w.task k).state = .created)
    (t : TimerRef) : ∀ e ∈ w.queued t, e.item ≠ k := by
  rintro e he rfl
  rcases h.live t e he with hs | hs <;> rw [hk] at hs <;> cases hs

theorem newTask (h : Coupled w) :
    Coupled { w.setTask ⟨w.taskCount⟩ {} with taskCount := w.taskCount + 1 } := by
  refine (h.setTask_of_not_queued {} fun t e he hek => ?_).ofCounts (Nat.le_succ _)
  have := h.known t e he
  rw [hek] at this
  exact Nat.lt_irrefl _ this

/-! ## An entry comes in, or changes its place -/

/-- One timer's queue changes and one task with it. What is asked for: the layout, the entry that
the task has now, and that all else in the queue was there and is of other tasks. -/
theorem setTimer_setTask (h : Coupled w) {t : TimerRef} {x : Timer} (e₀ : Entry TaskRef)
    {rest : List (Entry TaskRef)} {task : Task} (heap : x.queue.IsHeap)
    (content : x.queue.toList.Perm (e₀ :: rest)) (sub : rest.Subperm (w.queued t))
    (others : ∀ e ∈ rest, e.item ≠ e₀.item)
    (elsewhere : ∀ u, u ≠ t → ∀ e ∈ w.queued u, e.item ≠ e₀.item) (hk : w.HasTask e₀.item)
    (live : task.state = .scheduled ∨ task.state = .cancelled) (next : task.next = some e₀.due) :
    Coupled ((w.setTimer t x).setTask e₀.item task) := by
  let w' := (w.setTimer t x).setTask e₀.item task
  have at_t : ∀ e, e ∈ w'.queued t ↔ e = e₀ ∨ e ∈ rest := by
    intro e
    show e ∈ ((w.setTimer t x).timer t).queue.toList ↔ _
    rw [World.timer_setTimer_same, content.mem_iff, List.mem_cons]
  have at_other : ∀ u, u ≠ t → w'.queued u = w.queued u := by
    intro u hu
    show ((w.setTimer t x).timer u).queue.toList = _
    rw [World.timer_setTimer_of_ne w hu]
    rfl
  have split : ∀ u, ∀ e ∈ w'.queued u, u = t ∧ e = e₀ ∨ e ∈ w.queued u ∧ e.item ≠ e₀.item := by
    intro u e he
    by_cases hu : u = t
    · subst hu
      rcases (at_t e).1 he with heq | hin
      · exact .inl ⟨rfl, heq⟩
      · exact .inr ⟨sub.subset hin, others e hin⟩
    · rw [at_other u hu] at he
      exact .inr ⟨he, elsewhere u hu e he⟩
  constructor
  · intro u
    show ((w.setTimer t x).timer u).queue.IsHeap
    exact World.keep_setTimer (P := fun y => y.queue.IsHeap) (h.isHeap u) fun _ => heap
  · intro u e he
    rcases split u e he with ⟨_, rfl⟩ | ⟨hold, hne⟩
    · simpa only [World.task_setTask_same] using live
    · rw [World.task_setTask_of_ne _ hne]
      exact h.live u e hold
  · intro u e he
    rcases split u e he with ⟨_, rfl⟩ | ⟨hold, hne⟩
    · simpa only [World.task_setTask_same] using next
    · rw [World.task_setTask_of_ne _ hne]
      exact h.next u e hold
  · intro u
    by_cases hu : u = t
    · subst hu
      show (((w.setTimer u x).timer u).queue.toList.map (·.item)).Nodup
      rw [World.timer_setTimer_same, (content.map _).nodup_iff, List.map_cons, List.nodup_cons]
      refine ⟨fun hmem => ?_, nodup_of_subperm sub (h.nodup u)⟩
      obtain ⟨e, he, heq⟩ := List.mem_map.1 hmem
      exact others e he heq
    · rw [at_other u hu]
      exact h.nodup u
  · intro u v huv e he f hf hef
    rcases split u e he with ⟨rfl, rfl⟩ | ⟨hold, hne⟩
    · rcases split v f hf with ⟨rfl, _⟩ | ⟨_, hne'⟩
      · exact huv rfl
      · exact hne' hef.symm
    · rcases split v f hf with ⟨_, rfl⟩ | ⟨hold', _⟩
      · exact hne hef
      · exact h.apart u v huv e hold f hold' hef
  · intro u e he
    rcases split u e he with ⟨_, rfl⟩ | ⟨hold, _⟩
    · exact hk
    · exact h.known u e hold

theorem enqueue (h : Coupled w) {t : TimerRef} {k : TaskRef} (hk : w.HasTask k)
    (hnew : (w.task k).state = .created) (due : Instant) (period : Period) :
    Coupled (w.enqueue t k due period) := by
  have fresh := h.not_queued_of_created hnew
  exact h.setTimer_setTask ⟨due, k⟩ (Queue.isHeap_push (h.isHeap t) due k)
    (Queue.toList_push _ due k) (List.Subperm.refl _) (fresh t) (fun u _ => fresh u) hk
    (.inl rfl) rfl

/-- The other entries of a queue are of other tasks than the head. -/
theorem item_ne_of_peek (h : Coupled w) {t : TimerRef} {head : Entry TaskRef}
    {rest : List (Entry TaskRef)} (hq : (w.queued t).Perm (head :: rest)) :
    ∀ e ∈ rest, e.item ≠ head.item := by
  intro e he heq
  have := (hq.map (·.item)).nodup_iff.1 (h.nodup t)
  rw [List.map_cons, List.nodup_cons] at this
  exact this.1 (List.mem_map.2 ⟨e, he, heq⟩)

theorem retire (h : Coupled w) {t : TimerRef} {head : Entry TaskRef} (hfires : w.Fires t head) :
    Coupled (w.retire t head) := by
  refine (h.dropHead hfires.peek).setTask_of_not_queued _ fun u e he => ?_
  by_cases hu : u = t
  · subst hu
    refine h.item_ne_of_peek (Queue.toList_dropMin hfires.peek) e ?_
    simpa only [World.queued, World.dropHead, World.timer_setTimer_same] using he
  · simp only [World.queued, World.dropHead, World.timer_setTimer_of_ne w hu] at he
    exact h.apart u t hu e he head (Queue.mem_of_peek hfires.peek)

theorem postpone (h : Coupled w) {t : TimerRef} {head : Entry TaskRef} {next : Instant}
    {queue : Queue TaskRef} (hfires : w.Fires t head)
    (hqueue : (w.timer t).queue.postponeMin next = .ok queue) :
    Coupled (w.postpone t head next queue) := by
  obtain ⟨rest, hrest, hcontent⟩ := Queue.toList_postponeMin hfires.peek hqueue
  have hmem : head ∈ w.queued t := Queue.mem_of_peek hfires.peek
  have hq : w.queued t = head :: rest := hrest
  have others : ∀ e ∈ rest, e.item ≠ head.item := h.item_ne_of_peek (List.Perm.of_eq hq)
  refine h.setTimer_setTask { head with due := next }
    (Queue.isHeap_postponeMin (h.isHeap t) hqueue) hcontent ?_ others ?_ (h.known t head hmem)
    (h.live t head hmem) rfl
  · rw [hq]
    exact (List.sublist_cons_self _ _).subperm
  · exact fun u hu e he => h.apart u t hu e he head hmem

/-! ## Every change -/

theorem change {a : Action} {w' : World} {events : List Event} (h : Coupled w)
    (c : Change a w events w') : Coupled w' := by
  have keep : ∀ {t : TimerRef} {x : Timer}, x.queue = (w.timer t).queue →
      Coupled (w.setTimer t x) := by
    intro t x hx
    exact h.setTimer (hx ▸ h.isHeap t) (hx ▸ List.Subperm.refl _)
  have clear : ∀ {t : TimerRef} {x : Timer}, x.queue = .empty → Coupled (w.setTimer t x) := by
    intro t x hx
    exact h.setTimer (hx ▸ Queue.isHeap_empty) (hx ▸ List.nil_subperm)
  cases c with
  | newTask => exact h.newTask
  | startTimer clock ha => exact (clear rfl).ofCounts (Nat.le_refl _)
  | setClock t clock => exact keep rfl
  | reject t k => exact h
  | accept t k due period newHead ht hk hopen hnew hdue => exact h.enqueue hk hnew due period
  | cancel k hk hopen => exact h.cancel k
  | cancelAll t events ha ht hevents => exact clear rfl
  | close t n ht => exact keep rfl
  | purge t events ht hevents => exact h.purge t
  | discard t head ht hpeek hcancelled => exact h.dropHead hpeek
  | retire t head interim ha hfires honce => exact h.retire hfires
  | postpone t head interim next queue ha hfires hnext hqueue => exact h.postpone hfires hqueue
  | rest t interim ha ht hgoing hempty hclosed => exact keep rfl
  | fail t ending k stage ha ht hgoing hexit => exact keep rfl
  | record t bursts reason events ha ht hleaving hevents => exact clear rfl

end Coupled

/-- Queues and tasks fit together after every run. -/
theorem coupled_after (acts : List Action) : Coupled (System.after acts).world :=
  System.keep_after (P := fun w _ => Coupled w) Coupled.start (fun h c => h.change c) acts

/-- **The coupling of queues and tasks.** After every run, of any timers and in any order of
calls, turns, bodies and moves of the clocks: every queue is a heap; every entry's task is
scheduled or called off and holds the entry's deadline; and no task is queued twice. -/
theorem queues_coupled_with_tasks (acts : List Action) :
    let w := (System.after acts).world
    (∀ t, ∀ k above below, 2 ≤ k → (w.timer t).queue.get? (k / 2) = some above →
      (w.timer t).queue.get? k = some below → above.due ≤ below.due) ∧
    (∀ t, ∀ e ∈ (w.timer t).queue.toList,
      ((w.task e.item).state = .scheduled ∨ (w.task e.item).state = .cancelled) ∧
        (w.task e.item).next = some e.due) ∧
    (∀ t, ((w.timer t).queue.toList.map (·.item)).Nodup) ∧
    ∀ t u, t ≠ u → ∀ e ∈ (w.timer t).queue.toList, ∀ f ∈ (w.timer u).queue.toList,
      e.item ≠ f.item := by
  have h := coupled_after acts
  exact ⟨h.isHeap, fun t e he => ⟨h.live t e he, h.next t e he⟩, h.nodup, h.apart⟩

end TaskTimer
