/-
TaskTimer.Proofs.Run.Record — the record of a task tells its history.

A task is called off if and only if the log says so, it counts the executions that the log shows,
and it repeats as it was submitted (`TaskRecord`). With that goes the order of the log: after the
event that calls a task off, no event of that task fits its state (`Recorded.order`). Every
elementary change keeps both (`Recorded.change`), so they hold after every run
(`recorded_after`), and other invariants may lean on them (`System.keep_after_recorded`).

Many invariants are about one record at a time. Of such a record an elementary change makes one of
five things (`Task.Changed`), wherever the task is queued and whatever happens to other tasks, and
these five cases are all that has to be looked at (`System.keep_records`).
-/
import TaskTimer.Proofs.Run.Coupling

namespace TaskTimer

namespace Event

/-- Whether the event is an execution of the task `k`. -/
def fires (k : TaskRef) : Event → Bool
  | .firing _ f => f.task = k
  | _ => false

/-- The task whose record changes with the event. -/
def task? : Event → Option TaskRef
  | .firing _ f => some f.task
  | .taskCancelled k | .scheduled _ k _ _ => some k
  | _ => none

/-- Whether `e'` may come after `e`: a task that was called off does not fire any more, and is
not called off again. -/
def Permits (e e' : Event) : Prop :=
  ∀ k, e = .taskCancelled k → e' ≠ .taskCancelled k ∧ e'.fires k = false

theorem fires_firing (t : TimerRef) (f : Firing TaskRef) : (firing t f).fires f.task = true := by
  simp [fires]

/-- An event about another task, or about none, is no execution of `k`. -/
theorem fires_of_task?_ne {e : Event} {k : TaskRef} (h : e.task? ≠ some k) :
    e.fires k = false := by
  cases e with
  | firing t f => simpa [fires, task?] using h
  | _ => rfl

end Event

/-- The record `x` of the task `k` tells what the log shows of it. -/
structure TaskRecord (k : TaskRef) (x : Task) (log : List Event) : Prop where
  cancelled : .taskCancelled k ∈ log ↔ x.state = .cancelled
  executions : x.executions = log.countP (Event.fires k)
  accepted : ∀ t p b, .scheduled t k p b ∈ log → x.period = p ∧ x.state ≠ .created
  fresh : x.state = .created → x.executions = 0
  once : x.period = .once → 0 < x.executions → x.state = .executed

namespace TaskRecord

variable {k : TaskRef} {x : Task} {log : List Event}

theorem start (k : TaskRef) : TaskRecord k {} [] where
  cancelled := by simp
  executions := rfl
  accepted := by simp
  fresh _ := rfl
  once _ h := absurd h (Nat.lt_irrefl 0)

/-- Events about other tasks leave a record right. -/
theorem append (h : TaskRecord k x log) {events : List Event}
    (hother : ∀ e ∈ events, e.task? ≠ some k) : TaskRecord k x (log ++ events) where
  cancelled := by
    rw [List.mem_append, ← h.cancelled]
    exact or_iff_left fun hmem => hother _ hmem rfl
  executions := by
    have hnone : events.countP (Event.fires k) = 0 :=
      List.countP_eq_zero.2 fun e he => by simp [Event.fires_of_task?_ne (hother e he)]
    rw [List.countP_append, hnone, h.executions, Nat.add_zero]
  accepted t p b hmem := by
    rcases List.mem_append.1 hmem with hmem | hmem
    · exact h.accepted t p b hmem
    · exact absurd rfl (hother _ hmem)
  fresh := h.fresh
  once := h.once

theorem accept (h : TaskRecord k x log) (hnew : x.state = .created) (t : TimerRef)
    (due : Instant) (period : Period) (newHead : Bool) :
    TaskRecord k { x with state := .scheduled, next := some due, period := period }
      (log ++ [.scheduled t k period newHead]) where
  cancelled := by simp [h.cancelled, hnew]
  executions := by simp [h.executions, Event.fires]
  accepted u p b hmem := by
    rcases List.mem_append.1 hmem with hmem | hmem
    · exact absurd hnew (h.accepted u p b hmem).2
    · simp_all
  fresh := by simp
  once _ hpos := by
    rw [h.fresh hnew] at hpos
    exact absurd hpos (Nat.lt_irrefl 0)

theorem cancel (h : TaskRecord k x log) (hopen : x.state.canBecome .cancelled) :
    TaskRecord k { x with state := .cancelled } (log ++ [.taskCancelled k]) where
  cancelled := by simp
  executions := by simp [h.executions, Event.fires]
  accepted t p b hmem := by
    refine ⟨(h.accepted t p b ?_).1, by simp⟩
    simpa using hmem
  fresh := by simp
  once honce hpos := by
    rw [h.once honce hpos] at hopen
    cases hopen

/-- A record of a task that fires, with its execution counted. -/
theorem fire (h : TaskRecord k x log) {y : Task} (hlive : x.state = .scheduled)
    (hexecutions : y.executions = x.executions + 1) (hperiod : y.period = x.period)
    (hstate : y.period = .once ∧ y.state = .executed ∨ y.period ≠ .once ∧ y.state = .scheduled)
    (t : TimerRef) (f : Firing TaskRef) (hf : f.task = k) :
    TaskRecord k y (log ++ [.firing t f]) where
  cancelled := by
    have hx : .taskCancelled k ∉ log := by simp [h.cancelled, hlive]
    rcases hstate with ⟨-, hy⟩ | ⟨-, hy⟩ <;> simp [hx, hy]
  executions := by
    rw [List.countP_append, hexecutions, h.executions]
    simp [Event.fires, hf]
  accepted u p b hmem := by
    rw [hperiod]
    refine ⟨(h.accepted u p b (by simpa using hmem)).1, ?_⟩
    rcases hstate with ⟨-, hy⟩ | ⟨-, hy⟩ <;> simp [hy]
  fresh hy := by
    rcases hstate with ⟨-, hy'⟩ | ⟨-, hy'⟩ <;> rw [hy'] at hy <;> cases hy
  once honce _ := by
    rcases hstate with ⟨-, hy⟩ | ⟨hnot, -⟩
    · exact hy
    · exact absurd honce hnot

end TaskRecord

/-- The records of all tasks tell what the log shows, and the log is in order. -/
structure Recorded (w : World) (log : List Event) : Prop where
  task : ∀ k, TaskRecord k (w.task k) log
  unmade : ∀ k, ¬ w.HasTask k → w.task k = {}
  order : log.Pairwise Event.Permits

namespace Recorded

variable {w : World} {log : List Event}

theorem start : Recorded .empty [] where
  task := TaskRecord.start
  unmade _ _ := rfl
  order := List.Pairwise.nil

/-- An event may come next if its task, when it has one, is not called off. -/
theorem order_concat (h : Recorded w log) {e : Event}
    (hlive : ∀ k, e.task? = some k → (w.task k).state ≠ .cancelled) :
    (log ++ [e]).Pairwise Event.Permits := by
  refine List.pairwise_append.2 ⟨h.order, List.pairwise_singleton _ _, ?_⟩
  rintro e' he' e'' he'' k rfl
  obtain rfl := List.mem_singleton.1 he''
  have hcancelled := (h.task k).cancelled.1 he'
  refine ⟨?_, Event.fires_of_task?_ne fun hk => hlive k hk hcancelled⟩
  rintro rfl
  exact hlive k rfl hcancelled

/-- A world with the same tasks has the same records. -/
theorem congr (h : Recorded w log) {w' : World} (htask : ∀ k, w'.task k = w.task k)
    (hcount : w.taskCount ≤ w'.taskCount) : Recorded w' log where
  task k := htask k ▸ h.task k
  unmade k hk := (htask k).trans (h.unmade k fun hk' => hk (Nat.lt_of_lt_of_le hk' hcount))
  order := h.order

/-- An event about no task changes no record. -/
theorem note (h : Recorded w log) {w' : World} {events : List Event}
    (htask : ∀ k, w'.task k = w.task k) (hcount : w.taskCount ≤ w'.taskCount)
    (hevents : events = [] ∨ ∃ e, events = [e] ∧ e.task? = none) :
    Recorded w' (log ++ events) := by
  rcases hevents with rfl | ⟨e, rfl, he⟩
  · rw [List.append_nil]
    exact h.congr htask hcount
  · constructor
    · intro k
      rw [htask]
      refine (h.task k).append fun e' he' => ?_
      rw [List.mem_singleton.1 he', he]
      exact Option.some_ne_none k |>.symm
    · exact (h.congr htask hcount).unmade
    · exact h.order_concat fun k hk => by simp [he] at hk

/-- One task changes, with an event that says so. -/
theorem setTask (h : Recorded w log) {k : TaskRef} {e : Event} {x : Task} (hk : w.HasTask k)
    (he : e.task? = some k) (hlive : (w.task k).state ≠ .cancelled)
    (hx : TaskRecord k x (log ++ [e])) : Recorded (w.setTask k x) (log ++ [e]) where
  task j := by
    rw [World.task_setTask]
    split
    · next hj => exact hj ▸ hx
    · next hj =>
      refine (h.task j).append fun e' he' hj' => hj ?_
      rw [List.mem_singleton.1 he', he] at hj'
      exact (Option.some.inj hj').symm
  unmade j hj := by
    have hjk : j ≠ k := fun hjk => hj (hjk ▸ hk)
    rw [World.task_setTask_of_ne w hjk]
    exact h.unmade j hj
  order := h.order_concat fun j hj => by
    rw [he] at hj
    exact Option.some.inj hj ▸ hlive

/-- A task that is made had a blank record before. -/
theorem task_newTask (h : Recorded w log) (k : TaskRef) :
    (w.setTask ⟨w.taskCount⟩ {}).task k = w.task k := by
  by_cases hk : k = ⟨w.taskCount⟩
  · subst hk
    rw [World.task_setTask_same, h.unmade _ (Nat.lt_irrefl _)]
  · exact World.task_setTask_of_ne w hk {}

/-- What fires was scheduled until then. -/
theorem scheduled_of_fires (hc : Coupled w) {t : TimerRef} {head : Entry TaskRef}
    (hfires : w.Fires t head) : (w.task head.item).state = .scheduled :=
  (hc.live t head (Queue.mem_of_peek hfires.peek)).resolve_right hfires.live

theorem retire (h : Recorded w log) (hc : Coupled w) {t : TimerRef} {head : Entry TaskRef}
    (hfires : w.Fires t head) (honce : (w.task head.item).period = .once) :
    Recorded (w.retire t head) (log ++ [.firing t (w.firing t head)]) := by
  have hs := scheduled_of_fires hc hfires
  have hk := hc.known t head (Queue.mem_of_peek hfires.peek)
  have dropped : Recorded (w.dropHead t) log := h.congr (fun _ => rfl) (Nat.le_refl _)
  refine dropped.setTask hk rfl hfires.live ?_
  refine (h.task head.item).fire hs ?_ ?_ (.inl ⟨?_, ?_⟩) t (w.firing t head) rfl
  · rfl
  · rfl
  · exact honce
  · rfl

theorem postpone (h : Recorded w log) (hc : Coupled w) {t : TimerRef} {head : Entry TaskRef}
    {next : Instant} (queue : Queue TaskRef) (hfires : w.Fires t head)
    (hnext : (w.task head.item).period.next? head.due (w.timer t).clock.now = some next) :
    Recorded (w.postpone t head next queue) (log ++ [.firing t (w.firing t head)]) := by
  have hs := scheduled_of_fires hc hfires
  have hk := hc.known t head (Queue.mem_of_peek hfires.peek)
  have hmore : (w.task head.item).period ≠ .once := by
    intro honce
    rw [honce] at hnext
    cases hnext
  have moved : Recorded (w.setTimer t { w.timer t with queue := queue }) log :=
    h.congr (fun _ => rfl) (Nat.le_refl _)
  refine moved.setTask hk rfl hfires.live ?_
  refine (h.task head.item).fire hs ?_ ?_ (.inr ⟨?_, ?_⟩) t (w.firing t head) rfl
  · rfl
  · rfl
  · exact hmore
  · exact hs

theorem change {a : Action} {w' : World} {events : List Event} (h : Recorded w log)
    (hc : Coupled w) (c : Change a w events w') : Recorded w' (log ++ events) := by
  have quiet : ∀ {e : Event}, e.task? = none →
      [e] = [] ∨ ∃ e', [e] = [e'] ∧ e'.task? = none := fun he => .inr ⟨_, rfl, he⟩
  cases c with
  | newTask => exact h.note h.task_newTask (Nat.le_succ _) (.inl rfl)
  | accept t k due period newHead ht hk hopen hnew hdue =>
    have accepted : Recorded (w.setTask k _) _ :=
      h.setTask hk rfl (by simp [hnew]) ((h.task k).accept hnew t due period newHead)
    exact accepted.congr (fun _ => rfl) (Nat.le_refl _)
  | cancel k hk hopen =>
    have hlive : (w.task k).state ≠ .cancelled := by
      intro hs
      rw [hs] at hopen
      cases hopen
    exact h.setTask hk rfl hlive ((h.task k).cancel hopen)
  | retire t head interim ha hfires honce => exact h.retire hc hfires honce
  | postpone t head interim next queue ha hfires hnext hqueue =>
    exact h.postpone hc queue hfires hnext
  | setClock | discard | rest | fail => exact h.note (fun _ => rfl) (Nat.le_refl _) (.inl rfl)
  | cancelAll t events ha ht hevents | purge t events ht hevents
  | record t bursts reason events ha ht hleaving hevents =>
    refine h.note (fun _ => rfl) (Nat.le_refl _) (hevents.imp id ?_)
    rintro ⟨n, rfl⟩
    exact ⟨_, rfl, rfl⟩
  | startTimer | reject | close =>
    exact h.note (fun _ => rfl) (Nat.le_refl _) (quiet rfl)

end Recorded

/-- The records tell what the log shows after every run. -/
theorem recorded_after (acts : List Action) :
    Recorded (System.after acts).world (System.after acts).log := by
  have both := System.keep_after (P := fun w log => Coupled w ∧ Recorded w log)
    ⟨Coupled.start, Recorded.start⟩ (fun h c => ⟨h.1.change c, h.2.change h.1 c⟩) acts
  exact both.2

/-! ## One record -/

/-- What an elementary change, with these events, makes of the record `x` of the task `k`. -/
inductive Task.Changed (k : TaskRef) (x : Task) : List Event → Task → Prop
  | other {events : List Event} (hother : ∀ e ∈ events, e.task? ≠ some k) : Changed k x events x
  | accept (t : TimerRef) (due : Instant) (period : Period) (newHead : Bool)
      (hnew : x.state = .created) (hperiod : period.Positive) :
    Changed k x [.scheduled t k period newHead]
      { x with state := .scheduled, next := some due, period := period }
  | cancel (hopen : x.state.canBecome .cancelled = true) :
    Changed k x [.taskCancelled k] { x with state := .cancelled }
  | retire (t : TimerRef) (f : Firing TaskRef) (hk : f.task = k) (hlive : x.state = .scheduled)
      (hdue : x.next = some f.due) (hmode : f.period = x.period) (honce : x.period = .once) :
    Changed k x [.firing t f] { x with executions := x.executions + 1, state := .executed }
  | postpone (t : TimerRef) (f : Firing TaskRef) (next : Instant) (hk : f.task = k)
      (hlive : x.state = .scheduled) (hdue : x.next = some f.due) (hmode : f.period = x.period)
      (hnext : x.period.next? f.due f.firedAt = some next) :
    Changed k x [.firing t f] { x with executions := x.executions + 1, next := some next }

theorem Change.changed {a : Action} {w w' : World} {log events : List Event} (hc : Coupled w)
    (hr : Recorded w log) (c : Change a w events w') (k : TaskRef) :
    (w.task k).Changed k events (w'.task k) := by
  have set : ∀ {j : TaskRef} {x : Task} {events : List Event}, (∀ e ∈ events, e.task? = some j) →
      (w.task j).Changed j events x → (w.task k).Changed k events ((w.setTask j x).task k) := by
    intro j x events hevents hx
    rw [World.task_setTask]
    split
    · next hkj => exact hkj ▸ hx
    · next hkj =>
      refine .other fun e he hk => hkj ?_
      rw [hevents e he] at hk
      exact (Option.some.inj hk).symm
  have due : ∀ {t : TimerRef} {head : Entry TaskRef}, w.Fires t head →
      (w.task head.item).next = some head.due :=
    fun hfires => hc.next _ _ (Queue.mem_of_peek hfires.peek)
  cases c with
  | newTask => exact hr.task_newTask k ▸ .other (by simp)
  | accept t j due period newHead ht hj hopen hnew hdue hperiod =>
    exact set (by simp [Event.task?]) (.accept t due period newHead hnew hperiod)
  | cancel j hj hopen => exact set (by simp [Event.task?]) (.cancel hopen)
  | retire t head interim ha hfires honce =>
    exact set (by simp [Event.task?, World.firing]) (.retire t (w.firing t head) rfl
      (Recorded.scheduled_of_fires hc hfires) (due hfires) rfl honce)
  | postpone t head interim next queue ha hfires hnext hqueue =>
    exact set (by simp [Event.task?, World.firing]) (.postpone t (w.firing t head) next rfl
      (Recorded.scheduled_of_fires hc hfires) (due hfires) rfl hnext)
  | cancelAll t events ha ht hevents | purge t events ht hevents
  | record t bursts reason events ha ht hleaving hevents =>
    refine .other ?_
    rcases hevents with rfl | ⟨n, rfl⟩ <;> simp [Event.task?]
  | _ => exact .other (by simp [Event.task?])

/-- What each change keeps where queues and records are right holds from then on. -/
theorem System.keep_run_recorded {P : World → List Event → Prop}
    (change : ∀ {a w w' log events}, Coupled w → Recorded w log → P w log →
      Change a w events w' → P w' (log ++ events)) {s : System} (hc : Coupled s.world)
    (hr : Recorded s.world s.log) (h : P s.world s.log) (acts : List Action) :
    P (s.run acts).world (s.run acts).log := by
  induction acts generalizing s with
  | nil => exact h
  | cons a acts ih =>
    have all := keep_next (s := s) (a := a)
      (P := fun w log => Coupled w ∧ Recorded w log ∧ P w log)
      (fun h c => ⟨h.1.change c, h.2.1.change h.1 c, change h.1 h.2.1 h.2.2 c⟩) ⟨hc, hr, h⟩
    exact ih all.1 all.2.1 all.2.2

/-- What each change keeps where queues and records are right holds throughout a run. -/
theorem System.keep_after_recorded {P : World → List Event → Prop} (start : P .empty [])
    (change : ∀ {a w w' log events}, Coupled w → Recorded w log → P w log →
      Change a w events w' → P w' (log ++ events))
    (acts : List Action) : P (after acts).world (after acts).log :=
  keep_run_recorded change Coupled.start Recorded.start start acts

/-- What holds of a blank record and is kept by each change of it holds of all records throughout a
run. -/
theorem System.keep_records {P : TaskRef → Task → List Event → Prop} (start : ∀ k, P k {} [])
    (changed : ∀ {k x y log events}, TaskRecord k x log → P k x log → x.Changed k events y →
      P k y (log ++ events))
    (acts : List Action) (k : TaskRef) : P k ((after acts).world.task k) (after acts).log :=
  keep_after_recorded (P := fun w log => ∀ k, P k (w.task k) log) start
    (fun hc hr h c k => changed (hr.task k) (h k) (c.changed hc hr k)) acts k

end TaskTimer
