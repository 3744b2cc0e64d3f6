/-
TaskTimer.Proofs.Settling.Termination — a thread comes to rest, whatever its bodies do.

Left to itself a thread settles (`TaskTimer.Proofs.Settling.Progress`). Here its bodies are not
idle: they call tasks off, one by one or all of them, purge, close, fail or panic, and other threads
and timers go on meanwhile. What may not happen is that something is submitted to the timer, or that
its clock is moved (`Action.Spares`).

The measure is the backlog. A turn that finds something to do lowers it, as before. All that bodies
and other threads do leaves it or lowers it, since the queue gains no entry and no entry gets
another deadline (`System.backlog_next_le`).

`Round` is a turn with all that comes after it until the body ends, and the thread with it if that
is what it comes to; `System.afterRounds` is one round after another. The rounds are arbitrary: what
is called may depend on what was seen before, and no body need do the same twice.
-/
import TaskTimer.Proofs.Run.Arrivals
import TaskTimer.Proofs.Settling.Progress

namespace TaskTimer

/-- The action submits nothing to `t`, does not move its clock, and is no turn of its thread. -/
def Action.Spares (t : TimerRef) : Action → Prop
  | .setClock u _ | .submission u _ _ | .insert u _ _ _ | .submitOnce u _
  | .submitRepeating u _ _ _ | .work u _ => u ≠ t
  | .newTask | .startTimer _ | .cancelTask _ | .cancelAll _ | .close _ | .purge _
  | .finish _ _ | .record _ _ => True

instance (t : TimerRef) : (a : Action) → Decidable (a.Spares t)
  | .setClock _ _ | .submission _ _ _ | .insert _ _ _ _ | .submitOnce _ _
  | .submitRepeating _ _ _ _ | .work _ _ => inferInstanceAs (Decidable (_ ≠ _))
  | .newTask | .startTimer _ | .cancelTask _ | .cancelAll _ | .close _ | .purge _
  | .finish _ _ | .record _ _ => inferInstanceAs (Decidable True)

/-- A turn of a thread, and what happens until the body that it begins has ended, or the thread. -/
structure Round where
  /-- The tasks that are called off between the two looks at the head. -/
  interim : List TaskRef := []
  /-- What the body does, and what other threads do meanwhile. -/
  calls : List Action := []
  /-- How the body ends. -/
  ending : Ending := .returned
  /-- Whether one of the tasks that the thread drops as it ends panics then. -/
  bursts : Bool := false

/-- Nothing that is thrown in a body in the course of the round panics as it is dropped. -/
def Round.Caught (t : TimerRef) (r : Round) : Prop :=
  (∀ a ∈ r.calls, a.Caught t) ∧ r.ending.bursts = false

/-! ## The backlog when the thread takes no turn -/

theorem Entry.allTurns_le_of_sublist {now : Instant} {entries entries' : List (Entry TaskRef)}
    (h : entries.Sublist entries') : allTurns now entries ≤ allTurns now entries' := by
  induction h with
  | slnil => exact Nat.le_refl _
  | cons e _ ih => exact Nat.le_add_left_of_le ih
  | cons_cons e _ ih => exact Nat.add_le_add_left ih _

theorem Entry.allTurns_le_of_subperm {now : Instant} {entries entries' : List (Entry TaskRef)}
    (h : entries.Subperm entries') : allTurns now entries ≤ allTurns now entries' := by
  obtain ⟨middle, hperm, hsub⟩ := h
  exact allTurns_perm hperm ▸ allTurns_le_of_sublist hsub

namespace World

variable {w w' : World} {t : TimerRef}

theorem backlog_congr (h : w'.timer t = w.timer t) : w'.backlog t = w.backlog t := by
  simp only [backlog, queued, h]

theorem period_cancelEach (w : World) (ks : List TaskRef) (j : TaskRef) :
    ((w.cancelEach ks).world.task j).period = (w.task j).period := by
  refine keep_cancelEach (P := fun w' => (w'.task j).period = (w.task j).period) ?_ rfl ks
  intro w' k h hopen
  rw [task_setTask]
  split
  · next hj => exact hj ▸ h
  · exact h

end World

namespace System

variable {acts : List Action} {s : System} {a : Action} {t : TimerRef} {k : TaskRef}
  {due : Instant} {p : Period}

theorem Accepts.not_spares (h : s.Accepts a t k due p) : ¬ a.Spares t := by
  have hsubmitted := h.submitted
  cases a <;> simp_all [submitted?, Action.Spares]

theorem clock_next_of_spares (ht : s.world.HasTimer t) (h : a.Spares t) :
    ((s.next a).world.timer t).clock = (s.world.timer t).clock := by
  refine clock_next ht ?_
  rintro clock rfl
  exact h rfl

/-- Without a turn, a submission or a move of the clock the backlog does not grow. -/
theorem backlog_next_le (ht : (after acts).world.HasTimer t) (h : a.Spares t) :
    ((after acts).next a).world.backlog t ≤ (after acts).world.backlog t := by
  have hwork : ∀ interim, a ≠ .work t interim := by
    rintro interim rfl
    exact h rfl
  have hqueued := queued_next (coupled_after acts) (recorded_after acts) hwork
    fun k due p haccepts => haccepts.not_spares h
  have hstays := stays_next (told_after acts) ht a
  rw [World.backlog, World.backlog, clock_next_of_spares ht h]
  refine Nat.add_le_add ?_ (Entry.allTurns_le_of_subperm hqueued)
  by_cases hgoing : ((after acts).world.timer t).stage = .going
  · rw [if_pos hgoing]
    split <;> omega
  · rw [if_neg hgoing, if_neg (hstays.left hgoing)]

theorem backlog_run_le {calls : List Action} (ht : (after acts).world.HasTimer t)
    (h : ∀ a ∈ calls, a.Spares t) :
    ((after acts).run calls).world.backlog t ≤ (after acts).world.backlog t := by
  refine run_induction (P := fun calls s => (∀ a ∈ calls, a.Spares t) →
    s.world.backlog t ≤ (after acts).world.backlog t) (fun _ => Nat.le_refl _)
    (fun calls a ih h => ?_) calls h
  have ht' : (after (acts ++ calls)).world.HasTimer t := by
    rw [after_append]
    exact hasTimer_run ht calls
  have last := backlog_next_le ht' (h a (by simp))
  exact Nat.le_trans last (ih fun a' ha' => h a' (List.mem_append_left _ ha'))

theorem clock_run {calls : List Action} (ht : s.world.HasTimer t) (h : ∀ a ∈ calls, a.Spares t) :
    ((s.run calls).world.timer t).clock = (s.world.timer t).clock := by
  induction calls generalizing s with
  | nil => rfl
  | cons a calls ih =>
    exact (ih (hasTimer_next ht a) fun a' ha' => h a' (List.mem_cons_of_mem _ ha')).trans
      (clock_next_of_spares ht (h a List.mem_cons_self))

end System

/-! ## The backlog after a turn -/

/-- To record the end of a thread takes nothing from its backlog that the turn has left there. -/
theorem World.backlog_work_le {w : World} {t : TimerRef} (ht : w.HasTimer t)
    (hgoing : (w.timer t).stage = .going) (interim : List TaskRef) :
    (w.work t interim).world.backlog t ≤ (w.workOver t interim).backlog t := by
  by_cases hstop : ∃ reason, (w.work t interim).result = .stop reason
  · obtain ⟨reason, hstop⟩ := hstop
    obtain ⟨-, hempty, hclosed⟩ := work_stop_iff.1 hstop
    rw [work_of_closed interim hempty hclosed]
    simp [backlog, setStage, queued, Queue.peek_eq_none_iff.1 hempty, Entry.allTurns]
  · rw [workOver_of_going ht hgoing fun reason h => hstop ⟨reason, h⟩]

namespace System

variable {acts : List Action} {s : System} {t : TimerRef} {r : Round}

/-- A turn that finds something to do leaves less to do, whichever tasks are called off in the
middle of it. -/
theorem backlog_work_lt {interim : List TaskRef} (hadmits : (after acts).Admits (.work t interim))
    (hbusy : ¬ (after acts).Rests t) (hroom : ((after acts).world.timer t).clock.HasRoom) :
    ((after acts).next (.work t interim)).world.backlog t < (after acts).world.backlog t := by
  rw [(next_work hadmits).1]
  obtain ⟨ht, hgoing, hfree, -⟩ := hadmits
  refine Nat.lt_of_le_of_lt (World.backlog_work_le ht hgoing interim) ?_
  obtain ⟨w, rfl | rfl, hturned⟩ := World.turned_work ht hgoing interim
    fun due hwait => hbusy ⟨hgoing, hfree, due, World.work_wait_iff.2 (World.work_wait_iff.1 hwait)⟩
  · exact hturned.backlog_lt hgoing (positive_after acts) hroom
  · have htimer := World.timer_cancelEach (after acts).world interim t
    rw [← World.backlog_congr htimer]
    refine hturned.backlog_lt (by rw [htimer, hgoing]) (fun k => ?_) (by rwa [htimer])
    rw [World.period_cancelEach]
    exact positive_after acts k

/-! ## Round after round -/

/-- The turn with which a round begins. Of the tasks to be called off in the middle of it, those are
that were made by then. -/
def turnOf (s : System) (t : TimerRef) (r : Round) : Action :=
  .work t (r.interim.filter fun k => s.world.HasTask k)

/-- The end of the thread with which a round closes, if it comes to that. Nothing panics that is not
there. -/
def recordOf (s : System) (t : TimerRef) (r : Round) : Action :=
  .record t (r.bursts && (s.world.timer t).queue.peek.isSome)

/-- A round up to the end of its body. -/
def roundBody (s : System) (t : TimerRef) (r : Round) : System :=
  (s.next (s.turnOf t r)).run (r.calls ++ [.finish t r.ending])

/-- One round of the thread of `t`. -/
def round (s : System) (t : TimerRef) (r : Round) : System :=
  (s.roundBody t r).next ((s.roundBody t r).recordOf t r)

/-- The system after the first `n` rounds. -/
def afterRounds (s : System) (t : TimerRef) (rounds : Nat → Round) : (n : Nat) → System
  | 0 => s
  | n + 1 => (s.afterRounds t rounds n).round t (rounds n)

/-- A round is part of a run. -/
theorem exists_after_roundBody (acts : List Action) (t : TimerRef) (r : Round) :
    ∃ acts', (after acts).roundBody t r = after (acts' ++ [.finish t r.ending]) := by
  refine ⟨acts ++ (after acts).turnOf t r :: r.calls, ?_⟩
  rw [List.append_assoc, after_append]
  rfl

/-- Between two rounds: the thread is not in the middle of a body, and has no end to record. -/
structure Between (t : TimerRef) (s : System) : Prop where
  reachable : ∃ acts, s = after acts
  hasTimer : s.world.HasTimer t
  free : s.running t = none
  stays : (s.world.timer t).stage.reason? = none

/-- A thread that has an end to record does so where the round closes. -/
theorem reason_next_recordOf (ht : s.world.HasTimer t) (r : Round) :
    ((s.next (s.recordOf t r)).world.timer t).stage.reason? = none := by
  have hpeek : (r.bursts && (s.world.timer t).queue.peek.isSome) = true →
      (s.world.timer t).queue.peek ≠ none := by
    intro h hnone
    simp [hnone] at h
  cases hstage : (s.world.timer t).stage.reason? with
  | none =>
    have hnot : ¬ s.Admits (s.recordOf t r) := fun hadmits => hadmits.2.1 hstage
    rw [next, if_neg hnot, hstage]
  | some reason =>
    have hadmits : s.Admits (s.recordOf t r) := ⟨ht, by simp [hstage], hpeek⟩
    rw [next, if_pos hadmits]
    show ((s.world.record t _).world.timer t).stage.reason? = none
    simp only [World.record, hstage, World.timer_setTimer_same]
    split <;> rfl

theorem between_round (ht : (after acts).world.HasTimer t) (r : Round) :
    Between t ((after acts).round t r) := by
  obtain ⟨acts', hbody⟩ := exists_after_roundBody acts t r
  have ht' : ((after acts).roundBody t r).world.HasTimer t := hasTimer_run (hasTimer_next ht _) _
  refine ⟨?_, hasTimer_next ht' _, ?_, reason_next_recordOf ht' r⟩
  · rw [round, hbody, ← after_concat]
    exact ⟨_, rfl⟩
  · rw [round, recordOf, running_next_record, hbody, after_concat]
    exact running_next_finish acts' t r.ending

/-- A thread that has neither settled nor been unwound is in its loop between two rounds. -/
theorem Between.going (h : Between t s) (hbusy : ¬ s.Settled t)
    (hwound : (s.world.timer t).stage ≠ .unwound) : (s.world.timer t).stage = .going := by
  obtain ⟨acts, rfl⟩ := h.reachable
  cases hstage : ((after acts).world.timer t).stage with
  | going => rfl
  | leaving reason =>
    have hnone := h.stays
    rw [hstage] at hnone
    cases hnone
  | returned => exact absurd (.inl ((told_after acts t).recorded hstage)) hbusy
  | unwound => exact absurd hstage hwound

/-- What comes after the turn of a round spares the timer, the end of the body included. -/
theorem spares_of_mem (hspares : ∀ a ∈ r.calls, a.Spares t) :
    ∀ a ∈ r.calls ++ [.finish t r.ending], a.Spares t := by
  intro a ha
  rcases List.mem_append.1 ha with hcall | hend
  · exact hspares a hcall
  · rw [List.mem_singleton.1 hend]
    trivial

theorem clock_round (ht : s.world.HasTimer t) (hspares : ∀ a ∈ r.calls, a.Spares t) :
    ((s.round t r).world.timer t).clock = (s.world.timer t).clock := by
  have ht' := hasTimer_next ht (s.turnOf t r)
  have hbody : (s.roundBody t r).world.HasTimer t := hasTimer_run ht' _
  rw [round, clock_next hbody (by simp [recordOf]), roundBody,
    clock_run ht' (spares_of_mem hspares), clock_next ht (by simp [turnOf])]

/-- The turn of a round leaves the largest backlog of it. -/
theorem backlog_round_le_turn (ht : (after acts).world.HasTimer t)
    (hspares : ∀ a ∈ r.calls, a.Spares t) :
    ((after acts).round t r).world.backlog t ≤
      ((after acts).next ((after acts).turnOf t r)).world.backlog t := by
  obtain ⟨acts', hbody⟩ := exists_after_roundBody acts t r
  have ht' := hasTimer_next ht ((after acts).turnOf t r)
  have hcalls : ((after acts).roundBody t r).world.backlog t ≤
      ((after acts).next ((after acts).turnOf t r)).world.backlog t := by
    rw [roundBody, ← after_concat]
    rw [← after_concat] at ht'
    exact backlog_run_le ht' (spares_of_mem hspares)
  refine Nat.le_trans ?_ hcalls
  have hlast : ((after acts).roundBody t r).world.HasTimer t := hasTimer_run ht' _
  rw [round, hbody]
  rw [hbody] at hlast
  exact backlog_next_le hlast trivial

theorem backlog_round_lt (hadmits : (after acts).Admits ((after acts).turnOf t r))
    (hbusy : ¬ (after acts).Rests t) (hroom : ((after acts).world.timer t).clock.HasRoom)
    (hspares : ∀ a ∈ r.calls, a.Spares t) :
    ((after acts).round t r).world.backlog t < (after acts).world.backlog t :=
  Nat.lt_of_le_of_lt (backlog_round_le_turn hadmits.1 hspares)
    (backlog_work_lt hadmits hbusy hroom)

/-- The first round may find the thread in the middle of a body, or on its way out, and then it
takes no turn. -/
theorem backlog_round_le (ht : (after acts).world.HasTimer t) (hbusy : ¬ (after acts).Rests t)
    (hroom : ((after acts).world.timer t).clock.HasRoom) (hspares : ∀ a ∈ r.calls, a.Spares t) :
    ((after acts).round t r).world.backlog t ≤ (after acts).world.backlog t := by
  by_cases hadmits : (after acts).Admits ((after acts).turnOf t r)
  · exact Nat.le_of_lt (backlog_round_lt hadmits hbusy hroom hspares)
  · have hround := backlog_round_le_turn (r := r) ht hspares
    rwa [next, if_neg hadmits] at hround

/-- Between two rounds, a thread that has neither settled nor been unwound takes its turn. -/
theorem Between.backlog_lt (h : Between t s) (hbusy : ¬ s.Settled t)
    (hwound : (s.world.timer t).stage ≠ .unwound) (hroom : (s.world.timer t).clock.HasRoom)
    (hspares : ∀ a ∈ r.calls, a.Spares t) :
    (s.round t r).world.backlog t < s.world.backlog t := by
  have hgoing := h.going hbusy hwound
  have hadmits : s.Admits (s.turnOf t r) :=
    ⟨h.hasTimer, hgoing, h.free, fun k hk => by simpa using (List.mem_filter.1 hk).2⟩
  obtain ⟨acts, rfl⟩ := h.reachable
  exact backlog_round_lt hadmits (fun hrests => hbusy (.inr hrests)) hroom hspares

variable {rounds : Nat → Round}

/-- As long as the thread has neither settled nor been unwound, the backlog shrinks with every round
after the first. -/
theorem backlog_afterRounds (ht : (after acts).world.HasTimer t)
    (hroom : ((after acts).world.timer t).clock.HasRoom)
    (hspares : ∀ n, ∀ a ∈ (rounds n).calls, a.Spares t) (n : Nat)
    (hbusy : ∀ m ≤ n, ¬ ((after acts).afterRounds t rounds m).Settled t ∧
      (((after acts).afterRounds t rounds m).world.timer t).stage ≠ .unwound) :
    Between t ((after acts).afterRounds t rounds (n + 1)) ∧
      (((after acts).afterRounds t rounds (n + 1)).world.timer t).clock =
        ((after acts).world.timer t).clock ∧
      ((after acts).afterRounds t rounds (n + 1)).world.backlog t + n ≤
        (after acts).world.backlog t := by
  induction n with
  | zero =>
    have hfirst : ¬ (after acts).Rests t := fun hrests => (hbusy 0 (Nat.le_refl 0)).1 (.inr hrests)
    exact ⟨between_round ht (rounds 0), clock_round ht (hspares 0),
      backlog_round_le ht hfirst hroom (hspares 0)⟩
  | succ n ih =>
    obtain ⟨hbetween, hclock, hbacklog⟩ := ih fun m hm => hbusy m (Nat.le_succ_of_le hm)
    obtain ⟨hmore, hwound⟩ := hbusy (n + 1) (Nat.le_refl _)
    have hless := hbetween.backlog_lt hmore hwound (by rwa [hclock]) (hspares (n + 1))
    have hclock' := (clock_round hbetween.hasTimer (hspares (n + 1))).trans hclock
    obtain ⟨acts', hreached⟩ := hbetween.reachable
    refine ⟨?_, hclock', ?_⟩
    · have hnext := between_round (hreached ▸ hbetween.hasTimer) (rounds (n + 1))
      rwa [← hreached] at hnext
    · show (((after acts).afterRounds t rounds (n + 1)).round t
        (rounds (n + 1))).world.backlog t + (n + 1) ≤ _
      omega

/-! ## Rounds in which something panics as it is dropped -/

/-- A panic that unwinds the thread in the course of a round leaves a reason recorded, unless what
was thrown in a body panicked as it was dropped. -/
theorem unwound_round (h : ((s.round t r).world.timer t).stage = .unwound) :
    ((s.world.timer t).stage = .unwound ∧
        ((s.round t r).world.timer t).shutdown = (s.world.timer t).shutdown) ∨
      ¬ r.Caught t ∨ ((s.round t r).world.timer t).shutdown ≠ none := by
  have hround : s.round t r = s.run (s.turnOf t r :: (r.calls ++ [.finish t r.ending]) ++
      [(s.roundBody t r).recordOf t r]) := by
    rw [run_append]
    rfl
  rw [hround] at h ⊢
  rcases unwound_run h with hbefore | ⟨a, ha, hthrown⟩ | ⟨-, hended⟩
  · exact .inl hbefore
  · refine .inr (.inl fun ⟨hcalls, hending⟩ => hthrown ?_)
    rcases List.mem_append.1 ha with hbody | hlast
    · rcases List.mem_cons.1 hbody with rfl | hmem
      · trivial
      · rcases List.mem_append.1 hmem with hcall | hend
        · exact hcalls a hcall
        · rw [List.mem_singleton.1 hend]
          exact fun _ => hending
    · rw [List.mem_singleton.1 hlast]
      trivial
  · exact .inr (.inr hended)

/-- If a panic has unwound the thread and no reason is recorded, something that was thrown in a body
panicked as it was dropped. -/
theorem exists_of_unwound (h : (s.world.timer t).stage ≠ .unwound) {n : Nat}
    (hwound : ((s.afterRounds t rounds n).world.timer t).stage = .unwound)
    (hnone : ((s.afterRounds t rounds n).world.timer t).shutdown = none) :
    ∃ m < n, ¬ (rounds m).Caught t := by
  induction n with
  | zero => exact absurd hwound h
  | succ n ih =>
    rcases unwound_round hwound with ⟨hbefore, hsame⟩ | hround | hended
    · obtain ⟨m, hm, hround⟩ := ih hbefore (hsame.symm.trans hnone)
      exact ⟨m, Nat.lt_succ_of_lt hm, hround⟩
    · exact ⟨n, Nat.lt_succ_self n, hround⟩
    · exact absurd hnone hended

end System

/-- **Settling comes to an end.** After every run, let the clock of a timer stand still at a reading
with thirty years ahead of it, and let nothing be submitted to the timer. Bodies may call off,
purge, close, fail and panic as they like, other threads too, and other timers go on. Then after at
most as many rounds as the backlog counts, and one for a body that was running, the thread of the
timer has ended, or it would wait if it took a turn. It has ended without a reason recorded only if
a panic unwound it that nothing catches: it had before, or in one of these rounds something that was
thrown in a body panicked as it was dropped. -/
theorem settling_terminates {t : TimerRef} {acts : List Action}
    (ht : (System.after acts).world.HasTimer t)
    (hroom : ((System.after acts).world.timer t).clock.HasRoom) {rounds : Nat → Round}
    (hspares : ∀ n, ∀ a ∈ (rounds n).calls, a.Spares t) :
    ∃ n ≤ (System.after acts).world.backlog t + 1,
      ((System.after acts).afterRounds t rounds n).Settled t ∨
        (((System.after acts).afterRounds t rounds n).world.timer t).stage = .unwound ∧
          (((System.after acts).world.timer t).stage = .unwound ∨
            ∃ m < n, ¬ (rounds m).Caught t) := by
  by_contra hnever
  have hbusy : ∀ n ≤ (System.after acts).world.backlog t + 1,
      ¬ ((System.after acts).afterRounds t rounds n).Settled t ∧
        (((System.after acts).afterRounds t rounds n).world.timer t).stage ≠ .unwound := by
    intro n hn
    have hbusy : ¬ ((System.after acts).afterRounds t rounds n).Settled t :=
      fun hsettled => hnever ⟨n, hn, .inl hsettled⟩
    refine ⟨hbusy, fun hwound => hnever ⟨n, hn, .inr ⟨hwound, ?_⟩⟩⟩
    by_cases hbefore : ((System.after acts).world.timer t).stage = .unwound
    · exact .inl hbefore
    · exact .inr (System.exists_of_unwound hbefore hwound
        (Classical.not_not.1 fun hended => hbusy (.inl hended)))
  obtain ⟨hbetween, -, hbacklog⟩ := System.backlog_afterRounds ht hroom hspares
    ((System.after acts).world.backlog t) fun m hm => hbusy m (Nat.le_succ_of_le hm)
  -- nothing is left to do, not even to leave the loop, so the thread has left it
  obtain ⟨hmore, hwound⟩ := hbusy _ (Nat.le_refl _)
  rw [World.backlog, if_pos (hbetween.going hmore hwound)] at hbacklog
  omega

/-- A task that repeats every nanosecond is three behind, one that runs once is due, and one that
was called off is still queued. Each body purges, and calls off the task that runs once. -/
theorem settling_terminates_overdue :
    let acts : List Action :=
      [.startTimer { now := .origin, wall := .epoch }, .newTask, .newTask, .newTask,
        .submission ⟨0⟩ ⟨0⟩ (.fixedRate 0 1), .submission ⟨0⟩ ⟨1⟩ (.once 1),
        .submission ⟨0⟩ ⟨2⟩ (.fixedDelay 2 1), .cancelTask ⟨2⟩,
        .setClock ⟨0⟩ { now := 3, wall := .epoch }]
    let calls : List Action := [.purge ⟨0⟩, .cancelTask ⟨1⟩]
    (System.after acts).world.HasTimer ⟨0⟩ ∧
      ((System.after acts).world.timer ⟨0⟩).clock.HasRoom ∧
      (∀ a ∈ calls, a.Spares ⟨0⟩) ∧
      ¬ ((System.after acts).afterRounds ⟨0⟩ (fun _ => { calls := calls }) 3).Settled ⟨0⟩ ∧
      ∃ n ≤ (System.after acts).world.backlog ⟨0⟩ + 1,
        ((System.after acts).afterRounds ⟨0⟩ (fun _ => { calls := calls }) n).Settled ⟨0⟩ := by
  intro acts calls
  let rounds : Nat → Round := fun _ => { calls := calls }
  have ht : (System.after acts).world.HasTimer ⟨0⟩ := by decide +kernel
  have hroom : ((System.after acts).world.timer ⟨0⟩).clock.HasRoom := by decide +kernel
  have hspares : ∀ a ∈ calls, a.Spares ⟨0⟩ := by decide +kernel
  refine ⟨ht, hroom, hspares, by decide +kernel, ?_⟩
  obtain ⟨n, hn, hsettled | ⟨-, hbefore | ⟨m, -, hround⟩⟩⟩ :=
    settling_terminates ht hroom fun n => show ∀ a ∈ (rounds n).calls, a.Spares ⟨0⟩ from hspares
  · exact ⟨n, hn, hsettled⟩
  · exact absurd hbefore (by decide +kernel)
  · exact absurd ⟨by decide +kernel, rfl⟩ hround

end TaskTimer
