/-
TaskTimer.Proofs.Run.LatestDeadline — what a task gives as the deadline of its latest execution.

A task keeps one deadline, the next one. A task that repeats has no other record of the deadline
before, and works it out by taking the period away again. So what it gives depends on how the next
deadline came about. `Dated` says what is kept after the latest execution and before the first one;
it holds of every record after every run (`System.dated_after`), and the rest is arithmetic of
instants.

* There is an answer just if a timer has accepted the task. The way back never leads out of the
  range of instants, for the next deadline is far from its start if it is not exact
  (`Instant.exists_sub?_after`).
* From an exact deadline the way back leads to where it was counted from. At a fixed rate that is
  the deadline of the latest execution. With a fixed delay it is the moment at which the latest
  execution fired, which is its deadline only if it was not late.
-/
import TaskTimer.Proofs.Run.Acceptance

namespace TaskTimer

/-! ## The deadline that is kept -/

namespace Firing

variable {ι : Type}

/-- The deadline kept after the execution: the one to come, or its own if there is none. -/
def kept (f : Firing ι) : Instant := (f.period.next? f.due f.firedAt).getD f.due

theorem kept_of_once {f : Firing ι} (h : f.period = .once) : f.kept = f.due := by
  rw [kept, h]
  rfl

theorem kept_of_next? {f : Firing ι} {next : Instant}
    (h : f.period.next? f.due f.firedAt = some next) : f.kept = next := by
  rw [kept, h]
  rfl

theorem kept_of_every? {f : Firing ι} {every : Duration} (h : f.period.every? = some every) :
    f.kept = (f.period.base f.due f.firedAt).after every :=
  kept_of_next? (Period.next?_eq h f.due f.firedAt)

end Firing

/-- The deadline in the record `x` of the task `k` is there just if a timer accepted the task, and
it is the one that the latest execution led to. -/
structure Dated (k : TaskRef) (x : Task) (log : List Event) : Prop where
  accepted : x.next ≠ none ↔ ∃ t, AcceptedBy t log k
  latest : ∀ f, (executionsOf k log).getLast? = some f → f.period = x.period ∧ x.next = some f.kept

theorem TaskRecord.exists_latest {k : TaskRef} {x : Task} {log : List Event}
    (h : TaskRecord k x log) (hran : x.executions ≠ 0) :
    ∃ f, (executionsOf k log).getLast? = some f := by
  refine Option.ne_none_iff_exists'.1 fun hnone => hran ?_
  rw [h.executions, ← length_executionsOf, List.getLast?_eq_none_iff.1 hnone]
  rfl

theorem TaskRecord.ran_of_latest {k : TaskRef} {x : Task} {log : List Event}
    (h : TaskRecord k x log) {f : Firing TaskRef}
    (hf : (executionsOf k log).getLast? = some f) : x.executions ≠ 0 := by
  rw [h.executions, ← length_executionsOf]
  exact List.length_pos_of_mem (List.mem_of_getLast? hf) |>.ne'

namespace Dated

variable {k : TaskRef} {x y : Task} {log events : List Event} {f : Firing TaskRef}
  {every : Duration}

theorem start (k : TaskRef) : Dated k {} [] where
  accepted := by simp [AcceptedBy]
  latest f hf := by cases hf

/-- Events that neither schedule the task nor execute it. -/
theorem keep (h : Dated k x log) (hnext : y.next = x.next) (hmode : y.period = x.period)
    (hscheduled : ∀ t p b, .scheduled t k p b ∉ events) (hfires : ∀ e ∈ events, e.fires k = false) :
    Dated k y (log ++ events) where
  accepted := by
    rw [hnext, h.accepted]
    exact exists_congr fun t => ⟨(·.append events), (·.of_append (hscheduled t))⟩
  latest f hf := by
    rw [executionsOf_append, executionsOf_eq_nil hfires, List.append_nil] at hf
    rw [hnext, hmode]
    exact h.latest f hf

theorem fire (h : Dated k x log) (t : TimerRef) (hk : f.task = k) (hdue : x.next = some f.due)
    (hmode : f.period = y.period) (hnext : y.next = some f.kept) :
    Dated k y (log ++ [.firing t f]) where
  accepted := by
    -- What fires had a deadline, so it was accepted before.
    obtain ⟨u, hu⟩ := h.accepted.1 (by simp [hdue])
    exact ⟨fun _ => ⟨u, hu.append _⟩, fun _ => by simp [hnext]⟩
  latest g hg := by
    subst hk
    rw [executionsOf_append, executionsOf_firing, List.getLast?_concat] at hg
    obtain rfl := Option.some.inj hg
    exact ⟨hmode, hnext⟩

theorem changed (hr : TaskRecord k x log) (h : Dated k x log) (c : x.Changed k events y) :
    Dated k y (log ++ events) := by
  cases c with
  | other hother =>
    exact h.keep rfl rfl (fun t p b hmem => hother _ hmem rfl)
      fun e he => Event.fires_of_task?_ne (hother e he)
  | accept t due period newHead hnew =>
    constructor
    · exact ⟨fun _ => ⟨t, period, newHead, by simp⟩, fun _ => Option.some_ne_none due⟩
    · intro f hf
      rw [executionsOf_append, hr.executionsOf_of_created hnew,
        executionsOf_eq_nil (by simp [Event.fires])] at hf
      cases hf
  | cancel => exact h.keep rfl rfl (by simp) (by simp [Event.fires])
  | retire t f hk hlive hdue hmode honce =>
    exact h.fire t hk hdue hmode (Firing.kept_of_once (hmode.trans honce) ▸ hdue)
  | postpone t f next hk hlive hdue hmode hnext =>
    rw [← hmode] at hnext
    exact h.fire t hk hdue hmode (congrArg some (Firing.kept_of_next? hnext).symm)

/-! ## The deadline that is given -/

theorem latestDeadline_of_single (h : Dated k x log)
    (hf : (executionsOf k log).getLast? = some f) (hsingle : f.period.every? = none) :
    x.latestDeadline = some f.due := by
  obtain ⟨hmode, hnext⟩ := h.latest f hf
  have honce := Period.eq_once hsingle
  rw [Task.latestDeadline_of_once (hmode.symm.trans honce), hnext, Firing.kept_of_once honce]

/-- What a task that repeats gives is a period before the deadline to come. -/
theorem latestDeadline_of_every? (hr : TaskRecord k x log) (h : Dated k x log)
    (hf : (executionsOf k log).getLast? = some f) (hevery : f.period.every? = some every) :
    x.latestDeadline = ((f.period.base f.due f.firedAt).after every).sub? every := by
  obtain ⟨hmode, hnext⟩ := h.latest f hf
  rw [Firing.kept_of_every? hevery] at hnext
  rw [hmode] at hevery
  exact Task.latestDeadline_of_repeats hnext hevery (hr.ran_of_latest hf)

/-- From an exact deadline a task finds back to where it was counted from. -/
theorem latestDeadline_of_exact (hr : TaskRecord k x log) (h : Dated k x log)
    (hf : (executionsOf k log).getLast? = some f) (hexact : f.Exact) :
    x.latestDeadline = some (f.period.base f.due f.firedAt) := by
  cases hevery : f.period.every? with
  | none =>
    rw [h.latestDeadline_of_single hf hevery, Period.eq_once hevery]
    rfl
  | some every =>
    rw [latestDeadline_of_every? hr h hf hevery, Instant.sub?_after (hexact.base hevery)]

/-- There is a deadline to give just if there is one to come, or has been. -/
theorem latestDeadline_eq_none_iff (hr : TaskRecord k x log) (h : Dated k x log)
    (hlength : ∀ every, x.next ≠ none → x.period.every? = some every →
      every.val ≤ 9223372036854775807000000) :
    x.latestDeadline = none ↔ x.next = none := by
  by_cases hran : x.executions = 0
  · rw [Task.latestDeadline_of_fresh hran]
  · obtain ⟨f, hf⟩ := hr.exists_latest hran
    obtain ⟨hmode, hnext⟩ := h.latest f hf
    have hgiven : ∃ last, x.latestDeadline = some last := by
      cases hevery : f.period.every? with
      | none => exact ⟨f.due, h.latestDeadline_of_single hf hevery⟩
      | some every =>
        rw [latestDeadline_of_every? hr h hf hevery]
        exact Instant.exists_sub?_after _ (hlength every (by simp [hnext]) (hmode ▸ hevery))
    obtain ⟨last, hlast⟩ := hgiven
    simp [hlast, hnext]

end Dated

/-! ## Along a run -/

/-- If only `t` executes the task `k`, the executions of `k` stand among those on `t`. -/
theorem executionsOf_eq_filter {t : TimerRef} {k : TaskRef} {log : List Event}
    (h : ∀ u f, .firing u f ∈ log → f.task = k → u = t) :
    executionsOf k log = (firingsOn t log).filter (·.task = k) := by
  rw [executionsOf, firingsOn, List.filter_filterMap]
  refine List.filterMap_congr fun e he => ?_
  cases e with
  | firing u f =>
    by_cases hk : f.task = k
    · obtain rfl := h u f he hk
      simp [Event.execution?, Event.firingOn?, Option.filter, hk]
    · by_cases hu : u = t <;> simp [Event.execution?, Event.firingOn?, Option.filter, hk, hu]
  | _ => rfl

/-- A period is no longer than what a caller can ask for. -/
theorem Repetition.every_le {r : Repetition} {p : Period} {every : Duration}
    (h : r.period = .ok p) (hevery : p.every? = some every) :
    every.val ≤ 9223372036854775807000000 := by
  rcases Repetition.period_cases h with rfl | ⟨mode, period, length, rfl, hval, -⟩
  · cases hevery
  · rw [mode.every?_period] at hevery
    obtain rfl := Option.some.inj hevery
    exact hval ▸ period.le_hi

namespace System

variable {acts : List Action} {k : TaskRef}

/-- The deadlines kept with the tasks are as `Dated` says after every run. -/
theorem dated_after (acts : List Action) (k : TaskRef) :
    Dated k ((after acts).world.task k) (after acts).log :=
  keep_records Dated.start Dated.changed acts k

/-- A task is executed by one timer only. -/
theorem fired_on {t : TimerRef} {f : Firing TaskRef} (h : .firing t f ∈ (after acts).log)
    {u : TimerRef} {g : Firing TaskRef} (h' : .firing u g ∈ (after acts).log)
    (hsame : g.task = f.task) : u = t := by
  obtain ⟨pre, a, post, v, start, p, rfl, haccepts⟩ :=
    accepts_of_execution (mem_executionsOf.2 ⟨rfl, t, h⟩)
  have htable := timetabled_run haccepts post
  rw [htable.fired u g h' hsame, htable.fired t f h rfl]

/-- A body that runs belongs to the latest execution of its task. -/
theorem latest_of_running {t : TimerRef} {f : Firing TaskRef}
    (h : (after acts).running t = some f) :
    (executionsOf f.task (after acts).log).getLast? = some f := by
  -- The body is that of the latest execution on `t`, and all executions of its task are on `t`.
  obtain ⟨before, hlog⟩ := List.getLast?_eq_some_iff.1 (busy_after h).latest
  have hfired : .firing t f ∈ (after acts).log := mem_firingsOn.1 (by simp [hlog])
  have hall : executionsOf f.task (after acts).log =
      (firingsOn t (after acts).log).filter (·.task = f.task) :=
    executionsOf_eq_filter fun u g hg hsame => fired_on hfired hg hsame
  rw [hall, hlog, List.filter_append, List.filter_cons_of_pos (by simp), List.filter_nil,
    List.getLast?_concat]

/-- A task was accepted just if one of its submissions was told so. -/
theorem acceptedBy_iff : (∃ t, AcceptedBy t (after acts).log k) ↔
    ∃ pre a post, acts = pre ++ a :: post ∧ (after pre).Admits a ∧
      (after pre).answer? a = some (.ok k) := by
  constructor
  · rintro ⟨t, p, b, hmem⟩
    obtain ⟨pre, a, post, start, rfl, haccepts⟩ := accepts_of_scheduled hmem
    have hanswer := (answer_ok_iff (coupled_after pre) (recorded_after pre) haccepts.admits).2
      ⟨t, start, p, haccepts⟩
    exact ⟨pre, a, post, rfl, haccepts.admits, hanswer⟩
  · rintro ⟨pre, a, post, rfl, hadmits, hanswer⟩
    obtain ⟨t, start, p, haccepts⟩ :=
      (answer_ok_iff (coupled_after pre) (recorded_after pre) hadmits).1 hanswer
    exact ⟨t, haccepts.acceptedBy post⟩

/-- What is accepted repeats in a way that a caller can ask for. -/
theorem Accepts.exists_repetition {s : System} {a : Action} {t : TimerRef} {start : Instant}
    {p : Period} (h : s.Accepts a t k start p) : ∃ r : Repetition, r.period = .ok p := by
  have hsubmitted := h.submitted
  cases a with
  | submission u j way | insert u j due way =>
    refine ⟨way.repetition, ?_⟩
    rw [← way.period_eq]
    simp_all [submitted?]
  | submitOnce u delay => exact ⟨.never, by simp_all [submitted?, Repetition.period]⟩
  | submitRepeating u delay period mode =>
    exact ⟨.every mode period, by simp_all [submitted?, Repetition.period]⟩
  | _ => cases hsubmitted

/-- Where a deadline is kept, the period is no longer than what a caller can ask for. -/
theorem every_le {every : Duration} (hnext : ((after acts).world.task k).next ≠ none)
    (hevery : ((after acts).world.task k).period.every? = some every) :
    every.val ≤ 9223372036854775807000000 := by
  obtain ⟨t, p, b, hmem⟩ := (dated_after acts k).accepted.1 hnext
  rw [(((recorded_after acts).task k).accepted t p b hmem).1] at hevery
  obtain ⟨pre, a, post, start, -, haccepts⟩ := accepts_of_scheduled hmem
  obtain ⟨r, hr⟩ := haccepts.exists_repetition
  exact Repetition.every_le hr hevery

end System

/-- **What a task gives as its latest deadline.** After every run, a task that has been executed has
a latest execution, and the body that a timer's thread runs belongs to the latest execution of its
task. As long as the deadline after that execution is within the range of instants, the task gives
the instant from which that deadline is counted, whatever happens to the task and its timer before
the next execution. With a fixed delay this is the moment at which the latest execution fired, and
else its deadline. So the task gives the deadline of the latest execution, unless it repeats with a
fixed delay and that execution was late. -/
theorem latest_deadline_of_latest_execution (acts : List Action) :
    let s := System.after acts
    (∀ t f, s.running t = some f → (executionsOf f.task s.log).getLast? = some f) ∧
    ∀ k, (s.world.task k).executions ≠ 0 →
      ∃ f, (executionsOf k s.log).getLast? = some f ∧
        (f.Exact →
          (s.world.task k).latestDeadline = some (f.period.base f.due f.firedAt) ∧
          ((s.world.task k).latestDeadline = some f.due ↔
            ∀ every, f.period = .fixedDelay every → f.firedAt = f.due)) := by
  refine ⟨fun t f => System.latest_of_running, fun k hran => ?_⟩
  have hr := (recorded_after acts).task k
  obtain ⟨f, hf⟩ := hr.exists_latest hran
  refine ⟨f, hf, fun hexact => ?_⟩
  have hgiven := Dated.latestDeadline_of_exact hr (System.dated_after acts k) hf hexact
  exact ⟨hgiven, by rw [hgiven, Option.some.injEq, Period.base_eq_due_iff]⟩

/-- A task with a fixed delay fires fifteen nanoseconds late, and from the body on it gives the
moment at which it fired. -/
theorem latest_deadline_of_late_execution :
    let s := System.after
      [.startTimer { now := .origin, wall := .epoch }, .newTask,
        .submission ⟨0⟩ ⟨0⟩ (.fixedDelay 10 100),
        .setClock ⟨0⟩ { now := 25, wall := .epoch }, .work ⟨0⟩ []]
    let f : Firing TaskRef :=
      { task := ⟨0⟩, due := 10, firedAt := 25, period := .fixedDelay 100, execution := 1 }
    s.running ⟨0⟩ = some f ∧ (executionsOf ⟨0⟩ s.log).getLast? = some f ∧ f.Exact ∧
      (s.world.task ⟨0⟩).latestDeadline = some 25 ∧
      (s.world.task ⟨0⟩).latestDeadline ≠ some f.due := by
  decide +kernel

/-- **A task has a latest deadline to give just if a timer accepted it.** After every run, whatever
the clocks have shown and also where deadlines are beyond the range of instants, a task gives none
if and only if none of its submissions was told of success. In particular, a task that repeats and
has been executed can always take its period away from the deadline to come. -/
theorem latest_deadline_absent_iff (acts : List Action) (k : TaskRef) :
    let x := (System.after acts).world.task k
    (x.latestDeadline = none ↔ ∀ pre a post, acts = pre ++ a :: post →
      (System.after pre).Admits a → (System.after pre).answer? a ≠ some (.ok k)) ∧
    ∀ every, x.period.every? = some every → x.executions ≠ 0 →
      ∃ next last, x.next = some next ∧ next.sub? every = some last := by
  have hr := (recorded_after acts).task k
  have hdated := System.dated_after acts k
  constructor
  · rw [Dated.latestDeadline_eq_none_iff hr hdated fun _ => System.every_le, ← not_iff_not]
    refine (hdated.accepted.trans System.acceptedBy_iff).trans ?_
    simp only [not_forall, exists_prop, ne_eq, not_not]
  · intro every hevery hran
    obtain ⟨f, hf⟩ := hr.exists_latest hran
    obtain ⟨hmode, hnext⟩ := hdated.latest f hf
    obtain ⟨last, hlast⟩ := Instant.exists_sub?_after (f.period.base f.due f.firedAt)
      (System.every_le (by simp [hnext]) hevery)
    rw [← Firing.kept_of_every? (hmode ▸ hevery)] at hlast
    exact ⟨f.kept, last, hnext, hlast⟩

/-- At the last instant there is, the next deadline is no later than the one before. So the way back
leads to an instant at which nothing was due. -/
example :
    let s := System.after
      [.startTimer { now := .last, wall := .epoch }, .newTask,
        .submission ⟨0⟩ ⟨0⟩ (.fixedRate 0 10), .work ⟨0⟩ []]
    (executionsOf ⟨0⟩ s.log).map (·.due) = [.last] ∧
      (s.world.task ⟨0⟩).latestDeadline = Instant.last.sub? 10 := by
  decide +kernel

end TaskTimer
