/-
TaskTimer.Proofs.Run.Acceptance — each task is accepted once, and its executions are counted.

`System.answer?` is what a submission is told. It is told of success exactly if a timer accepts
the task (`System.answer_ok_iff`), and only then does the log say that the task was scheduled
(`System.scheduled_next`). As what fires was scheduled before, every execution can be traced back
to the one submission that was accepted (`System.accepts_of_execution`); from there on the task
keeps to its timetable, and so the timer, the period and the numbers of its executions follow.
-/
import TaskTimer.Proofs.Run.Repetition
import TaskTimer.Proofs.Run.Submission
import TaskTimer.Proofs.Run.Thread

namespace TaskTimer

/-! ## Answers -/

namespace World

variable {w : World} {t u : TimerRef} {j k : TaskRef} {due : Instant} {p p' : Period} {b : Bool}

theorem handOut_accept_ok_iff :
    (handOut j (w.accept t j due p)).result = .ok k ↔
      k = j ∧ (w.timer t).accepting = true ∧ (w.task k).state = .created := by
  cases hopen : (w.timer t).accepting with
  | false => simp [accept_of_closed hopen, handOut, Outcome.map, Except.map]
  | true =>
    by_cases hnew : (w.task j).state = .created
    · simp only [accept_of_created hopen hnew, handOut, Outcome.map, Except.map,
        Except.ok.injEq, true_and]
      constructor
      · rintro rfl
        exact ⟨rfl, hnew⟩
      · exact fun h => h.1.symm
    · simp only [accept_of_used hopen hnew, handOut, Outcome.map, Except.map, true_and]
      constructor
      · intro h
        cases h
      · rintro ⟨rfl, hcreated⟩
        exact absurd hcreated hnew

theorem accept_of_scheduled (h : .scheduled u k p' b ∈ (w.accept t j due p).events) :
    u = t ∧ k = j ∧ p' = p ∧ (w.timer t).accepting = true ∧ (w.task k).state = .created := by
  cases hopen : (w.timer t).accepting with
  | false => simp [accept_of_closed hopen] at h
  | true =>
    by_cases hnew : (w.task j).state = .created
    · rw [accept_of_created hopen hnew, List.mem_singleton, Event.scheduled.injEq] at h
      obtain ⟨rfl, rfl, rfl, -⟩ := h
      exact ⟨rfl, rfl, rfl, rfl, hnew⟩
    · simp [accept_of_used hopen hnew] at h

end World

namespace SubmissionCall

variable {call : SubmissionCall} {t : TimerRef} {w : World} {log : List Event}

/-- A moment and a period that stand for something are in order. -/
theorem proper_of_ok {timer : Timer} {due : Instant} {p : Period}
    (hdue : call.moment.deadline timer = .ok due) (hp : call.repetition.period = .ok p) :
    call.Proper := by
  constructor
  · intro hpast
    rw [Moment.deadline_of_past timer hpast] at hdue
    cases hdue
  · intro himproper
    rw [Repetition.period_of_improper himproper] at hp
    cases hp

/-- What makes a call succeed. -/
theorem perform_ok_iff (hc : Coupled w) (hr : Recorded w log) {k : TaskRef} :
    (call.perform t w).result = .ok k ↔
      k = call.target w ∧ (∃ due, call.moment.deadline (w.timer t) = .ok due) ∧
        (∃ p, call.repetition.period = .ok p) ∧ (w.timer t).accepting = true ∧
        (w.task k).state = .created := by
  constructor
  · intro h
    obtain ⟨rfl, hproper, hopen, hnew⟩ := checks_of_ok hc hr h
    obtain ⟨due, p, hdue, hp⟩ := hproper.exists_ok (w.timer t)
    exact ⟨rfl, ⟨due, hdue⟩, ⟨p, hp⟩, hopen, hnew⟩
  · rintro ⟨rfl, ⟨due, hdue⟩, ⟨p, hp⟩, hopen, hnew⟩
    exact (perform_of_created hc hr (proper_of_ok hdue hp) hopen hnew).1

/-- The log says that a task was scheduled only if the call succeeds. -/
theorem perform_of_scheduled (hc : Coupled w) (hr : Recorded w log) {u : TimerRef} {k : TaskRef}
    {p : Period} {b : Bool} (h : .scheduled u k p b ∈ (call.perform t w).events) :
    u = t ∧ call.repetition.period = .ok p ∧ (call.perform t w).result = .ok k := by
  cases call.checked t w with
  | fault hfault => simp [(perform_of_not_proper hr hfault).2.1] at h
  | closed hproper hclosed => simp [(perform_of_closed hr hproper hclosed).2.1] at h
  | used hproper hopen hused => simp [(perform_of_used hr hproper hopen hused).2.1] at h
  | created hproper hopen hnew =>
    obtain ⟨hresult, due, p', -, hp, -, newHead, hevents⟩ :=
      perform_of_created hc hr hproper hopen hnew
    rw [hevents, List.mem_singleton, Event.scheduled.injEq] at h
    obtain ⟨rfl, rfl, rfl, -⟩ := h
    exact ⟨rfl, hp, hresult⟩

end SubmissionCall

namespace System

/-- What a submission is told; other actions are no submissions. -/
def answer? (s : System) : Action → Option (Except SubmissionError TaskRef)
  | .submission t k way => some ((SubmissionCall.task k way).perform t s.world).result
  | .insert t k due way =>
    some (World.handOut k (s.world.submitChecked t k (.ok due) way.period)).result
  | .submitOnce t delay => some ((SubmissionCall.job delay).perform t s.world).result
  | .submitRepeating t delay period mode =>
    some ((SubmissionCall.repeatingJob delay period mode).perform t s.world).result
  | _ => none

variable {s : System} {a : Action} {t u : TimerRef} {k : TaskRef} {call : SubmissionCall}
  {p : Period} {b : Bool}

/-- The action `a` is the call `call` on `t`. -/
structure Makes (s : System) (a : Action) (t : TimerRef) (call : SubmissionCall) : Prop where
  admits : s.Admits a
  submitted : s.submitted? a = some (t, call.target s.world,
    call.moment.deadline (s.world.timer t), call.repetition.period)

theorem Makes.ok_iff (h : s.Makes a t call) (hc : Coupled s.world) (hr : Recorded s.world s.log) :
    (call.perform t s.world).result = .ok k ↔ ∃ u start p, s.Accepts a u k start p := by
  rw [SubmissionCall.perform_ok_iff hc hr]
  constructor
  · rintro ⟨rfl, ⟨due, hdue⟩, ⟨p, hp⟩, hopen, hnew⟩
    exact ⟨t, due, p, h.admits, by rw [h.submitted, hdue, hp], hopen, hnew⟩
  · rintro ⟨u, start, p, -, hsubmitted, hopen, hnew⟩
    rw [h.submitted] at hsubmitted
    simp only [Option.some.injEq, Prod.mk.injEq] at hsubmitted
    obtain ⟨rfl, rfl, hdue, hp⟩ := hsubmitted
    exact ⟨rfl, ⟨start, hdue⟩, ⟨p, hp⟩, hopen, hnew⟩

theorem Makes.accepts_of_scheduled (h : s.Makes a t call) (hc : Coupled s.world)
    (hr : Recorded s.world s.log) (hmem : .scheduled u k p b ∈ (call.perform t s.world).events) :
    ∃ start, s.Accepts a u k start p := by
  obtain ⟨rfl, hp, hresult⟩ := SubmissionCall.perform_of_scheduled hc hr hmem
  obtain ⟨rfl, ⟨due, hdue⟩, -, hopen, hnew⟩ := (SubmissionCall.perform_ok_iff hc hr).1 hresult
  exact ⟨due, h.admits, by rw [h.submitted, hdue, hp], hopen, hnew⟩

theorem makes_submission {way : Session.Submission} (h : s.Admits (.submission t k way)) :
    s.Makes (.submission t k way) t (.task k way) := by
  refine ⟨h, ?_⟩
  rw [submitted?, way.start_eq, way.period_eq]
  rfl

theorem makes_submitOnce {delay : Delay} (h : s.Admits (.submitOnce t delay)) :
    s.Makes (.submitOnce t delay) t (.job delay) :=
  ⟨h, rfl⟩

theorem makes_submitRepeating {delay period : Delay} {mode : RepeatMode}
    (h : s.Admits (.submitRepeating t delay period mode)) :
    s.Makes (.submitRepeating t delay period mode) t (.repeatingJob delay period mode) :=
  ⟨h, rfl⟩

/-- A submission succeeds exactly if a timer accepts its task. -/
theorem answer_ok_iff (hc : Coupled s.world) (hr : Recorded s.world s.log) (h : s.Admits a) :
    s.answer? a = some (.ok k) ↔ ∃ u start p, s.Accepts a u k start p := by
  cases a with
  | submission t j way =>
    rw [answer?, Option.some.injEq]
    exact (makes_submission h).ok_iff hc hr
  | submitOnce t delay =>
    rw [answer?, Option.some.injEq]
    exact (makes_submitOnce h).ok_iff hc hr
  | submitRepeating t delay period mode =>
    rw [answer?, Option.some.injEq]
    exact (makes_submitRepeating h).ok_iff hc hr
  | insert t j due way =>
    simp only [answer?, Option.some.injEq]
    cases hp : way.period with
    | error e =>
      constructor
      · intro hresult
        cases hresult
      · rintro ⟨u, start, p, haccepts⟩
        have hsubmitted := haccepts.submitted
        rw [submitted?, hp] at hsubmitted
        cases hsubmitted
    | ok p =>
      refine World.handOut_accept_ok_iff.trans ⟨?_, ?_⟩
      · rintro ⟨rfl, hopen, hnew⟩
        exact ⟨t, due, p, h, by rw [submitted?, hp], hopen, hnew⟩
      · rintro ⟨u, start, p', -, hsubmitted, hopen, hnew⟩
        simp only [submitted?, Option.some.injEq, Prod.mk.injEq] at hsubmitted
        obtain ⟨rfl, rfl, -⟩ := hsubmitted
        exact ⟨rfl, hopen, hnew⟩
  | _ =>
    constructor
    · intro hanswer
      cases hanswer
    · rintro ⟨u, start, p, haccepts⟩
      cases haccepts.submitted

/-- What an action adds to the log tells of a task that was scheduled only when a timer accepts
it. -/
theorem events_next (hc : Coupled s.world) (hr : Recorded s.world s.log) (a : Action) :
    ∃ events, (s.next a).log = s.log ++ events ∧
      ∀ u k p b, .scheduled u k p b ∈ events → ∃ start, s.Accepts a u k start p := by
  have quiet : ∀ {events : List Event}, (∀ u k p b, .scheduled u k p b ∉ events) →
      ∃ events', s.log ++ events = s.log ++ events' ∧
        ∀ u k p b, .scheduled u k p b ∈ events' → ∃ start, s.Accepts a u k start p :=
    fun hnone => ⟨_, rfl, fun u k p b hmem => absurd hmem (hnone u k p b)⟩
  by_cases hadmits : s.Admits a
  · rw [next, if_pos hadmits]
    cases a with
    | submission t j way =>
      exact ⟨_, rfl, fun _ _ _ _ => (makes_submission hadmits).accepts_of_scheduled hc hr⟩
    | submitOnce t delay =>
      exact ⟨_, rfl, fun _ _ _ _ => (makes_submitOnce hadmits).accepts_of_scheduled hc hr⟩
    | submitRepeating t delay period mode =>
      exact ⟨_, rfl, fun _ _ _ _ => (makes_submitRepeating hadmits).accepts_of_scheduled hc hr⟩
    | insert t j due way =>
      refine ⟨_, rfl, fun u k p b hnew => ?_⟩
      cases hp : way.period with
      | error e => simp [hp, World.submitChecked] at hnew
      | ok p' =>
        rw [hp] at hnew
        obtain ⟨rfl, rfl, rfl, hopen, hcreated⟩ := World.accept_of_scheduled hnew
        exact ⟨due, hadmits, by rw [submitted?, hp], hopen, hcreated⟩
    | newTask => exact quiet (by simp [World.newTask])
    | startTimer clock => exact quiet (by simp [World.startTimer])
    | setClock t clock => exact ⟨[], (List.append_nil _).symm, by simp⟩
    | cancelTask j =>
      refine quiet ?_
      rw [World.events_cancelTask]
      split <;> simp
    | cancelAll t =>
      refine quiet ?_
      rcases World.events_cancelAll s.world t with heq | ⟨n, heq⟩ <;> simp [heq]
    | close t =>
      refine quiet ?_
      simp only [World.close]
      split <;> simp
    | purge t =>
      refine quiet ?_
      rcases World.events_purge s.world t with heq | ⟨n, heq⟩ <;> simp [heq]
    | work t interim =>
      exact quiet (World.worked_work hadmits.1 interim).scheduled_not_mem
    | finish t ending =>
      obtain ⟨f, hf⟩ := Option.ne_none_iff_exists'.1 hadmits.2.2
      simp only [take, hf]
      exact quiet (by simp [World.events_finish])
    | record t bursts =>
      refine quiet ?_
      rcases World.events_record s.world t bursts with heq | ⟨reason, n, heq⟩ <;> simp [heq]
  · rw [next, if_neg hadmits]
    exact ⟨[], (List.append_nil _).symm, by simp⟩

/-- The log says that a task was scheduled only when a timer accepts it. -/
theorem scheduled_next (hc : Coupled s.world) (hr : Recorded s.world s.log)
    (h : .scheduled u k p b ∈ (s.next a).log) :
    .scheduled u k p b ∈ s.log ∨ ∃ start, s.Accepts a u k start p := by
  obtain ⟨events, hlog, haccepts⟩ := events_next hc hr a
  rw [hlog] at h
  exact (List.mem_append.1 h).imp id (haccepts u k p b)

/-! ## One acceptance for all executions -/

/-- Each event of a task that was scheduled stands for the submission that was accepted. -/
theorem accepts_of_scheduled {acts : List Action} (h : .scheduled u k p b ∈ (after acts).log) :
    ∃ pre a post start, acts = pre ++ a :: post ∧ (after pre).Accepts a u k start p := by
  refine after_induction (P := fun acts s => .scheduled u k p b ∈ s.log →
    ∃ pre a post start, acts = pre ++ a :: post ∧ (after pre).Accepts a u k start p)
    (fun h => by cases h) (fun acts a ih hmem => ?_) acts h
  rcases scheduled_next (coupled_after acts) (recorded_after acts) hmem with hold | ⟨start, hnew⟩
  · obtain ⟨pre, a', post, start, rfl, haccepts⟩ := ih hold
    exact ⟨pre, a', post ++ [a], start, by simp, haccepts⟩
  · exact ⟨acts, a, [], start, rfl, hnew⟩

/-- Every execution comes from the submission that was accepted. -/
theorem accepts_of_execution {acts : List Action} {f : Firing TaskRef}
    (h : f ∈ executionsOf k (after acts).log) :
    ∃ pre a post t start p, acts = pre ++ a :: post ∧ (after pre).Accepts a t k start p := by
  have hpos : 0 < ((after acts).world.task k).executions := by
    rw [((recorded_after acts).task k).executions, ← length_executionsOf]
    exact List.length_pos_of_mem h
  obtain ⟨t, p, b, hmem⟩ := acceptedBy_of_used (.inr hpos)
  obtain ⟨pre, a, post, start, hacts, haccepts⟩ := accepts_of_scheduled hmem
  exact ⟨pre, a, post, t, start, p, hacts, haccepts⟩

/-- A task that was accepted is not accepted again. -/
theorem Accepts.not_again {pre post : List Action} {start start' : Instant} {p p' : Period}
    {a' : Action} (h : (after pre).Accepts a t k start p) :
    ¬ (after (pre ++ a :: post)).Accepts a' u k start' p' := fun h' =>
  (timetabled_run h post).used h'.created

end System

/-- What is executed once has no deadline after that. -/
theorem Follows.length_le_one {start : Instant} {fs : List (Firing TaskRef)}
    (h : Follows start .once fs) : fs.length ≤ 1 := by
  cases h with
  | nil => exact Nat.zero_le _
  | snoc before due =>
    cases before with
    | nil => exact Nat.le_refl _
    | snoc before due' =>
      rw [Period.dueAfter?_concat] at due
      cases due

/-- **Each task is accepted once, and its executions are counted.** A submission is answered with
success exactly if a timer accepts its task, and that happens to no task twice, however often and
to whichever timers it is submitted, be it from its own body. Every execution of a task is on the
timer that accepted it, and repeats as that submission asked. Executions are numbered from 1 one
after another, and the record of the task counts them. A task accepted to run once is executed no
more than once. -/
theorem tasks_accepted_once_and_counted (k : TaskRef) (acts : List Action) :
    let s := System.after acts
    (∀ a, s.Admits a →
      (s.answer? a = some (.ok k) ↔ ∃ t start p, s.Accepts a t k start p)) ∧
    (∀ pre a post t start p, acts = pre ++ a :: post → (System.after pre).Accepts a t k start p →
      ∀ a', s.Admits a' → s.answer? a' ≠ some (.ok k)) ∧
    (∀ u f, .firing u f ∈ s.log → f.task = k → ∃ pre a post start, acts = pre ++ a :: post ∧
      (System.after pre).Accepts a u k start f.period) ∧
    (∀ (i : Nat) f, (executionsOf k s.log)[i]? = some f → f.execution = i + 1) ∧
    (s.world.task k).executions = (executionsOf k s.log).length ∧
    ∀ pre a post t start, acts = pre ++ a :: post →
      (System.after pre).Accepts a t k start .once → (executionsOf k s.log).length ≤ 1 := by
  have hc := coupled_after acts
  have hr := recorded_after acts
  refine ⟨fun a hadmits => System.answer_ok_iff hc hr hadmits, ?_, ?_, ?_, ?_, ?_⟩
  · rintro pre a post t start p rfl haccepts a' hadmits hanswer
    obtain ⟨u, start', p', hagain⟩ := (System.answer_ok_iff hc hr hadmits).1 hanswer
    exact haccepts.not_again hagain
  · intro u f hfired hk
    have hmem := mem_executionsOf.2 ⟨hk, u, hfired⟩
    obtain ⟨pre, a, post, t, start, p, rfl, haccepts⟩ := System.accepts_of_execution hmem
    have htable := System.timetabled_run haccepts post
    obtain ⟨i, hi⟩ := List.getElem?_of_mem hmem
    obtain rfl := htable.fired u f hfired hk
    obtain rfl := (htable.follows.spec_at hi).2.2.1
    exact ⟨pre, a, post, start, rfl, haccepts⟩
  · intro i f hf
    obtain ⟨pre, a, post, t, start, p, rfl, haccepts⟩ :=
      System.accepts_of_execution (List.mem_of_getElem? hf)
    exact ((System.timetabled_run haccepts post).follows.spec_at hf).2.2.2
  · rw [length_executionsOf]
    exact (hr.task k).executions
  · rintro pre a post t start rfl haccepts
    exact (System.timetabled_run haccepts post).follows.length_le_one

/-- A body submits its own task again, to the timer that runs it and to another one. -/
example :
    let s := System.after
      [.startTimer { now := .origin, wall := .epoch },
        .startTimer { now := .origin, wall := .epoch }, .newTask,
        .submission ⟨0⟩ ⟨0⟩ (.fixedRate 0 2), .work ⟨0⟩ [], .submission ⟨0⟩ ⟨0⟩ (.once 0),
        .submission ⟨1⟩ ⟨0⟩ (.once 0), .work ⟨1⟩ [], .finish ⟨0⟩ .returned,
        .setClock ⟨0⟩ { now := 2, wall := .epoch }, .work ⟨0⟩ []]
    (executionsOf ⟨0⟩ s.log).map (·.execution) = [1, 2] ∧ s.running ⟨1⟩ = none := by
  decide +kernel

end TaskTimer
