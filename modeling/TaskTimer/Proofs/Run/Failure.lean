/-
TaskTimer.Proofs.Run.Failure — why a thread ended, told from its run.

A thread leaves its loop in one of three ways. A body ends it (`System.FailsIn`), a turn finds
nothing left to do and stops it (`System.StopsFor`), or a turn faults, which never happens. From
then on it is settled for which reason it ends (`System.endsFor_iff`), and all that is left to do
for the thread is to record it. Between the two anything may happen, and none of it tells: when all
tasks are called off after a turn has found that there are none, the reason does not say so. So what
counts is what was called off before that turn (`System.StopsFor`).

A body that takes its thread out of the loop is the last one that the timer runs
(`System.halted_run`). Whoever waits for the thread learns why it ended, unless a panic unwinds it
that nothing catches. That takes something that panics as it is dropped. Where it was thrown in a
body, that is left aside here (`Action.Caught`).
-/
import TaskTimer.Proofs.Run.Shutdown

namespace TaskTimer

/-- The reason to which the end of a body leads, if the thread leaves its loop with it to record
that. -/
theorem Ending.shutdown?_eq_some {k : TaskRef} {ending : Ending} {reason : Shutdown TaskRef} :
    ending.shutdown? k = some reason ↔ ending.exit? k = some (.leaving reason) := by
  unfold shutdown?
  cases ending.exit? k with
  | none => simp
  | some stage => cases stage <;> simp [Stage.reason?]

/-- What was thrown takes the thread to a reason unless it panics as it is dropped. -/
theorem Payload.reason_stage_eq_some {payload : Payload} {reason : Shutdown TaskRef} :
    payload.stage.reason? = some reason ↔
      payload.bursts = false ∧ reason = .panicked payload.message := by
  unfold stage
  cases payload.bursts <;> simp [Stage.reason?, eq_comm]

/-- What is recorded is for what the thread ended. -/
theorem Timer.Told.shutdown_eq_some {x : Timer} (h : x.Told) {reason : Shutdown TaskRef} :
    x.shutdown = some reason ↔ x.stage.isOver = true ∧ x.EndsFor reason := by
  constructor
  · exact fun hended => ⟨h.isOver reason hended, .inr hended⟩
  · rintro ⟨hover, hleaving | hended⟩
    · rw [hleaving] at hover
      cases hover
    · exact hended

namespace System

/-! ## Ways out of the loop -/

/-- On the way, the execution `f` on `t` had a body that ended like this, and did not return. -/
def FailsIn (t : TimerRef) (acts : List Action) (f : Firing TaskRef) (ending : Ending) : Prop :=
  ∃ pre post, acts = pre ++ .finish t ending :: post ∧ (after pre).running t = some f ∧
    ending ≠ .returned

/-- On the way, the body of the execution `f` on `t` threw this, or its error did as it was put into
words or dropped. -/
def PanicsIn (t : TimerRef) (acts : List Action) (f : Firing TaskRef) (payload : Payload) : Prop :=
  FailsIn t acts f (.panicked payload) ∨ FailsIn t acts f (.garbled payload)

/-- On the way, after `pre`, a turn found nothing left to do for the thread of `t`, and stopped
it. -/
def StopsAfter (t : TimerRef) (acts pre : List Action) : Prop :=
  ∃ interim post reason, acts = pre ++ .work t interim :: post ∧
    (after pre).Admits (.work t interim) ∧
    ((after pre).world.work t interim).result = .stop reason

/-- On the way, all tasks of `t` were called off. -/
def CalledOff (t : TimerRef) (acts : List Action) : Prop :=
  ∃ pre post, acts = pre ++ .cancelAll t :: post ∧ (after pre).world.HasTimer t

/-- On the way, a turn stopped the thread of `t`, and the reason is whether all tasks had been
called off by then. -/
inductive StopsFor (t : TimerRef) (acts : List Action) : Shutdown TaskRef → Prop
  | cancelled (pre : List Action) (hstops : StopsAfter t acts pre) (hoff : CalledOff t pre) :
    StopsFor t acts .cancelled
  | drained (pre : List Action) (hstops : StopsAfter t acts pre) (hon : ¬ CalledOff t pre) :
    StopsFor t acts .drained

/-- A body on `t` has taken the thread out of its loop, and the executions on `t` are `fs`. No body
runs, and the thread has only its end to record; when it has, the end is for `reason`, and the timer
takes nothing and holds nothing. -/
structure Halted (s : System) (t : TimerRef) (reason : Shutdown TaskRef)
    (fs : List (Firing TaskRef)) : Prop where
  idle : s.running t = none
  firings : firingsOn t s.log = fs
  ends : ((s.next (.record t false)).world.timer t).stage.isOver = true
  ended : (s.world.timer t).stage.isOver = true →
    (s.world.timer t).shutdown = some reason ∧ (s.world.timer t).accepting = false ∧
      s.world.queued t = []

variable {t : TimerRef} {acts : List Action} {reason : Shutdown TaskRef}

theorem FailsIn.append {f : Firing TaskRef} {ending : Ending} (h : FailsIn t acts f ending)
    (more : List Action) : FailsIn t (acts ++ more) f ending := by
  obtain ⟨pre, post, rfl, hrest⟩ := h
  exact ⟨pre, post ++ more, by simp, hrest⟩

theorem StopsAfter.append {pre : List Action} (h : StopsAfter t acts pre) (more : List Action) :
    StopsAfter t (acts ++ more) pre := by
  obtain ⟨interim, post, reason, rfl, hrest⟩ := h
  exact ⟨interim, post ++ more, reason, by simp, hrest⟩

theorem StopsFor.append (h : StopsFor t acts reason) (more : List Action) :
    StopsFor t (acts ++ more) reason := by
  cases h with
  | cancelled pre hstops hoff => exact .cancelled pre (hstops.append more) hoff
  | drained pre hstops hon => exact .drained pre (hstops.append more) hon

/-! ## Calling off all tasks -/

/-- Only the call that calls off all tasks sets the mark. -/
theorem cancelled_next {s : System} {a : Action}
    (h : ((s.next a).world.timer t).cancelled = true) :
    (s.world.timer t).cancelled = true ∨ a = .cancelAll t ∧ s.world.HasTimer t := by
  by_cases hadmits : s.Admits a
  · by_cases hcall : a = .cancelAll t
    · subst hcall
      exact .inr ⟨rfl, hadmits⟩
    · refine .inl (keep_next (P := fun w _ => (w.timer t).cancelled = true →
        (s.world.timer t).cancelled = true) (fun hw c hmark => ?_) id h)
      rcases c.cancelled_cases hmark with hold | hcancel
      · exact hw hold
      · exact absurd hcancel hcall
  · rw [next, if_neg hadmits] at h
    exact .inl h

theorem cancelled_iff : ((after acts).world.timer t).cancelled = true ↔ CalledOff t acts := by
  constructor
  · intro h
    refine after_induction (P := fun acts s => (s.world.timer t).cancelled = true →
      CalledOff t acts) (fun h => by cases h) (fun acts a ih hmark => ?_) acts h
    rcases cancelled_next hmark with hbefore | ⟨rfl, ht⟩
    · obtain ⟨pre, post, rfl, ht⟩ := ih hbefore
      exact ⟨pre, post ++ [a], by simp, ht⟩
    · exact ⟨acts, [], rfl, ht⟩
  · rintro ⟨pre, post, rfl, ht⟩
    have ht' : (after (pre ++ [.cancelAll t])).world.HasTimer t := by
      rw [after_concat]
      exact hasTimer_next ht _
    have hmark : ((after (pre ++ [.cancelAll t])).world.timer t).cancelled = true := by
      rw [after_concat, timer_next_cancelAll ht]
    have hstays := (stays_run ht' post).cancelled hmark
    rw [← after_append] at hstays
    simpa using hstays

/-- A turn that stops a thread tells whether all tasks had been called off. -/
theorem stopsFor_restReason {pre : List Action} (h : StopsAfter t acts pre) :
    StopsFor t acts (World.restReason ((after pre).world.timer t)) := by
  unfold World.restReason
  split
  · next hmark => exact .cancelled pre h (cancelled_iff.1 hmark)
  · next hmark => exact .drained pre h (mt cancelled_iff.2 hmark)

theorem StopsFor.exists_stopsAfter (h : StopsFor t acts reason) :
    ∃ pre, StopsAfter t acts pre ∧ reason = World.restReason ((after pre).world.timer t) := by
  cases h with
  | cancelled pre hstops hoff =>
    exact ⟨pre, hstops, by rw [World.restReason, if_pos (cancelled_iff.2 hoff)]⟩
  | drained pre hstops hon =>
    exact ⟨pre, hstops, by rw [World.restReason, if_neg (mt cancelled_iff.1 hon)]⟩

/-! ## Each way out has its reason -/

/-- A body that takes its thread out of the loop leaves the thread its reason to record. -/
theorem stage_next_finish {f : Firing TaskRef} {ending : Ending}
    (hf : (after acts).running t = some f) (hreason : ending.shutdown? f.task = some reason) :
    ((after (acts ++ [.finish t ending])).world.timer t).stage = .leaving reason := by
  have busy := busy_after hf
  have hadmits : (after acts).Admits (.finish t ending) :=
    ⟨busy.hasTimer, busy.going, by simp [hf]⟩
  rw [after_concat, (next_finish hadmits hf).1,
    World.finish_of_exit (Ending.shutdown?_eq_some.1 hreason), World.setStage,
    World.timer_setTimer_same]

/-- So does a turn that stops it. -/
theorem stage_next_work {interim : List TaskRef} (hadmits : (after acts).Admits (.work t interim))
    (hstop : ((after acts).world.work t interim).result = .stop reason) :
    ((after (acts ++ [.work t interim])).world.timer t).stage =
      .leaving (World.restReason ((after acts).world.timer t)) := by
  obtain ⟨-, hempty, hclosed⟩ := World.work_stop_iff.1 hstop
  rw [after_concat, (next_work hadmits).1, World.work_of_closed interim hempty hclosed,
    World.setStage, World.timer_setTimer_same]

theorem endsFor_of_prefix (ht : (after acts).world.HasTimer t)
    (h : ((after acts).world.timer t).EndsFor reason) (more : List Action) :
    ((after (acts ++ more)).world.timer t).EndsFor reason := by
  rw [after_append]
  exact (stays_run ht more).endsFor reason h

/-- For what a thread ends is told by the body that took it out of its loop, or by the turn. -/
theorem endsFor_iff :
    ((after acts).world.timer t).EndsFor reason ↔
      (∃ f ending, FailsIn t acts f ending ∧ ending.shutdown? f.task = some reason) ∨
        StopsFor t acts reason := by
  constructor
  · intro h
    refine after_induction (P := fun acts s => (s.world.timer t).EndsFor reason →
      (∃ f ending, FailsIn t acts f ending ∧ ending.shutdown? f.task = some reason) ∨
        StopsFor t acts reason) (fun h => by rcases h with h | h <;> cases h)
      (fun acts a ih hends => ?_) acts h
    rcases endsFor_next hends with hbefore | ⟨interim, rfl, hadmits, hstop⟩ |
      ⟨ending, f, rfl, -, hf, hreason⟩
    · refine (ih hbefore).imp ?_ fun hstops => hstops.append [a]
      rintro ⟨f, ending, hfails, hreason⟩
      exact ⟨f, ending, hfails.append [a], hreason⟩
    · rw [(World.work_stop_iff.1 hstop).1]
      exact .inr (stopsFor_restReason ⟨interim, [], reason, rfl, hadmits, hstop⟩)
    · refine .inl ⟨f, ending, ⟨acts, [], rfl, hf, ?_⟩, hreason⟩
      rintro rfl
      cases hreason
  · rintro (⟨f, ending, ⟨pre, post, rfl, hf, -⟩, hreason⟩ | hstops)
    · have ht := hasTimer_next (busy_after hf).hasTimer (.finish t ending)
      rw [← after_concat] at ht
      simpa using endsFor_of_prefix ht (.inl (stage_next_finish hf hreason)) post
    · obtain ⟨pre, ⟨interim, post, reason', rfl, hadmits, hstop⟩, rfl⟩ := hstops.exists_stopsAfter
      have ht := hasTimer_next hadmits.1 (.work t interim)
      rw [← after_concat] at ht
      simpa using endsFor_of_prefix ht (.inl (stage_next_work hadmits hstop)) post

/-- The reasons told by the way in which the body ended that took the thread out of its loop. -/
theorem exists_failsIn_iff :
    (∃ f ending, FailsIn t acts f ending ∧ ending.shutdown? f.task = some reason) ↔
      (∃ f chain, FailsIn t acts f (.failed chain) ∧
        reason = .taskFailed f.task (chainMessage chain)) ∨
      ∃ f payload, PanicsIn t acts f payload ∧ payload.bursts = false ∧
        reason = .panicked payload.message := by
  constructor
  · rintro ⟨f, ending, hfails, hreason⟩
    cases ending with
    | returned => cases hreason
    | failed chain => exact .inl ⟨f, chain, hfails, (Option.some.inj hreason).symm⟩
    | garbled payload =>
      exact .inr ⟨f, payload, .inr hfails, Payload.reason_stage_eq_some.1 hreason⟩
    | panicked payload =>
      exact .inr ⟨f, payload, .inl hfails, Payload.reason_stage_eq_some.1 hreason⟩
  · rintro (⟨f, chain, hfails, rfl⟩ | ⟨f, payload, hfails | hfails, hpanicked⟩)
    · exact ⟨f, _, hfails, rfl⟩
    · exact ⟨f, _, hfails, Payload.reason_stage_eq_some.2 hpanicked⟩
    · exact ⟨f, _, hfails, Payload.reason_stage_eq_some.2 hpanicked⟩

/-- What is recorded of a thread that is over. -/
theorem shutdown_iff :
    ((after acts).world.timer t).shutdown = some reason ↔
      ((after acts).world.timer t).stage.isOver = true ∧
        ((∃ f chain, FailsIn t acts f (.failed chain) ∧
            reason = .taskFailed f.task (chainMessage chain)) ∨
          (∃ f payload, PanicsIn t acts f payload ∧ payload.bursts = false ∧
            reason = .panicked payload.message) ∨
          StopsFor t acts reason) := by
  rw [(told_after acts t).shutdown_eq_some, endsFor_iff, exists_failsIn_iff, or_assoc]

/-! ## After a body that failed -/

/-- A thread that has left its loop runs nothing more. -/
theorem firingsOn_run_of_left (ht : (after acts).world.HasTimer t)
    (hleft : ((after acts).world.timer t).stage ≠ .going) (more : List Action) :
    firingsOn t ((after acts).run more).log = firingsOn t (after acts).log := by
  refine run_induction (P := fun _ s => firingsOn t s.log = firingsOn t (after acts).log) rfl
    (fun more a ih => Eq.trans ?_ ih) more
  by_cases hwork : ∃ interim, a = .work t interim
  · obtain ⟨interim, rfl⟩ := hwork
    have hstays := (stays_run ht more).left hleft
    rw [← after_append] at hstays
    rw [next, if_neg fun hadmits => hstays hadmits.2.1]
  · exact firingsOn_next_of_ne fun interim ha => hwork ⟨interim, ha⟩

/-- A thread that has left its loop can record why, and then it is over. -/
theorem over_next_record {s : System} (ht : s.world.HasTimer t)
    (hleft : (s.world.timer t).stage ≠ .going) :
    ((s.next (.record t false)).world.timer t).stage.isOver = true := by
  cases hstage : (s.world.timer t).stage with
  | going => exact absurd hstage hleft
  | leaving reason =>
    have hadmits : s.Admits (.record t false) := ⟨ht, by simp [hstage, Stage.reason?], by simp⟩
    rw [next, if_pos hadmits]
    show ((s.world.record t false).world.timer t).stage.isOver = true
    rw [World.record_of_leaving hstage, World.ended, World.timer_setTimer_same]
    rfl
  | returned | unwound =>
    have hnot : ¬ s.Admits (.record t false) := fun hadmits =>
      hadmits.2.1 (by simp [hstage, Stage.reason?])
    rw [next, if_neg hnot, hstage]
    rfl

/-- Once a body has taken its thread out of the loop, nothing more comes of the timer. -/
theorem halted_run {f : Firing TaskRef} {ending : Ending}
    (hf : (after acts).running t = some f) (hreason : ending.shutdown? f.task = some reason)
    (more : List Action) :
    ((after acts).run (.finish t ending :: more)).Halted t reason
      (firingsOn t (after acts).log) := by
  have hrun : (after acts).run (.finish t ending :: more) =
      after (acts ++ [.finish t ending] ++ more) := by
    rw [List.append_assoc, after_append]
    rfl
  have hstage := stage_next_finish hf hreason
  have ht : (after (acts ++ [.finish t ending])).world.HasTimer t := by
    rw [after_concat]
    exact hasTimer_next (busy_after hf).hasTimer _
  have hleft : ((after (acts ++ [.finish t ending])).world.timer t).stage ≠ .going := by
    simp [hstage]
  have hends := endsFor_of_prefix ht (.inl hstage) more
  have hlater : ((after (acts ++ [.finish t ending] ++ more)).world.timer t).stage ≠ .going := by
    rw [after_append]
    exact (stays_run ht more).left hleft
  rw [hrun]
  constructor
  · rw [Option.eq_none_iff_forall_ne_some]
    exact fun g hg => hlater (busy_after hg).going
  · rw [after_append, firingsOn_run_of_left ht hleft, after_concat]
    exact firingsOn_next_of_ne (by simp)
  · refine over_next_record ?_ hlater
    rw [after_append]
    exact hasTimer_run ht more
  · intro hover
    have hended := (told_after _ t).shutdown_eq_some.2 ⟨hover, hends⟩
    have hspent := off_after (Timer.off_of_shutdown hended)
    exact ⟨hended, hspent.2, hspent.1⟩

/-! ## Waiting for the thread -/

/-- A thread that is over has recorded why, unless something thrown in a body panicked as it was
dropped. -/
theorem over_iff (hcaught : ∀ a ∈ acts, a.Caught t) :
    ((after acts).world.timer t).stage.isOver = true ↔
      ((after acts).world.timer t).shutdown ≠ none := by
  have told := told_after acts t
  constructor
  · intro hover
    cases hstage : ((after acts).world.timer t).stage with
    | returned => exact told.recorded hstage
    | unwound =>
      rcases unwound_run hstage with ⟨hstart, -⟩ | ⟨a, ha, hthrown⟩ | ⟨-, hended⟩
      · cases hstart
      · exact absurd (hcaught a ha) hthrown
      · exact hended
    | going | leaving =>
      rw [hstage] at hover
      cases hover
  · intro hended
    obtain ⟨reason, hreason⟩ := Option.ne_none_iff_exists'.1 hended
    exact told.isOver reason hreason

/-- Whoever waits for a thread that has recorded why it ended is told that, if no task panicked as
it was dropped then. -/
theorem joined_of_shutdown (hcaught : ∀ a ∈ acts, a.Caught t) (hdropped : .record t true ∉ acts)
    (hended : ((after acts).world.timer t).shutdown = some reason) :
    ((after acts).world.timer t).joined = Shutdown.joined (some reason) := by
  have hwound : ((after acts).world.timer t).stage ≠ .unwound := by
    intro hstage
    rcases unwound_run hstage with ⟨hstart, -⟩ | ⟨a, ha, hthrown⟩ | ⟨hmem, -⟩
    · cases hstart
    · exact hthrown (hcaught a ha)
    · exact hdropped hmem
  rw [← hended, Timer.joined]
  cases hstage : ((after acts).world.timer t).stage with
  | unwound => exact absurd hstage hwound
  | going | leaving | returned => rfl

theorem PanicsIn.bursts_eq_false {f : Firing TaskRef} {payload : Payload}
    (h : PanicsIn t acts f payload) (hcaught : ∀ a ∈ acts, a.Caught t) :
    payload.bursts = false := by
  rcases h with ⟨pre, post, rfl, -⟩ | ⟨pre, post, rfl, -⟩
  · exact hcaught _ (List.mem_append_right _ List.mem_cons_self) rfl
  · exact hcaught _ (List.mem_append_right _ List.mem_cons_self) rfl

/-- Whoever waits is told the reason: as an error, if a body ended the thread. -/
theorem joined_iff (hcaught : ∀ a ∈ acts, a.Caught t) (hdropped : .record t true ∉ acts)
    (hover : ((after acts).world.timer t).stage.isOver = true)
    {answer : Except (TimerError TaskRef) (Shutdown TaskRef)} :
    ((after acts).world.timer t).joined = answer ↔
      (∃ f chain, FailsIn t acts f (.failed chain) ∧
        answer = .error (.taskFailed f.task (chainMessage chain))) ∨
      (∃ f payload, PanicsIn t acts f payload ∧ answer = .error (.panicked payload.message)) ∨
      ∃ reason, StopsFor t acts reason ∧ answer = .ok reason := by
  have joined : ∀ {reason}, ((after acts).world.timer t).shutdown = some reason →
      ((after acts).world.timer t).joined = Shutdown.joined (some reason) :=
    joined_of_shutdown hcaught hdropped
  have told_ok : ∀ {reason}, StopsFor t acts reason → Shutdown.joined (some reason) = .ok reason :=
    fun hstops => by cases hstops <;> rfl
  constructor
  · rintro rfl
    obtain ⟨reason, hended⟩ := Option.ne_none_iff_exists'.1 ((over_iff hcaught).1 hover)
    rw [joined hended]
    rcases (shutdown_iff.1 hended).2 with ⟨f, chain, hfails, rfl⟩ | ⟨f, payload, hpanics, -, rfl⟩ |
      hstops
    · exact .inl ⟨f, chain, hfails, rfl⟩
    · exact .inr (.inl ⟨f, payload, hpanics, rfl⟩)
    · exact .inr (.inr ⟨reason, hstops, told_ok hstops⟩)
  · rintro (⟨f, chain, hfails, rfl⟩ | ⟨f, payload, hpanics, rfl⟩ | ⟨reason, hstops, rfl⟩)
    · exact joined (shutdown_iff.2 ⟨hover, .inl ⟨f, chain, hfails, rfl⟩⟩)
    · have hquiet := hpanics.bursts_eq_false hcaught
      exact joined (shutdown_iff.2 ⟨hover, .inr (.inl ⟨f, payload, hpanics, hquiet, rfl⟩)⟩)
    · rw [joined (shutdown_iff.2 ⟨hover, .inr (.inr hstops)⟩), told_ok hstops]

end System

/-- **A failing body ends its thread, and the reason recorded is the true one.** Let nothing that is
thrown in a body on `t` panic as it is dropped. The body that the thread runs is that of its latest
execution. If it fails or panics, no execution follows on `t` and no body runs, whatever happens
from there on; the thread has nothing left to do but to record why it ends, and once it has, the
timer takes no tasks, its queue is empty, and the reason is that body: the task with the message of
its error, or the message of what it threw. A reason is recorded just of the threads that are over:
that of the body that failed or panicked, or, where a turn found nothing left to do, that all tasks
were called off if that had happened by then, and else that the queue ran dry. No turn faults. So
whoever waits for a thread that is over is told of the error exactly if a body ended
it, with the same data, and else of the reason for which a turn stopped it; nothing else is ever
told, unless a task panics as it is dropped with the end of the thread. -/
theorem threads_end_with_their_reason {t : TimerRef} {acts : List Action}
    (hcaught : ∀ a ∈ acts, a.Caught t) :
    let s := System.after acts
    let timer := s.world.timer t
    (∀ f, s.running t = some f →
      (firingsOn t s.log).getLast? = some f ∧
      (∀ chain more, (s.run (.finish t (.failed chain) :: more)).Halted t
        (.taskFailed f.task (chainMessage chain)) (firingsOn t s.log)) ∧
      ∀ payload more, payload.bursts = false →
        (s.run (.finish t (.panicked payload) :: more)).Halted t (.panicked payload.message)
          (firingsOn t s.log) ∧
        (s.run (.finish t (.garbled payload) :: more)).Halted t (.panicked payload.message)
          (firingsOn t s.log)) ∧
    (∀ reason, timer.shutdown = some reason ↔ timer.stage.isOver = true ∧
      ((∃ f chain, System.FailsIn t acts f (.failed chain) ∧
          reason = .taskFailed f.task (chainMessage chain)) ∨
        (∃ f payload, System.PanicsIn t acts f payload ∧ reason = .panicked payload.message) ∨
        System.StopsFor t acts reason)) ∧
    (timer.stage.isOver = true ↔ timer.shutdown ≠ none) ∧
    (∀ interim e, s.Admits (.work t interim) → (s.world.work t interim).result ≠ .fault e) ∧
    (timer.stage.isOver = true → .record t true ∉ acts → ∀ answer, timer.joined = answer ↔
      (∃ f chain, System.FailsIn t acts f (.failed chain) ∧
        answer = .error (.taskFailed f.task (chainMessage chain))) ∨
      (∃ f payload, System.PanicsIn t acts f payload ∧
        answer = .error (.panicked payload.message)) ∨
      ∃ reason, System.StopsFor t acts reason ∧ answer = .ok reason) := by
  refine ⟨fun f hf => ⟨(System.busy_after hf).latest, ?_, ?_⟩, fun reason => ?_,
    System.over_iff hcaught, fun interim e hadmits hfault => ?_,
    fun hover hdropped answer => System.joined_iff hcaught hdropped hover⟩
  · exact fun chain more => System.halted_run hf rfl more
  · intro payload more hquiet
    have hreason : payload.stage.reason? = some (.panicked payload.message) :=
      Payload.reason_stage_eq_some.2 ⟨hquiet, rfl⟩
    have panicked : (Ending.panicked payload).shutdown? f.task = some _ := hreason
    have garbled : (Ending.garbled payload).shutdown? f.task = some _ := hreason
    exact ⟨System.halted_run hf panicked more, System.halted_run hf garbled more⟩
  · rw [System.shutdown_iff]
    refine and_congr Iff.rfl (or_congr Iff.rfl (or_congr ?_ Iff.rfl))
    refine exists_congr fun f => exists_congr fun payload => and_congr_right fun hpanics => ?_
    exact and_iff_right (hpanics.bursts_eq_false hcaught)
  · have hworked := World.worked_work hadmits.1 interim
    rw [hfault] at hworked
    cases hworked

/-- From the body of a repeating task all tasks are called off, and another one is submitted in
vain. The body fails all the same, with an error that has a cause, and it is what is told. -/
theorem threads_end_with_their_reason_calledOffInBody :
    let acts : List Action :=
      [.startTimer { now := .origin, wall := .epoch }, .newTask,
        .submission ⟨0⟩ ⟨0⟩ (.fixedRate 0 2), .work ⟨0⟩ [], .cancelAll ⟨0⟩, .submitOnce ⟨0⟩ 0,
        .finish ⟨0⟩ (.failed ["disk full", "cannot write"]), .record ⟨0⟩ false]
    let timer := (System.after acts).world.timer ⟨0⟩
    (∀ a ∈ acts, a.Caught ⟨0⟩) ∧ System.CalledOff ⟨0⟩ acts ∧ timer.stage.isOver = true ∧
      timer.shutdown = some (.taskFailed ⟨0⟩ "cannot write: disk full") ∧
      timer.joined = .error (.taskFailed ⟨0⟩ "cannot write: disk full") := by
  intro acts timer
  have hcaught : ∀ a ∈ acts, a.Caught ⟨0⟩ := by decide +kernel
  have hoff : System.CalledOff ⟨0⟩ acts := System.cancelled_iff.1 (by decide +kernel)
  have hover : timer.stage.isOver = true := by decide +kernel
  have hfails : System.FailsIn ⟨0⟩ acts
      { task := ⟨0⟩, due := 0, firedAt := 0, period := .fixedRate 2, execution := 1 }
      (.failed ["disk full", "cannot write"]) :=
    ⟨acts.take 6, acts.drop 7, rfl, by decide +kernel, by simp⟩
  have hmessage : chainMessage ["disk full", "cannot write"] = "cannot write: disk full" := by
    decide +kernel
  obtain ⟨-, hreasons, -, -, hjoins⟩ := threads_end_with_their_reason hcaught
  rw [← hmessage]
  exact ⟨hcaught, hoff, hover, (hreasons _).2 ⟨hover, .inl ⟨_, _, hfails, rfl⟩⟩,
    (hjoins hover (by decide +kernel) _).2 (.inl ⟨_, _, hfails, rfl⟩)⟩

/-- Ends that are not as one might expect. All tasks are called off after a turn found that there
are none, and before that is recorded: the queue has run dry all the same. A body throws something
that is no text: one text stands for all of it. A body fails with an error that panics as it is put
into words: it is the panic that is told. A body throws something that panics as it is dropped: the
thread is over, but no reason is recorded, the timer goes on taking tasks, and whoever waits is told
of the thread and not of the body. A task that is dropped as the thread ends panics then: the reason
is recorded, but again not told. -/
theorem threads_that_end_otherwise :
    let start : Action := .startTimer { now := .origin, wall := .epoch }
    let acts : List Action := [start, .close ⟨0⟩, .work ⟨0⟩ [], .cancelAll ⟨0⟩]
    let ended := (System.after (acts ++ [.record ⟨0⟩ false])).world.timer ⟨0⟩
    let endedBy (ending : Ending) (bursts : Bool) := (System.after
      [start, .newTask, .submission ⟨0⟩ ⟨0⟩ (.fixedRate 0 2), .work ⟨0⟩ [], .finish ⟨0⟩ ending,
        .record ⟨0⟩ bursts]).world.timer ⟨0⟩
    let thrown := endedBy (.panicked (.other true)) false
    let dropped := endedBy (.failed ["disk full"]) true
    (System.CalledOff ⟨0⟩ acts ∧ ((System.after acts).world.timer ⟨0⟩).stage.isOver = false ∧
      (∀ f ending, ¬ System.FailsIn ⟨0⟩ (acts ++ [.record ⟨0⟩ false]) f ending) ∧
      ended.shutdown = some .drained ∧ ended.joined = .ok .drained) ∧
    (endedBy (.panicked (.other false)) false).shutdown =
      some (.panicked "non-string panic payload") ∧
    (endedBy (.garbled (.text "no words")) false).shutdown = some (.panicked "no words") ∧
    (thrown.stage.isOver = true ∧ thrown.shutdown = none ∧ thrown.accepting = true ∧
      thrown.joined = .error (.panicked "timer thread panicked")) ∧
    dropped.shutdown = some (.taskFailed ⟨0⟩ "disk full") ∧
      dropped.joined = .error (.panicked "timer thread panicked") := by
  intro start acts ended endedBy thrown dropped
  have hoff : System.CalledOff ⟨0⟩ acts := System.cancelled_iff.1 (by decide +kernel)
  have hnever : ∀ f ending, ¬ System.FailsIn ⟨0⟩ (acts ++ [.record ⟨0⟩ false]) f ending := by
    rintro f ending ⟨pre, post, hacts, -⟩
    have hmem : .finish ⟨0⟩ ending ∈ acts ++ [.record ⟨0⟩ false] := hacts ▸ by simp
    simp [acts, start] at hmem
  have hthrown : thrown.stage.isOver = true ∧ thrown.shutdown = none ∧ thrown.accepting = true ∧
      thrown.joined = .error (.panicked "timer thread panicked") := by decide +kernel
  exact ⟨⟨hoff, by decide +kernel, hnever, by decide +kernel, by decide +kernel⟩,
    by decide +kernel, by decide +kernel, hthrown, by decide +kernel, by decide +kernel⟩

end TaskTimer
