/-
TaskTimer.Proofs.Run.Change — what an action can change, one elementary change at a time.

`Change a w events w'` lists every elementary change of a world: which conditions it needs, what
it does to the tables, and what it adds to the log. Each operation of a world is a sequence of
such changes (`Changes`), and so is each action (`System.changes_next`). What every change keeps,
every run keeps (`System.keep_after`), so an invariant is proved change by change and no operation
is opened again.

Two operations change nothing of their own and do not occur in the list: a turn that waits, and
a submission that is refused for its arguments or its task.
-/
import TaskTimer.Proofs.Run.System

namespace TaskTimer

/-- The reason with which the end of the body of the task `k` takes the thread out of its loop, if
it does. -/
def Ending.shutdown? (k : TaskRef) (ending : Ending) : Option (Shutdown TaskRef) :=
  (ending.exit? k).bind Stage.reason?

/-- The thread of the timer ends for this reason: it is to record it, or it has. -/
def Timer.EndsFor (x : Timer) (reason : Shutdown TaskRef) : Prop :=
  x.stage = .leaving reason ∨ x.shutdown = some reason

/-- An elementary change that can be part of the action `a`. -/
inductive Change (a : Action) (w : World) : List Event → World → Prop
  | newTask : Change a w [] { w.setTask ⟨w.taskCount⟩ {} with taskCount := w.taskCount + 1 }
  | startTimer (clock : Clock) (ha : a = .startTimer clock) :
    Change a w [.threadStarted ⟨w.timerCount⟩]
      { w.setTimer ⟨w.timerCount⟩ { clock := clock } with timerCount := w.timerCount + 1 }
  | setClock (t : TimerRef) (clock : Clock) (ha : a = .setClock t clock) (ht : w.HasTimer t) :
    Change a w [] (w.setClock t clock)
  | reject (t : TimerRef) (k : TaskRef) : Change a w [.rejected t k] w
  | accept (t : TimerRef) (k : TaskRef) (due : Instant) (period : Period) (newHead : Bool)
      (ht : w.HasTimer t) (hk : w.HasTask k) (hopen : (w.timer t).accepting = true)
      (hnew : (w.task k).state = .created)
      (hdue : (w.timer t).clock.now ≤ due ∨ ∃ way, a = .insert t k due way)
      (hperiod : period.Positive) :
    Change a w [.scheduled t k period newHead] (w.enqueue t k due period)
  | cancel (k : TaskRef) (hk : w.HasTask k) (hopen : (w.task k).state.canBecome .cancelled) :
    Change a w [.taskCancelled k] (w.setTask k { w.task k with state := .cancelled })
  | cancelAll (t : TimerRef) (events : List Event) (ha : a = .cancelAll t) (ht : w.HasTimer t)
      (hevents : events = [] ∨ ∃ n, events = [.timerCancelled t n]) :
    Change a w events
      (w.setTimer t { w.timer t with queue := .empty, accepting := false, cancelled := true })
  | close (t : TimerRef) (n : Nat) (ht : w.HasTimer t) :
    Change a w [.timerClosed t n] (w.setTimer t { w.timer t with accepting := false })
  | purge (t : TimerRef) (events : List Event) (ht : w.HasTimer t)
      (hevents : events = [] ∨ ∃ n, events = [.purged t n]) :
    Change a w events
      (w.setTimer t
        { w.timer t with queue := ((w.timer t).queue.purge w.isCancelled).2 })
  | discard (t : TimerRef) (head : Entry TaskRef) (ht : w.HasTimer t)
      (hpeek : (w.timer t).queue.peek = some head)
      (hcancelled : (w.task head.item).state = .cancelled) :
    Change a w [] (w.dropHead t)
  | retire (t : TimerRef) (head : Entry TaskRef) (interim : List TaskRef)
      (ha : a = .work t interim) (hfires : w.Fires t head)
      (honce : (w.task head.item).period = .once) :
    Change a w [.firing t (w.firing t head)] (w.retire t head)
  | postpone (t : TimerRef) (head : Entry TaskRef) (interim : List TaskRef) (next : Instant)
      (queue : Queue TaskRef) (ha : a = .work t interim) (hfires : w.Fires t head)
      (hnext : (w.task head.item).period.next? head.due (w.timer t).clock.now = some next)
      (hqueue : (w.timer t).queue.postponeMin next = .ok queue) :
    Change a w [.firing t (w.firing t head)] (w.postpone t head next queue)
  | rest (t : TimerRef) (interim : List TaskRef) (ha : a = .work t interim)
      (ht : w.HasTimer t) (hgoing : (w.timer t).stage = .going)
      (hempty : (w.timer t).queue.peek = none) (hclosed : (w.timer t).accepting = false) :
    Change a w [] (w.setStage t (.leaving (World.restReason (w.timer t))))
  | fail (t : TimerRef) (ending : Ending) (k : TaskRef) (stage : Stage)
      (ha : a = .finish t ending) (ht : w.HasTimer t) (hgoing : (w.timer t).stage = .going)
      (hexit : ending.exit? k = some stage) :
    Change a w [] (w.setStage t stage)
  | record (t : TimerRef) (bursts : Bool) (reason : Shutdown TaskRef) (events : List Event)
      (ha : a = .record t bursts) (ht : w.HasTimer t)
      (hleaving : (w.timer t).stage = .leaving reason)
      (hevents : events = [] ∨ ∃ n, events = [.threadEnded t reason n]) :
    Change a w events (w.ended t reason (if bursts then .unwound else .returned))

namespace Change

variable {a : Action} {w w' : World} {events : List Event} {t : TimerRef}

/-- Only `cancelAll` leaves the mark that all tasks were called off. -/
theorem cancelled_cases (c : Change a w events w') (h : (w'.timer t).cancelled = true) :
    (w.timer t).cancelled = true ∨ a = .cancelAll t := by
  cases c with
  | newTask | reject | cancel => exact .inl h
  | startTimer =>
    obtain ⟨-, hx⟩ | hbefore := World.of_timer_setTimer (·.cancelled = true) h
    · cases hx
    · exact .inl hbefore
  | cancelAll u events ha =>
    obtain ⟨rfl, -⟩ | hbefore := World.of_timer_setTimer (·.cancelled = true) h
    · exact .inr ha
    · exact .inl hbefore
  | setClock | accept | close | purge | discard | retire | postpone | rest | fail | record =>
    obtain ⟨rfl, hx⟩ | hbefore := World.of_timer_setTimer (·.cancelled = true) h
    · exact .inl hx
    · exact .inl hbefore

/-- A thread ends by a turn that finds nothing more to do, or with a body. -/
theorem endsFor_cases (c : Change a w events w') {reason : Shutdown TaskRef}
    (h : (w'.timer t).EndsFor reason) :
    (w.timer t).EndsFor reason ∨
      (∃ interim, a = .work t interim) ∧ reason = World.restReason (w.timer t) ∨
      ∃ ending k, a = .finish t ending ∧ ending.shutdown? k = some reason := by
  cases c with
  | newTask | reject | cancel => exact .inl h
  | startTimer =>
    obtain ⟨-, hx⟩ | hbefore := World.of_timer_setTimer (·.EndsFor reason) h
    · rcases hx with hx | hx <;> cases hx
    · exact .inl hbefore
  | rest u interim ha =>
    obtain ⟨rfl, hx⟩ | hbefore := World.of_timer_setTimer (·.EndsFor reason) h
    · rcases hx with hx | hx
      · exact .inr (.inl ⟨⟨interim, ha⟩, (Stage.leaving.inj hx).symm⟩)
      · exact .inl (.inr hx)
    · exact .inl hbefore
  | fail u ending k stage ha ht hgoing hexit =>
    obtain ⟨rfl, hx⟩ | hbefore := World.of_timer_setTimer (·.EndsFor reason) h
    · rcases hx with rfl | hx
      · exact .inr (.inr ⟨ending, k, ha, by simp [Ending.shutdown?, hexit, Stage.reason?]⟩)
      · exact .inl (.inr hx)
    · exact .inl hbefore
  | record u bursts reason' events ha ht hleaving =>
    obtain ⟨rfl, hx⟩ | hbefore := World.of_timer_setTimer (·.EndsFor reason) h
    · rcases hx with hx | hx
      · cases bursts <;> cases hx
      · exact .inl (.inl (Option.some.inj hx ▸ hleaving))
    · exact .inl hbefore
  | setClock | accept | cancelAll | close | purge | discard | retire | postpone =>
    obtain ⟨rfl, hx⟩ | hbefore := World.of_timer_setTimer (·.EndsFor reason) h
    · exact .inl hx
    · exact .inl hbefore

/-- How far a thread has come, and what is recorded of it, is its own affair. -/
theorem thread_eq (c : Change a w events w') (ht : w.HasTimer t)
    (hwork : ∀ interim, a ≠ .work t interim) (hfinish : ∀ ending, a ≠ .finish t ending)
    (hrecord : ∀ bursts, a ≠ .record t bursts) :
    (w'.timer t).stage = (w.timer t).stage ∧ (w'.timer t).shutdown = (w.timer t).shutdown := by
  have kept : ∀ {u : TimerRef} {x : Timer},
      (u = t → x.stage = (w.timer u).stage ∧ x.shutdown = (w.timer u).shutdown) →
      ((w.setTimer u x).timer t).stage = (w.timer t).stage ∧
        ((w.setTimer u x).timer t).shutdown = (w.timer t).shutdown := fun hx =>
    World.keep_setTimer
      (P := fun y => y.stage = (w.timer t).stage ∧ y.shutdown = (w.timer t).shutdown) ⟨rfl, rfl⟩
      fun ht => ht ▸ hx ht.symm
  cases c with
  | newTask | reject | cancel => exact ⟨rfl, rfl⟩
  | startTimer =>
    refine kept fun hu => ?_
    rw [← hu] at ht
    exact absurd ht (Nat.lt_irrefl _)
  | rest u interim ha => exact kept fun hu => absurd (hu ▸ ha) (hwork interim)
  | fail u ending k stage ha => exact kept fun hu => absurd (hu ▸ ha) (hfinish ending)
  | record u bursts reason events ha => exact kept fun hu => absurd (hu ▸ ha) (hrecord bursts)
  | _ => exact kept fun _ => ⟨rfl, rfl⟩

theorem hasTimer (c : Change a w events w') (ht : w.HasTimer t) : w'.HasTimer t := by
  cases c with
  | startTimer => exact Nat.lt_succ_of_lt ht
  | _ => exact ht

/-- A timer's clock is moved by `setClock` alone. -/
theorem clock_eq (c : Change a w events w') (ht : w.HasTimer t)
    (ha : ∀ clock, a ≠ .setClock t clock) : (w'.timer t).clock = (w.timer t).clock := by
  have kept : ∀ {u : TimerRef} {x : Timer}, (u = t → x.clock = (w.timer u).clock) →
      ((w.setTimer u x).timer t).clock = (w.timer t).clock := fun hx =>
    World.keep_setTimer (P := fun y => y.clock = (w.timer t).clock) rfl
      fun ht => ht ▸ hx ht.symm
  cases c with
  | newTask | reject | cancel => rfl
  | startTimer =>
    refine kept fun hu => ?_
    rw [← hu] at ht
    exact absurd ht (Nat.lt_irrefl _)
  | setClock u clock hset =>
    refine kept fun hu => ?_
    exact absurd (hu ▸ hset) (ha clock)
  | _ => exact kept fun _ => rfl

/-- An execution comes from a turn whose head fires. -/
theorem firing_cases (c : Change a w events w') {f : Firing TaskRef}
    (hf : .firing t f ∈ events) :
    ∃ head interim, a = .work t interim ∧ w.Fires t head ∧ f = w.firing t head := by
  cases c with
  | retire u head interim ha hfires | postpone u head interim next queue ha hfires =>
    obtain ⟨rfl, rfl⟩ := Event.firing.inj (List.mem_singleton.1 hf)
    exact ⟨head, interim, ha, hfires, rfl⟩
  | cancelAll u events ha ht hevents | purge u events ht hevents
  | record u bursts reason events ha ht hleaving hevents =>
    rcases hevents with rfl | ⟨n, rfl⟩ <;> simp at hf
  | _ => simp at hf

end Change

/-- A reason is recorded only of a thread that is over, and of all that have returned. -/
structure Timer.Told (x : Timer) : Prop where
  isOver : ∀ reason, x.shutdown = some reason → x.stage.isOver = true
  recorded : x.stage = .returned → x.shutdown ≠ none

theorem Timer.Told.start {x : Timer} (hgoing : x.stage = .going) (hnone : x.shutdown = none) :
    x.Told := by
  constructor
  · simp [hnone]
  · simp [hgoing]

/-- A thread in its loop, or on its way out of it, has recorded nothing. -/
theorem Timer.Told.shutdown_eq_none {x : Timer} (h : x.Told) (hstage : x.stage.isOver = false) :
    x.shutdown = none := by
  refine Option.eq_none_iff_forall_ne_some.2 fun reason hended => ?_
  rw [h.isOver reason hended] at hstage
  cases hstage

/-- A body does not make its thread return. -/
theorem Ending.exit?_ne_returned (k : TaskRef) (ending : Ending) :
    ending.exit? k ≠ some .returned := by
  have thrown : ∀ payload : Payload, payload.stage ≠ .returned := by
    intro payload
    unfold Payload.stage
    split <;> simp
  cases ending with
  | returned | failed => simp [exit?]
  | garbled payload | panicked payload => simpa [exit?] using thrown payload

/-- A body takes its thread out of the loop with an error only. -/
theorem Ending.error_of_exit {k : TaskRef} {ending : Ending} {reason : Shutdown TaskRef}
    (h : ending.exit? k = some (.leaving reason)) : reason.error? ≠ none := by
  have thrown : ∀ payload : Payload, payload.stage = .leaving reason → reason.error? ≠ none := by
    intro payload hstage
    unfold Payload.stage at hstage
    split at hstage
    · cases hstage
    · obtain rfl := Stage.leaving.inj hstage
      simp [Shutdown.error?]
  cases ending with
  | returned => cases h
  | failed chain =>
    obtain rfl := Stage.leaving.inj (Option.some.inj h)
    simp [Shutdown.error?]
  | garbled payload | panicked payload => exact thrown payload (Option.some.inj h)

/-- A body makes a panic unwind its thread only if what it threw panics as it is dropped. -/
theorem Ending.bursts_of_exit {k : TaskRef} {ending : Ending}
    (h : ending.exit? k = some .unwound) : ending.bursts = true := by
  have thrown : ∀ payload : Payload, payload.stage = .unwound → payload.bursts = true := by
    intro payload hstage
    unfold Payload.stage at hstage
    split at hstage
    · assumption
    · cases hstage
  cases ending with
  | returned => cases h
  | failed => cases Option.some.inj h
  | garbled payload | panicked payload => exact thrown payload (Option.some.inj h)

theorem Timer.Told.change {a : Action} {w w' : World} {events : List Event}
    (h : ∀ t, (w.timer t).Told) (c : Change a w events w') (t : TimerRef) : (w'.timer t).Told := by
  have set : ∀ {u : TimerRef} {x : Timer}, x.Told → ((w.setTimer u x).timer t).Told :=
    fun hx => World.keep_setTimer (h t) fun _ => hx
  -- a thread that leaves its loop has recorded nothing yet
  have leave : ∀ {u : TimerRef} {stage : Stage}, (w.timer u).stage = .going → stage ≠ .returned →
      ((w.setStage u stage).timer t).Told := by
    intro u stage hgoing hstage
    have hnone := (h u).shutdown_eq_none (by rw [hgoing]; rfl)
    refine set ⟨fun reason hended => ?_, fun hreturned => absurd hreturned hstage⟩
    rw [hnone] at hended
    cases hended
  cases c with
  | newTask | reject | cancel => exact h t
  | startTimer => exact set (.start rfl rfl)
  | setClock u | accept u | cancelAll u | close u | purge u | discard u | retire u | postpone u =>
    exact set ⟨(h u).isOver, (h u).recorded⟩
  | rest u interim ha ht hgoing => exact leave hgoing (by simp)
  | fail u ending k stage ha ht hgoing hexit =>
    exact leave hgoing fun hreturned => ending.exit?_ne_returned k (hreturned ▸ hexit)
  | record u bursts =>
    refine set ⟨fun _ _ => ?_, fun _ => by simp⟩
    cases bursts <;> rfl

/-- One elementary change after another, all part of the action `a`. -/
inductive Changes (a : Action) : World → List Event → World → Prop
  | nil (w : World) : Changes a w [] w
  | snoc {w w' w'' : World} {events events' : List Event} (before : Changes a w events w')
      (last : Change a w' events' w'') : Changes a w (events ++ events') w''

namespace Changes

variable {a : Action}

theorem single {w w' : World} {events : List Event} (h : Change a w events w') :
    Changes a w events w' := by
  simpa using (Changes.nil w).snoc h

theorem append {w w' w'' : World} {events events' : List Event} (h : Changes a w events w')
    (h' : Changes a w' events' w'') : Changes a w (events ++ events') w'' := by
  induction h' with
  | nil => simpa using h
  | snoc _ last ih => simpa using ih.snoc last

/-- What is kept by each change is kept by all of them. -/
theorem keep {P : World → List Event → Prop}
    (change : ∀ {w w' log events}, P w log → Change a w events w' → P w' (log ++ events))
    {w w' : World} {log events : List Event} (hP : P w log) (h : Changes a w events w') :
    P w' (log ++ events) := by
  induction h with
  | nil => simpa using hP
  | snoc _ last ih => simpa using change ih last

end Changes

namespace World

variable {a : Action}

/-! ## Operations as changes -/

theorem changes_accept {w : World} {t : TimerRef} {k : TaskRef} {due : Instant}
    (ht : w.HasTimer t) (hk : w.HasTask k)
    (hdue : (w.timer t).clock.now ≤ due ∨ ∃ way, a = .insert t k due way) {period : Period}
    (hperiod : period.Positive) :
    Changes a w (w.accept t k due period).events (w.accept t k due period).world := by
  cases hopen : (w.timer t).accepting with
  | false =>
    rw [accept_of_closed hopen]
    exact .single (.reject t k)
  | true =>
    by_cases hnew : (w.task k).state = .created
    · rw [accept_of_created hopen hnew]
      exact .single (.accept t k due period _ ht hk hopen hnew hdue hperiod)
    · rw [accept_of_used hopen hnew]
      exact .nil w

theorem changes_submitChecked {w : World} {t : TimerRef} {k : TaskRef}
    {start : Except SubmissionError Instant} (ht : w.HasTimer t) (hk : w.HasTask k)
    (hstart : ∀ due, start = .ok due →
      (w.timer t).clock.now ≤ due ∨ ∃ way, a = .insert t k due way)
    {period : Except SubmissionError Period}
    (hperiod : ∀ p, period = .ok p → p.Positive) :
    Changes a w (w.submitChecked t k start period).events
      (w.submitChecked t k start period).world := by
  match start, period with
  | .error _, _ => exact .nil w
  | .ok _, .error _ => exact .nil w
  | .ok due, .ok period => exact changes_accept ht hk (hstart due rfl) (hperiod period rfl)

theorem changes_cancelTask {w : World} {k : TaskRef} (hk : w.HasTask k) :
    Changes a w (w.cancelTask k).events (w.cancelTask k).world := by
  cases hopen : (w.task k).state.canBecome .cancelled with
  | true =>
    rw [cancelTask_of_open hopen]
    exact .single (.cancel k hk hopen)
  | false =>
    rw [cancelTask_of_ended hopen]
    exact .nil w

theorem changes_close {w : World} {t : TimerRef} (ht : w.HasTimer t) :
    Changes a w (w.close t).events (w.close t).world := by
  by_cases hopen : (w.timer t).accepting = true
  · simp only [close, hopen, if_true]
    exact .single (.close t _ ht)
  · simp only [close, hopen]
    exact .nil w

/-! ## A thread's turn as changes -/

theorem changes_cancelEach {w : World} {ks : List TaskRef} (hks : ∀ k ∈ ks, w.HasTask k) :
    Changes a w (w.cancelEach ks).events (w.cancelEach ks).world := by
  induction ks generalizing w with
  | nil => exact .nil w
  | cons k ks ih =>
    refine (changes_cancelTask (hks k (by simp))).append (ih fun j hj => ?_)
    exact (hasTask_cancelTask w k j).2 (hks j (by simp [hj]))

theorem changes_work {w : World} {t : TimerRef} {interim : List TaskRef}
    (ha : a = .work t interim) (ht : w.HasTimer t) (hgoing : (w.timer t).stage = .going)
    (hinterim : ∀ k ∈ interim, w.HasTask k) :
    Changes a w (w.work t interim).events (w.work t interim).world := by
  have between := changes_cancelEach (a := a) hinterim
  have hturn := comesTo_work ht interim
  generalize w.work t interim = o at hturn ⊢
  cases hturn with
  | idle | early => exact .nil w
  | rest hempty hclosed => exact .single (.rest t interim ha ht hgoing hempty hclosed)
  | discard head hpeek hcancelled => exact .single (.discard t head ht hpeek hcancelled)
  | discardDue head hpeek hlive hcancelled =>
    have last : Change a (w.cancelEach interim).world []
        ((w.cancelEach interim).world.dropHead t) := by
      refine .discard t head ?_ ?_ hcancelled
      · rwa [HasTimer, timerCount_cancelEach]
      · rwa [timer_cancelEach]
    simpa using between.append (.single last)
  | retire head hpeek hlive hfires honce =>
    exact between.append (.single (.retire t head interim ha hfires honce))
  | postpone head next queue hpeek hlive hfires hnext hqueue =>
    exact between.append (.single (.postpone t head interim next queue ha hfires hnext hqueue))

theorem changes_finish {w : World} {t : TimerRef} {k : TaskRef} {ending : Ending}
    (ha : a = .finish t ending) (ht : w.HasTimer t) (hgoing : (w.timer t).stage = .going) :
    Changes a w (w.finish t k ending).events (w.finish t k ending).world := by
  cases hexit : ending.exit? k with
  | none =>
    simp only [finish, hexit]
    exact .nil w
  | some stage =>
    rw [finish_of_exit hexit]
    exact .single (.fail t ending k stage ha ht hgoing hexit)

theorem changes_record {w : World} {t : TimerRef} {bursts : Bool} (ha : a = .record t bursts)
    (ht : w.HasTimer t) :
    Changes a w (w.record t bursts).events (w.record t bursts).world := by
  cases hstage : (w.timer t).stage with
  | leaving reason =>
    rw [record_of_leaving hstage]
    refine .single (.record t bursts reason _ ha ht hstage ?_)
    cases bursts with
    | true => exact .inl rfl
    | false => exact .inr ⟨_, rfl⟩
  | going | returned | unwound =>
    rw [record_of_not_leaving (by rw [hstage]; rfl)]
    exact .nil w

/-! ## Submissions as changes -/

/-- A submission worked out now is not due before now. -/
theorem now_le_of_start {timer : Timer} {way : Session.Submission} {due : Instant}
    (h : way.start timer = .ok due) : timer.clock.now ≤ due := by
  cases way with
  | once | fixedDelay | fixedRate => exact now_le_of_dueAfter h
  | onceAt | fixedDelayFrom | fixedRateFrom => exact now_le_of_dueAt h

theorem positive_of_period {way : Session.Submission} {period : Period}
    (h : way.period = .ok period) : period.Positive := by
  cases way with
  | once | onceAt =>
    obtain rfl := Except.ok.inj h
    exact Period.positive_once
  | fixedDelay | fixedDelayFrom | fixedRate | fixedRateFrom => exact positive_of_every h

theorem changes_submitOnce {w : World} {t : TimerRef} (ht : w.HasTimer t) (delay : Delay) :
    Changes a w (w.submitOnce t delay).events (w.submitOnce t delay).world := by
  have made : Changes a w (w.newTask).events (w.newTask).world := .single .newTask
  have ht' : (w.newTask).world.HasTimer t := ht
  refine made.append
    (changes_submitChecked ht' (hasTask_newTask w) (fun _ h => .inl (now_le_of_dueAfter h)) ?_)
  intro p hp
  obtain rfl := Except.ok.inj hp
  exact Period.positive_once

theorem changes_submitRepeating {w : World} {t : TimerRef} (ht : w.HasTimer t)
    (delay period : Delay) (mode : RepeatMode) :
    Changes a w (w.submitRepeating t delay period mode).events
      (w.submitRepeating t delay period mode).world := by
  unfold submitRepeating
  split
  · exact .nil w
  · exact .nil w
  · next due period hdue hperiod =>
    have made : Changes a w (w.newTask).events (w.newTask).world := .single .newTask
    have ht' : (w.newTask).world.HasTimer t := ht
    exact made.append (changes_accept ht' (hasTask_newTask w) (.inl (now_le_of_dueAfter hdue))
      (positive_of_every hperiod))

end World

namespace System

/-- Each action is a sequence of elementary changes. -/
theorem changes_next (s : System) (a : Action) :
    ∃ events, Changes a s.world events (s.next a).world ∧
      (s.next a).log = s.log ++ events := by
  by_cases h : s.Admits a
  · rw [next, if_pos h]
    cases a with
    | newTask => exact ⟨_, .single .newTask, rfl⟩
    | startTimer clock => exact ⟨_, .single (.startTimer clock rfl), rfl⟩
    | setClock t clock => exact ⟨[], .single (.setClock t clock rfl h), (List.append_nil _).symm⟩
    | submission t k way =>
      refine ⟨_, ?_, rfl⟩
      show Changes _ _ (way.op t k s.world).events (way.op t k s.world).world
      rw [way.op_eq]
      exact World.changes_submitChecked h.1 h.2 (fun due hs => .inl (World.now_le_of_start hs))
        fun _ hp => World.positive_of_period hp
    | insert t k due way =>
      refine ⟨_, World.changes_submitChecked h.1 h.2 (fun due' hs => ?_)
        fun _ hp => World.positive_of_period hp, rfl⟩
      obtain rfl := Except.ok.inj hs
      exact .inr ⟨way, rfl⟩
    | submitOnce t delay => exact ⟨_, World.changes_submitOnce h delay, rfl⟩
    | submitRepeating t delay period mode =>
      exact ⟨_, World.changes_submitRepeating h delay period mode, rfl⟩
    | cancelTask k => exact ⟨_, World.changes_cancelTask h, rfl⟩
    | cancelAll t =>
      exact ⟨_, .single (.cancelAll t _ rfl h (World.events_cancelAll _ t)), rfl⟩
    | close t => exact ⟨_, World.changes_close h, rfl⟩
    | purge t => exact ⟨_, .single (.purge t _ h (World.events_purge _ t)), rfl⟩
    | work t interim =>
      obtain ⟨ht, hgoing, -, hinterim⟩ := h
      exact ⟨_, World.changes_work rfl ht hgoing hinterim, rfl⟩
    | finish t ending =>
      obtain ⟨ht, hgoing, hrunning⟩ := h
      obtain ⟨f, hf⟩ := Option.ne_none_iff_exists'.1 hrunning
      simp only [take, hf]
      exact ⟨_, World.changes_finish rfl ht hgoing, rfl⟩
    | record t bursts => exact ⟨_, World.changes_record rfl h.1, rfl⟩
  · rw [next, if_neg h]
    exact ⟨[], .nil _, (List.append_nil _).symm⟩

/-- What each change of an action keeps, the action keeps. -/
theorem keep_next {P : World → List Event → Prop} {s : System} {a : Action}
    (change : ∀ {w w' log events}, P w log → Change a w events w' → P w' (log ++ events))
    (h : P s.world s.log) : P (s.next a).world (s.next a).log := by
  obtain ⟨events, hchanges, hlog⟩ := s.changes_next a
  exact hlog ▸ Changes.keep change h hchanges

/-- What each change keeps holds throughout a run. -/
theorem keep_after {P : World → List Event → Prop} (start : P .empty [])
    (change : ∀ {a w w' log events}, P w log → Change a w events w' → P w' (log ++ events))
    (acts : List Action) : P (after acts).world (after acts).log :=
  after_induction (P := fun _ s => P s.world s.log) start (fun _ _ => keep_next change) acts

theorem told_after (acts : List Action) (t : TimerRef) : ((after acts).world.timer t).Told :=
  keep_after (P := fun w _ => ∀ t, (w.timer t).Told)
    (fun _ => .start rfl rfl) (fun h c => Timer.Told.change h c) acts t

end System

end TaskTimer
