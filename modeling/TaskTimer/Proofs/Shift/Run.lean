/-
TaskTimer.Proofs.Shift.Run — a run follows from the differences of its readings.

Two runs do the same things, and what their clocks show differs: the monotonic clocks by a constant,
the wall clocks and the times of absolute submissions by another (`Action.Shifted`). Then each
action is possible in both or in neither, is answered in the same way (`System.outcome`), and leads
to systems that still correspond (`System.Shifted.next`). So the runs execute the same tasks in the
same order, equally late, with all instants shifted (`only_differences_of_readings_matter`).

This needs every deadline to be within the range of instants (`System.Exact`): near its end they
stay behind. Where only wall clocks differ, and nothing is submitted for a time that they show, it
needs nothing, and the runs are the same but for those readings.
-/
import TaskTimer.Proofs.Run.Coupling
import TaskTimer.Proofs.Run.DeadlineOrder
import TaskTimer.Proofs.Shift.World

namespace TaskTimer

open Session (Submission)

variable {c : Int} {δ : Shift}

/-! ## Actions that correspond -/

namespace Session.Submission

/-- The same way to submit, but for the absolute time. -/
def Shifted (δ : Shift) : Submission → Submission → Prop
  | .onceAt time, way => ∃ time', way = .onceAt time' ∧ δ.time time time'
  | .fixedDelayFrom time period, way =>
    ∃ time', way = .fixedDelayFrom time' period ∧ δ.time time time'
  | .fixedRateFrom time period, way =>
    ∃ time', way = .fixedRateFrom time' period ∧ δ.time time time'
  | way, way' => way' = way

/-- The first deadline is within the range of instants. -/
def Exact (timer : Timer) : Submission → Prop
  | .once delay | .fixedDelay delay _ | .fixedRate delay _ => timer.ExactAfter delay
  | .onceAt time | .fixedDelayFrom time _ | .fixedRateFrom time _ => timer.ExactAt time

instance (timer : Timer) : (way : Submission) → Decidable (way.Exact timer)
  | .once _ | .fixedDelay _ _ | .fixedRate _ _ =>
    inferInstanceAs (Decidable (Timer.ExactAfter _ _))
  | .onceAt _ | .fixedDelayFrom _ _ | .fixedRateFrom _ _ =>
    inferInstanceAs (Decidable (Timer.ExactAt _ _))

theorem Shifted.period_eq {way way' : Submission} (h : way.Shifted δ way') :
    way'.period = way.period := by
  cases way with
  | once | fixedDelay | fixedRate => rw [show _ = _ from h]
  | onceAt | fixedDelayFrom | fixedRateFrom =>
    obtain ⟨time', rfl, -⟩ := h
    rfl

theorem Shifted.start {way way' : Submission} (h : way.Shifted δ way') {x x' : Timer}
    (hx : x.clock.Shifted δ x'.clock) (hexact : δ.now = 0 ∨ way.Exact x ∧ way'.Exact x') :
    SameUpTo (Nanos.Shifted δ.now) (way.start x) (way'.start x') := by
  cases way with
  | once | fixedDelay | fixedRate =>
    obtain rfl : way' = _ := h
    exact Timer.shifted_dueAfter hx hexact
  | onceAt | fixedDelayFrom | fixedRateFrom =>
    obtain ⟨time', rfl, htime⟩ := h
    exact Timer.shifted_dueAt hx htime hexact

end Session.Submission

/-- The same action, but for what clocks show and for times that were read off them. -/
def Action.Shifted (δ : Shift) : Action → Action → Prop
  | .startTimer x, a => ∃ x', a = .startTimer x' ∧ x.Shifted δ x'
  | .setClock t x, a => ∃ x', a = .setClock t x' ∧ x.Shifted δ x'
  | .submission t k way, a => ∃ way', a = .submission t k way' ∧ way.Shifted δ way'
  | .insert t k due way, a =>
    ∃ due' way', a = .insert t k due' way' ∧ due.Shifted δ.now due' ∧ way.Shifted δ way'
  | a, a' => a' = a

/-! ## Answers -/

/-- What an action is answered. -/
inductive Reply where
  | done
  | timer (t : TimerRef)
  | task (k : TaskRef)
  | submission (answer : Except SubmissionError Unit)
  | job (answer : Except SubmissionError TaskRef)
  | flag (b : Bool)
  | count (n : Nat)
  /-- What a thread's turn came to. -/
  | turn (turn : Turn)

/-- The same answer, but for the instants that a turn tells of. -/
def Reply.Shifted (c : Int) : Reply → Reply → Prop
  | .turn x, reply => ∃ x', reply = .turn x' ∧ x.Shifted c x'
  | reply, reply' => reply' = reply

theorem Reply.Shifted.eq_of_zero {x x' : Reply} (h : x.Shifted 0 x') : x' = x := by
  cases x with
  | turn x =>
    obtain ⟨x', rfl, hx⟩ := h
    rw [hx.eq_of_zero]
  | _ => exact h

/-- Where the answers of an operation are the same, so is what they are told as. -/
theorem Outcome.Shifted.reply {ρ : Type} {o o' : Outcome ρ} (h : o.Shifted δ Eq o') (f : ρ → Reply)
    (hf : ∀ r, (f r).Shifted δ.now (f r)) :
    (o.map f).Shifted δ (Reply.Shifted δ.now) (o'.map f) :=
  h.map fun r _ hr => hr ▸ hf r

namespace System

/-- What a possible action leads to, and its answer. -/
def outcome (s : System) : Action → Outcome Reply
  | .newTask => s.world.newTask.map .task
  | .startTimer clock => (s.world.startTimer clock).map .timer
  | .setClock t clock => { result := .done, world := s.world.setClock t clock }
  | .submission t k way => (way.op t k s.world).map .submission
  | .insert t k due way =>
    (s.world.submitChecked t k (.ok due) way.period).map .submission
  | .submitOnce t delay => (s.world.submitOnce t delay).map .job
  | .submitRepeating t delay period mode =>
    (s.world.submitRepeating t delay period mode).map .job
  | .cancelTask k => (s.world.cancelTask k).map .flag
  | .cancelAll t => (s.world.cancelAll t).map fun _ => .done
  | .close t => (s.world.close t).map fun _ => .done
  | .purge t => (s.world.purge t).map .count
  | .work t interim => (s.world.work t interim).map .turn
  | .finish t ending =>
    match s.running t with
    | some f => (s.world.finish t f.task ending).map fun _ => .done
    | none => { result := .done, world := s.world }
  | .record t bursts => (s.world.record t bursts).map fun _ => .done

/-- The bodies that run after a possible action. -/
def runningNext (s : System) : Action → TimerRef → Option (Firing TaskRef)
  | .work t interim => s.runningAfter t (s.world.work t interim).result
  | .finish t _ => Function.update s.running t none
  | _ => s.running

theorem take_eq (s : System) (a : Action) :
    s.take a = { s.record (s.outcome a) with running := s.runningNext a } := by
  cases a with
  | setClock t clock => simp [take, record, outcome, runningNext]
  | finish t ending =>
    cases hrun : s.running t with
    | none =>
      have hsame : Function.update s.running t none = s.running :=
        Function.update_eq_self_iff.2 hrun.symm
      simp [take, record, outcome, runningNext, hrun, hsame]
    | some f => simp [take, record, outcome, runningNext, hrun, Outcome.map]
  | _ => rfl

/-- What an action is answered, if it is possible. -/
def reply? (s : System) (a : Action) : Option Reply :=
  if s.Admits a then some (s.outcome a).result else none

/-- What the actions of a run are answered. -/
def replies : System → List Action → List (Option Reply)
  | _, [] => []
  | s, a :: acts => s.reply? a :: replies (s.next a) acts

/-- Every deadline that the action works out, if it is possible, is within the range of
instants. -/
def Exact (s : System) (a : Action) : Prop :=
  s.Admits a → match a with
    | .submission t _ way => way.Exact (s.world.timer t)
    | .submitOnce t delay | .submitRepeating t delay _ _ => (s.world.timer t).ExactAfter delay
    | .work t interim => (s.world.work t interim).result.Exact
    | _ => True

instance (s : System) : (a : Action) → Decidable (s.Exact a)
  | .submission _ _ _ | .submitOnce _ _ | .submitRepeating _ _ _ _ | .work _ _ =>
    inferInstanceAs (Decidable (_ → _))
  | .newTask | .startTimer _ | .setClock _ _ | .insert _ _ _ _ | .cancelTask _ | .cancelAll _
  | .close _ | .purge _ | .finish _ _ | .record _ _ => inferInstanceAs (Decidable (_ → True))

/-! ## Two runs -/

/-- Worlds that correspond, the same bodies running, and the same events so far. -/
structure Shifted (δ : Shift) (s s' : System) : Prop where
  world : s.world.Shifted δ s'.world
  running : ∀ t, Option.Rel (Firing.Shifted δ.now) (s.running t) (s'.running t)
  log : List.Forall₂ (Event.Shifted δ.now) s.log s'.log

namespace Shifted

variable {s s' : System} {a a' : Action}

theorem start : Shifted δ {} {} := ⟨.empty, fun _ => .none, .nil⟩

theorem running_eq_none_iff (h : s.Shifted δ s') (t : TimerRef) :
    s'.running t = none ↔ s.running t = none := by
  have hrun := h.running t
  generalize s.running t = f, s'.running t = f' at hrun ⊢
  cases hrun <;> simp

/-- The same actions are possible. -/
theorem admits_iff (h : s.Shifted δ s') (ha : a.Shifted δ a') : s'.Admits a' ↔ s.Admits a := by
  cases a with
  | newTask =>
    obtain rfl : a' = _ := ha
    exact Iff.rfl
  | startTimer =>
    obtain ⟨_, rfl, -⟩ := ha
    exact Iff.rfl
  | setClock t =>
    obtain ⟨_, rfl, -⟩ := ha
    exact h.world.hasTimer_iff t
  | submission t k =>
    obtain ⟨_, rfl, -⟩ := ha
    exact and_congr (h.world.hasTimer_iff t) (h.world.hasTask_iff k)
  | insert t k =>
    obtain ⟨_, _, rfl, -⟩ := ha
    exact and_congr (h.world.hasTimer_iff t) (h.world.hasTask_iff k)
  | submitOnce t | submitRepeating t | cancelAll t | close t | purge t =>
    obtain rfl : a' = _ := ha
    exact h.world.hasTimer_iff t
  | cancelTask k =>
    obtain rfl : a' = _ := ha
    exact h.world.hasTask_iff k
  | work t interim =>
    obtain rfl : a' = _ := ha
    unfold Admits
    simp only [h.world.hasTimer_iff, h.world.hasTask_iff, h.running_eq_none_iff]
    refine and_congr_right fun ht => ?_
    rw [(h.world.timer t ht).stage]
  | finish t =>
    obtain rfl : a' = _ := ha
    unfold Admits
    simp only [h.world.hasTimer_iff, ne_eq, h.running_eq_none_iff]
    refine and_congr_right fun ht => ?_
    rw [(h.world.timer t ht).stage]
  | record t bursts =>
    obtain rfl : a' = _ := ha
    unfold Admits
    simp only [h.world.hasTimer_iff]
    refine and_congr_right fun ht => ?_
    have timer := h.world.timer t ht
    rw [timer.stage]
    exact and_congr Iff.rfl (imp_congr Iff.rfl (not_congr timer.queue.peek_eq_none_iff))

theorem outcome (h : s.Shifted δ s') (hs : ∃ acts, s = after acts) (ha : a.Shifted δ a')
    (hadmits : s.Admits a) (hexact : δ.now = 0 ∨ s.Exact a ∧ s'.Exact a') :
    (s.outcome a).Shifted δ (Reply.Shifted δ.now) (s'.outcome a') := by
  have hexact := hexact.imp_right fun ⟨hx, hx'⟩ =>
    And.intro (hx hadmits) (hx' ((h.admits_iff ha).2 hadmits))
  cases a with
  | newTask =>
    obtain rfl : a' = _ := ha
    exact h.world.newTask.reply _ fun _ => rfl
  | startTimer x =>
    obtain ⟨x', rfl, hx⟩ := ha
    exact (h.world.startTimer hx).reply _ fun _ => rfl
  | setClock t x =>
    obtain ⟨x', rfl, hx⟩ := ha
    exact ⟨rfl, h.world.setClock hadmits hx, .nil⟩
  | submission t k way =>
    obtain ⟨way', rfl, hway⟩ := ha
    have start := hway.start (h.world.timer t hadmits.1).clock hexact
    simp only [System.outcome, Submission.op_eq, hway.period_eq]
    exact (h.world.submitChecked hadmits.1 start _).reply _ fun _ => rfl
  | insert t k due way =>
    obtain ⟨due', way', rfl, hdue, hway⟩ := ha
    simp only [System.outcome, hway.period_eq]
    exact (h.world.submitChecked hadmits.1 (.ok hdue) _).reply _ fun _ => rfl
  | submitOnce t delay =>
    obtain rfl : a' = _ := ha
    exact (h.world.submitOnce hadmits hexact).reply _ fun _ => rfl
  | submitRepeating t delay period mode =>
    obtain rfl : a' = _ := ha
    exact (h.world.submitRepeating hadmits hexact period mode).reply _ fun _ => rfl
  | cancelTask k =>
    obtain rfl : a' = _ := ha
    exact (h.world.cancelTask k).reply _ fun _ => rfl
  | cancelAll t =>
    obtain rfl : a' = _ := ha
    exact (h.world.cancelAll hadmits).reply (fun _ => .done) fun _ => rfl
  | close t =>
    obtain rfl : a' = _ := ha
    exact (h.world.close hadmits).reply (fun _ => .done) fun _ => rfl
  | purge t =>
    obtain rfl : a' = _ := ha
    exact (h.world.purge hadmits).reply _ fun _ => rfl
  | work t interim =>
    obtain rfl : a' = _ := ha
    obtain ⟨acts, rfl⟩ := hs
    refine (h.world.work hadmits.1 (fun head hpeek hnew => ?_) hexact).map
      fun _ x' hr => ⟨x', rfl, hr⟩
    exact (coupled_after acts).not_queued_of_created hnew t head (Queue.mem_of_peek hpeek) rfl
  | finish t ending =>
    obtain rfl : a' = _ := ha
    have hrun := h.running t
    simp only [System.outcome]
    generalize s.running t = f, s'.running t = f' at hrun ⊢
    cases hrun with
    | none => exact ⟨rfl, h.world, .nil⟩
    | some hf =>
      simp only [hf.task]
      exact (h.world.finish hadmits.1 _ ending).reply _ fun _ => rfl
  | record t bursts =>
    obtain rfl : a' = _ := ha
    exact (h.world.record hadmits.1 bursts).reply (fun _ => .done) fun _ => rfl

theorem update_running (h : s.Shifted δ s') (t : TimerRef) {f f' : Option (Firing TaskRef)}
    (hf : Option.Rel (Firing.Shifted δ.now) f f') (u : TimerRef) :
    Option.Rel (Firing.Shifted δ.now) (Function.update s.running t f u)
      (Function.update s'.running t f' u) := by
  by_cases hu : u = t
  · subst hu
    simpa using hf
  · simpa [hu] using h.running u

/-- The same body runs after a turn. -/
theorem runningAfter (h : s.Shifted δ s') (t : TimerRef) {x x' : Turn}
    (hx : x.Shifted δ.now x') (u : TimerRef) :
    Option.Rel (Firing.Shifted δ.now) (s.runningAfter t x u) (s'.runningAfter t x' u) := by
  cases x with
  | fire f =>
    obtain ⟨f', rfl, hf⟩ := hx
    exact h.update_running t (.some hf) u
  | wait =>
    obtain ⟨_, rfl, -⟩ := hx
    exact h.running u
  | stop | discard | discardDue | fault =>
    obtain rfl : x' = _ := hx
    exact h.running u

/-- The same bodies run afterwards. -/
theorem runningNext (h : s.Shifted δ s') (ha : a.Shifted δ a')
    (hreply : (s.outcome a).result.Shifted δ.now (s'.outcome a').result) (u : TimerRef) :
    Option.Rel (Firing.Shifted δ.now) (s.runningNext a u) (s'.runningNext a' u) := by
  cases a with
  | work t interim =>
    obtain rfl : a' = _ := ha
    obtain ⟨x', hx', hturn⟩ := hreply
    obtain rfl : (s'.world.work t interim).result = x' := Reply.turn.inj hx'
    exact h.runningAfter t hturn u
  | finish t =>
    obtain rfl : a' = _ := ha
    exact h.update_running t .none u
  | startTimer | setClock | submission =>
    obtain ⟨_, rfl, -⟩ := ha
    exact h.running u
  | insert =>
    obtain ⟨_, _, rfl, -⟩ := ha
    exact h.running u
  | _ =>
    obtain rfl : a' = _ := ha
    exact h.running u

/-- After an action, and after what corresponds to it, systems correspond. -/
theorem next (h : s.Shifted δ s') (hs : ∃ acts, s = after acts) (ha : a.Shifted δ a')
    (hexact : δ.now = 0 ∨ s.Exact a ∧ s'.Exact a') : (s.next a).Shifted δ (s'.next a') := by
  by_cases hadmits : s.Admits a
  · have houtcome := h.outcome hs ha hadmits hexact
    rw [System.next, System.next, if_pos hadmits, if_pos ((h.admits_iff ha).2 hadmits), take_eq,
      take_eq]
    exact ⟨houtcome.world, h.runningNext ha houtcome.result,
      List.rel_append h.log houtcome.events⟩
  · rw [System.next, System.next, if_neg hadmits, if_neg (mt (h.admits_iff ha).1 hadmits)]
    exact h

/-- The two actions are answered in the same way. -/
theorem reply? (h : s.Shifted δ s') (hs : ∃ acts, s = after acts) (ha : a.Shifted δ a')
    (hexact : δ.now = 0 ∨ s.Exact a ∧ s'.Exact a') :
    Option.Rel (Reply.Shifted δ.now) (s.reply? a) (s'.reply? a') := by
  by_cases hadmits : s.Admits a
  · rw [System.reply?, System.reply?, if_pos hadmits, if_pos ((h.admits_iff ha).2 hadmits)]
    exact .some (h.outcome hs ha hadmits hexact).result
  · rw [System.reply?, System.reply?, if_neg hadmits, if_neg (mt (h.admits_iff ha).1 hadmits)]
    exact .none

variable {acts acts' : List Action}

/-- Systems correspond at the end of two runs as they did at their start, and all actions were
answered in the same way. -/
theorem run (h : s.Shifted δ s') (hs : ∃ acts, s = after acts)
    (hacts : List.Forall₂ (Action.Shifted δ) acts acts')
    (hexact : δ.now = 0 ∨ Along Exact s acts ∧ Along Exact s' acts') :
    (s.run acts).Shifted δ (s'.run acts') ∧
      List.Forall₂ (Option.Rel (Reply.Shifted δ.now)) (s.replies acts) (s'.replies acts') := by
  -- along both lists at once; that the first system is reached makes its queues hold used tasks
  induction hacts generalizing s s' with
  | nil => exact ⟨h, .nil⟩
  | @cons a a' acts acts' ha _ ih =>
    have hfirst := hexact.imp_right fun ⟨hx, hx'⟩ => And.intro hx.1 hx'.1
    have hreach : ∃ acts, s.next a = after acts := by
      obtain ⟨before, rfl⟩ := hs
      exact ⟨before ++ [a], (after_concat before a).symm⟩
    have later := ih (h.next hs ha hfirst) hreach
      (hexact.imp_right fun ⟨hx, hx'⟩ => ⟨hx.2, hx'.2⟩)
    exact ⟨later.1, .cons (h.reply? hs ha hfirst) later.2⟩

end Shifted

end System

/-- Lists that correspond element by element are the same where that is to be the same. -/
theorem eq_of_forall₂ {α : Type} {R : α → α → Prop} (hR : ∀ a b, R a b → b = a) {l l' : List α}
    (h : List.Forall₂ R l l') : l' = l := by
  induction h with
  | nil => rfl
  | cons hab _ ih => rw [hR _ _ hab, ih]

/-- The executions that a thread ran, equally late. -/
theorem forall₂_firingsOn {log log' : List Event} (h : List.Forall₂ (Event.Shifted c) log log')
    (t : TimerRef) :
    List.Forall₂ (Firing.Shifted c) (firingsOn t log) (firingsOn t log') := by
  refine List.rel_filterMap (R := Event.Shifted c) (fun e e' he => ?_) h
  cases e with
  | firing u f =>
    obtain ⟨f', rfl, hf⟩ := he
    by_cases hu : u = t
    · simpa [Event.firingOn?, hu] using hf
    · simp [Event.firingOn?, hu]
  | _ =>
    obtain rfl : e' = _ := he
    exact .none

/-- **Only the differences of readings matter.** Of two runs let the second do the same as the
first, with monotonic clocks that are ahead by `c`, and with wall clocks and times of absolute
submissions that are ahead by `e`, all of them on the same side of the epoch as in the first run;
and let every deadline be within the range of instants in both. Then everything that happens in the
first run happens in the second, in the same order: the same tasks are executed, with the same
numbers and periods, equally late, all instants shifted by `c`. All actions are answered alike; and
in the end tasks have the same records, timers the same queues, entry by entry, and the same flags
and reasons for an end, all deadlines shifted by `c`. If nothing differs but what wall clocks show,
and no submission is for such a time, then the runs are the same but for that, even where deadlines
leave the range. -/
theorem only_differences_of_readings_matter {acts acts' : List Action} :
    let s := System.after acts
    let s' := System.after acts'
    (∀ c e : Int, List.Forall₂ (Action.Shifted (.of c e)) acts acts' →
      System.Along System.Exact {} acts → System.Along System.Exact {} acts' →
      List.Forall₂ (Event.Shifted c) s.log s'.log ∧
      (∀ t, List.Forall₂ (fun f f' => f'.task = f.task ∧ f'.execution = f.execution ∧
          f'.period = f.period ∧ f'.lateness = f.lateness ∧ f'.due.val = f.due.val + c ∧
          f'.firedAt.val = f.firedAt.val + c) (firingsOn t s.log) (firingsOn t s'.log)) ∧
      List.Forall₂ (Option.Rel (Reply.Shifted c)) (System.replies {} acts)
        (System.replies {} acts') ∧
      s.world.Shifted (.of c e) s'.world) ∧
    (List.Forall₂ (Action.Shifted .anyWall) acts acts' →
      s'.log = s.log ∧ System.replies {} acts' = System.replies {} acts ∧
      (∀ k, s'.world.task k = s.world.task k) ∧
      ∀ t, s.world.HasTimer t → ∃ wall, s'.world.timer t =
        { s.world.timer t with
          clock := { now := (s.world.timer t).clock.now, wall := wall } }) := by
  intro s s'
  constructor
  · intro c e hacts hexact hexact'
    obtain ⟨h, hreplies⟩ := System.Shifted.start.run ⟨[], rfl⟩ hacts (.inr ⟨hexact, hexact'⟩)
    refine ⟨h.log, fun t => ?_, hreplies, h.world⟩
    exact (forall₂_firingsOn h.log t).imp fun f f' hf =>
      ⟨hf.task, hf.execution, hf.period, hf.lateness_eq, hf.due, hf.firedAt⟩
  · intro hacts
    obtain ⟨h, hreplies⟩ := System.Shifted.start.run ⟨[], rfl⟩ hacts (.inl rfl)
    refine ⟨eq_of_forall₂ (fun _ _ => Event.Shifted.eq_of_zero) h.log, ?_, fun k => ?_,
      fun t ht => ?_⟩
    · refine eq_of_forall₂ (fun x x' hx => ?_) hreplies
      cases hx with
      | none => rfl
      | some hx => rw [Reply.Shifted.eq_of_zero hx]
    · exact (h.world.task k).eq_of_zero
    · exact (h.world.timer t ht).exists_wall_of_zero rfl

/-- The clock moves past the first deadlines of two tasks, and the thread takes three turns. -/
def passingDeadlines (start later : Clock) (first : Submission) : List Action :=
  [.startTimer start, .newTask, .newTask, .submission ⟨0⟩ ⟨0⟩ first,
    .submission ⟨0⟩ ⟨1⟩ (.fixedDelay 2 3), .setClock ⟨0⟩ later, .work ⟨0⟩ [],
    .finish ⟨0⟩ .returned, .work ⟨0⟩ [], .finish ⟨0⟩ .returned, .work ⟨0⟩ []]

theorem shifted_passingDeadlines {start start' later later' : Clock} {first first' : Submission}
    (hstart : start.Shifted δ start') (hlater : later.Shifted δ later')
    (hfirst : first.Shifted δ first') :
    List.Forall₂ (Action.Shifted δ) (passingDeadlines start later first)
      (passingDeadlines start' later' first') :=
  .cons ⟨_, rfl, hstart⟩ <| .cons rfl <| .cons rfl <| .cons ⟨_, rfl, hfirst⟩ <|
    .cons ⟨_, rfl, rfl⟩ <| .cons ⟨_, rfl, hlater⟩ <| .cons rfl <| .cons rfl <| .cons rfl <|
    .cons rfl <| .cons rfl .nil

theorem only_differences_of_readings_matter_passingDeadlines :
    let acts :=
      passingDeadlines { now := 0, wall := 0 } { now := 6, wall := 6 } (.fixedRateFrom 1 2)
    let acts' :=
      passingDeadlines { now := 5, wall := 7 } { now := 11, wall := 13 } (.fixedRateFrom 8 2)
    let plain := passingDeadlines { now := 0, wall := 0 } { now := 6, wall := 6 } (.fixedRate 1 2)
    let plain' := passingDeadlines { now := 0, wall := 9 } { now := 6, wall := 2 } (.fixedRate 1 2)
    (firingsOn ⟨0⟩ (System.after acts).log).map (fun f => (f.task.index, f.due.val)) =
        [(0, 1), (1, 2), (0, 3)] ∧
      List.Forall₂ (fun f f' => f'.task = f.task ∧ f'.lateness = f.lateness ∧
          f'.due.val = f.due.val + 5 ∧ f'.firedAt.val = f.firedAt.val + 5)
        (firingsOn ⟨0⟩ (System.after acts).log) (firingsOn ⟨0⟩ (System.after acts').log) ∧
      (System.after plain').log = (System.after plain).log := by
  intro acts acts' plain plain'
  have hacts : List.Forall₂ (Action.Shifted (.of 5 7)) acts acts' :=
    shifted_passingDeadlines ⟨rfl, rfl⟩ ⟨rfl, rfl⟩ ⟨_, rfl, rfl, by decide⟩
  have hplain : List.Forall₂ (Action.Shifted .anyWall) plain plain' :=
    shifted_passingDeadlines ⟨rfl, trivial⟩ ⟨rfl, trivial⟩ rfl
  obtain ⟨-, hfirings, -⟩ := only_differences_of_readings_matter.1 5 7 hacts (by decide +kernel)
    (by decide +kernel)
  obtain ⟨hlog, -⟩ := only_differences_of_readings_matter.2 hplain
  refine ⟨by decide +kernel, (hfirings ⟨0⟩).imp ?_, hlog⟩
  rintro f f' ⟨htask, -, -, hlateness, hdue, hfired⟩
  exact ⟨htask, hlateness, hdue, hfired⟩

end TaskTimer
