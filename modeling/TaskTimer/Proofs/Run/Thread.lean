/-
TaskTimer.Proofs.Run.Thread — what a timer's thread is at, and what its flags have come to.

The flags of a timer move one way only. A timer that takes no tasks takes none later, one whose
tasks were all called off stays so, a thread that has left its loop does not come back to it, and
the reason for which it ends stays the same (`Timer.Stays`, `System.stays_run`).

* `World.Worked` lists what a turn comes to and what it leaves of its timer. There is no case for
  a head that cannot be given its next deadline, because that never happens.
* `System.running_next` says which actions begin a body, and `System.endsFor_next` which take a
  thread out of its loop. A body is only ever run by a thread in its loop (`System.Busy`).
* A panic unwinds a thread only where something panics as it is dropped, and without a reason
  recorded only where that was thrown in a body (`System.unwound_run`).
-/
import TaskTimer.Proofs.Run.DeadlineOrder

namespace TaskTimer

/-! ## Flags that move one way -/

/-- What was true of `x` for good is true of `y`. -/
structure Timer.Stays (x y : Timer) : Prop where
  accepting : x.accepting = false → y.accepting = false
  cancelled : x.cancelled = true → y.cancelled = true
  shutdown : ∀ reason, x.shutdown = some reason → y.shutdown = some reason
  endsFor : ∀ reason, x.EndsFor reason → y.EndsFor reason
  left : x.stage ≠ .going → y.stage ≠ .going

namespace Timer.Stays

theorem refl (x : Timer) : x.Stays x := ⟨id, id, fun _ => id, fun _ => id, id⟩

theorem trans {x y z : Timer} (h : x.Stays y) (h' : y.Stays z) : x.Stays z where
  accepting := h'.accepting ∘ h.accepting
  cancelled := h'.cancelled ∘ h.cancelled
  shutdown reason := h'.shutdown reason ∘ h.shutdown reason
  endsFor reason := h'.endsFor reason ∘ h.endsFor reason
  left := h'.left ∘ h.left

/-- The thread has no part in it. -/
theorem of_thread_eq {x y : Timer} (hstage : y.stage = x.stage)
    (hshutdown : y.shutdown = x.shutdown)
    (haccepting : x.accepting = false → y.accepting = false)
    (hcancelled : x.cancelled = true → y.cancelled = true) : x.Stays y where
  accepting := haccepting
  cancelled := hcancelled
  shutdown reason h := hshutdown.trans h
  endsFor reason h := by rwa [EndsFor, hstage, hshutdown]
  left h := hstage ▸ h

/-- A thread in its loop can leave it for any reason. -/
theorem leave {x : Timer} (hgoing : x.stage = .going) (stage : Stage) :
    x.Stays { x with stage := stage } where
  accepting := id
  cancelled := id
  shutdown _ := id
  endsFor reason h := by
    rcases h with hleaving | hended
    · rw [hgoing] at hleaving
      cases hleaving
    · exact .inr hended
  left h := absurd hgoing h

/-- The reason recorded is the one for which the thread left its loop. -/
theorem record {x : Timer} (htold : x.Told) {reason : Shutdown TaskRef}
    (hleaving : x.stage = .leaving reason) (bursts : Bool) :
    x.Stays { x with
      queue := .empty
      accepting := false
      shutdown := some reason
      stage := if bursts then .unwound else .returned } := by
  have hnone : x.shutdown = none := htold.shutdown_eq_none (by rw [hleaving]; rfl)
  constructor
  · exact fun _ => rfl
  · exact id
  · intro reason' hended
    rw [hnone] at hended
    cases hended
  · rintro reason' (hleaving' | hended)
    · exact .inr (congrArg some (Stage.leaving.inj (hleaving.symm.trans hleaving')))
    · rw [hnone] at hended
      cases hended
  · cases bursts <;> simp

end Timer.Stays

theorem Change.stays {a : Action} {w w' : World} {events : List Event} {t : TimerRef}
    (c : Change a w events w') (ht : w.HasTimer t) (htold : (w.timer t).Told) :
    (w.timer t).Stays (w'.timer t) := by
  have set : ∀ {u : TimerRef} {x : Timer}, (u = t → (w.timer u).Stays x) →
      (w.timer t).Stays ((w.setTimer u x).timer t) := fun hx =>
    World.keep_setTimer (P := (w.timer t).Stays) (.refl _) fun ht => ht ▸ hx ht.symm
  cases c with
  | newTask | reject | cancel => exact .refl _
  | startTimer =>
    refine set fun hu => ?_
    rw [← hu] at ht
    exact absurd ht (Nat.lt_irrefl _)
  | setClock | accept | purge | discard | retire | postpone =>
    exact set fun _ => .of_thread_eq rfl rfl id id
  | close => exact set fun _ => .of_thread_eq rfl rfl (fun _ => rfl) id
  | cancelAll => exact set fun _ => .of_thread_eq rfl rfl (fun _ => rfl) fun _ => rfl
  | rest u interim ha hu hgoing => exact set fun _ => .leave hgoing _
  | fail u ending k stage ha hu hgoing => exact set fun _ => .leave hgoing stage
  | record u bursts reason events ha hu hleaving =>
    exact set fun hut => .record (hut ▸ htold) hleaving bursts

/-! ## Panics that nothing catches -/

/-- If the action ends a body on `t`, nothing that was thrown in it panics as it is dropped. -/
def Action.Caught (t : TimerRef) : Action → Prop
  | .finish u ending => u = t → ending.bursts = false
  | _ => True

instance (t : TimerRef) : (a : Action) → Decidable (a.Caught t)
  | .finish _ _ => inferInstanceAs (Decidable (_ → _ = _))
  | .newTask | .startTimer _ | .setClock _ _ | .submission _ _ _ | .insert _ _ _ _
  | .submitOnce _ _ | .submitRepeating _ _ _ _ | .cancelTask _ | .cancelAll _ | .close _
  | .purge _ | .work _ _ | .record _ _ => inferInstanceAs (Decidable True)

/-- A panic unwinds a thread where what was thrown panics as it is dropped, or where a task does
with which the thread ends, and then the reason is recorded. -/
theorem Change.unwound_cases {a : Action} {w w' : World} {events : List Event} {t : TimerRef}
    (c : Change a w events w') (h : (w'.timer t).stage = .unwound) :
    ((w.timer t).stage = .unwound ∧ (w'.timer t).shutdown = (w.timer t).shutdown) ∨
      ¬ a.Caught t ∨ a = .record t true ∧ (w'.timer t).shutdown ≠ none := by
  have kept : ∀ {u : TimerRef} {x : Timer}, (t = u → x.stage = .unwound →
      (w.timer u).stage = .unwound ∧ x.shutdown = (w.timer u).shutdown) →
      ((w.setTimer u x).timer t).stage = .unwound → (w.timer t).stage = .unwound ∧
        ((w.setTimer u x).timer t).shutdown = (w.timer t).shutdown := by
    intro u x hx hwound
    rw [World.timer_setTimer] at hwound ⊢
    split at hwound
    · next hu => simpa [hu] using hx hu hwound
    · next hu => simp [hu, hwound]
  cases c with
  | newTask | reject | cancel => exact .inl ⟨h, rfl⟩
  | setClock | accept | cancelAll | close | purge | discard | retire | postpone =>
    exact .inl (kept (fun _ hwound => ⟨hwound, rfl⟩) h)
  | startTimer | rest => exact .inl (kept (fun _ hwound => by cases hwound) h)
  | fail u ending k stage ha hu hgoing hexit =>
    by_cases ht : t = u
    · subst ht
      obtain rfl : stage = .unwound := by simpa [World.setStage] using h
      refine .inr (.inl fun hcaught => ?_)
      have hbursts := Ending.bursts_of_exit hexit
      rw [ha] at hcaught
      rw [hcaught rfl] at hbursts
      cases hbursts
    · exact .inl (kept (fun hu => absurd hu ht) h)
  | record u bursts reason events ha =>
    by_cases ht : t = u
    · subst ht
      cases bursts with
      | true => exact .inr (.inr ⟨ha, by simp [World.ended]⟩)
      | false => simp [World.ended] at h
    · exact .inl (kept (fun hu => absurd hu ht) h)

/-! ## Turns -/

/-- What is called off between the two looks at the head is all that the log shows of it. -/
theorem World.events_cancelEach (w : World) (ks : List TaskRef) :
    ∀ e ∈ (w.cancelEach ks).events, ∃ k, e = .taskCancelled k := by
  induction ks generalizing w with
  | nil => simp [cancelEach]
  | cons k ks ih =>
    intro e he
    rcases List.mem_append.1 he with hfirst | hrest
    · rw [events_cancelTask] at hfirst
      split at hfirst
      · exact ⟨k, List.mem_singleton.1 hfirst⟩
      · cases hfirst
    · exact ih _ e hrest

theorem firingsOn_cancelEach (w : World) (ks : List TaskRef) (t : TimerRef) :
    firingsOn t (w.cancelEach ks).events = [] := by
  refine List.filterMap_eq_nil_iff.2 fun e he => ?_
  obtain ⟨k, rfl⟩ := w.events_cancelEach ks e he
  rfl

namespace World

/-- What a turn of a thread comes to, what it leaves of its timer, and which events there are. -/
inductive Worked (w : World) (t : TimerRef) (interim : List TaskRef) :
    Turn → Timer → List Event → Prop
  | wait (due : Option Instant) : Worked w t interim (.wait due) (w.timer t) []
  | stop (hempty : (w.timer t).queue.peek = none) (hclosed : (w.timer t).accepting = false) :
    Worked w t interim (.stop (restReason (w.timer t)))
      { w.timer t with stage := .leaving (restReason (w.timer t)) } []
  | discard (k : TaskRef) (queue : Queue TaskRef) :
    Worked w t interim (.discard k) { w.timer t with queue := queue } []
  | discardDue (k : TaskRef) (queue : Queue TaskRef) :
    Worked w t interim (.discardDue k) { w.timer t with queue := queue }
      (w.cancelEach interim).events
  | fire (f : Firing TaskRef) (queue : Queue TaskRef) :
    Worked w t interim (.fire f) { w.timer t with queue := queue }
      ((w.cancelEach interim).events ++ [.firing t f])

variable {w : World} {t : TimerRef} {interim : List TaskRef} {turn : Turn} {x : Timer}
  {events : List Event}

theorem worked_work (ht : w.HasTimer t) (interim : List TaskRef) :
    w.Worked t interim (w.work t interim).result ((w.work t interim).world.timer t)
      (w.work t interim).events := by
  have htimer := timer_cancelEach w interim t
  have hturn := comesTo_work ht interim
  generalize w.work t interim = o at hturn ⊢
  cases hturn with
  | idle => exact .wait none
  | early head => exact .wait (some head.due)
  | rest hempty hclosed => simpa [setStage] using Worked.stop hempty hclosed
  | discard head => simpa [dropHead] using Worked.discard head.item _
  | discardDue head => simpa [dropHead, htimer] using Worked.discardDue head.item _
  | retire head => simpa [World.retire, dropHead, timer_setTask, htimer] using Worked.fire _ _
  | postpone head next queue =>
    simpa [World.postpone, timer_setTask, htimer] using Worked.fire _ queue

/-- What fires leaves the flags, and is the only execution that begins. -/
theorem Worked.of_fire {f : Firing TaskRef} (h : w.Worked t interim (.fire f) x events) :
    x.stage = (w.timer t).stage ∧ firingsOn t events = [f] := by
  cases h
  rw [firingsOn_append, firingsOn_cancelEach]
  simp [firingsOn, Event.firingOn?]

/-- A turn that does not stop the thread leaves it in its loop. -/
theorem Worked.stage_eq (h : w.Worked t interim turn x events)
    (hstop : ∀ reason, turn ≠ .stop reason) : x.stage = (w.timer t).stage := by
  cases h with
  | stop => exact absurd rfl (hstop _)
  | wait | discard | discardDue | fire => rfl

/-- A turn that takes the thread out of its loop stops it. -/
theorem Worked.endsFor_cases {reason : Shutdown TaskRef} (h : w.Worked t interim turn x events)
    (hends : x.EndsFor reason) : (w.timer t).EndsFor reason ∨ turn = .stop reason := by
  cases h with
  | stop =>
    rcases hends with hleaving | hended
    · exact .inr (congrArg Turn.stop (Stage.leaving.inj hleaving))
    · exact .inl (.inr hended)
  | wait | discard | discardDue | fire => exact .inl hends

/-- The end of a body that takes the thread out of its loop has a reason to. -/
theorem endsFor_finish {k : TaskRef} {ending : Ending} {reason : Shutdown TaskRef}
    (hends : ((w.finish t k ending).world.timer t).EndsFor reason) :
    (w.timer t).EndsFor reason ∨ ending.shutdown? k = some reason := by
  cases hexit : ending.exit? k with
  | none =>
    rw [finish, hexit] at hends
    exact .inl hends
  | some stage =>
    rw [finish_of_exit hexit, setStage, timer_setTimer_same] at hends
    rcases hends with rfl | hended
    · exact .inr (by simp [Ending.shutdown?, hexit, Stage.reason?])
    · exact .inl (.inr hended)

/-- A turn queues no new task. -/
theorem Worked.scheduled_not_mem (h : w.Worked t interim turn x events) (u : TimerRef)
    (k : TaskRef) (p : Period) (b : Bool) : .scheduled u k p b ∉ events := by
  have cancelled : .scheduled u k p b ∉ (w.cancelEach interim).events := by
    intro hmem
    obtain ⟨j, hj⟩ := w.events_cancelEach interim _ hmem
    cases hj
  cases h with
  | wait | discard | stop => simp
  | discardDue => exact cancelled
  | fire => simpa using cancelled

end World

namespace System

variable {s : System} {a : Action} {t : TimerRef}

/-! ## Bodies -/

/-- After a turn that does not fire, the body that runs is the one that ran before. -/
theorem runningAfter_self {turn : Turn} {f : Firing TaskRef}
    (h : s.runningAfter t turn t = some f) : turn = .fire f ∨ s.running t = some f := by
  cases turn with
  | fire g =>
    rw [runningAfter, Function.update_self] at h
    exact .inl (congrArg Turn.fire (Option.some.inj h))
  | _ => exact .inr h

theorem runningAfter_of_ne {u : TimerRef} (hu : t ≠ u) (turn : Turn) :
    s.runningAfter u turn t = s.running t := by
  cases turn with
  | fire g => exact Function.update_of_ne hu _ _
  | _ => rfl

/-- A body that runs after an action ran before, or it begins with a turn. -/
theorem running_next {f : Firing TaskRef} (h : (s.next a).running t = some f) :
    s.running t = some f ∧ (s.next a = s ∨ (∀ interim, a ≠ .work t interim) ∧
      ∀ ending, a ≠ .finish t ending) ∨
    ∃ interim, a = .work t interim ∧ s.Admits a ∧ (s.world.work t interim).result = .fire f := by
  by_cases hadmits : s.Admits a
  · rw [next, if_pos hadmits] at h ⊢
    cases a with
    | work u interim =>
      have h : s.runningAfter u (s.world.work u interim).result t = some f := h
      by_cases hu : t = u
      · subst hu
        refine .inr ⟨interim, rfl, hadmits, (runningAfter_self h).resolve_right ?_⟩
        simp [hadmits.2.2.1]
      · rw [runningAfter_of_ne hu] at h
        exact .inl ⟨h, .inr ⟨fun _ heq => hu (Action.work.inj heq).1.symm, by simp⟩⟩
    | finish u ending =>
      obtain ⟨g, hg⟩ := Option.ne_none_iff_exists'.1 hadmits.2.2
      simp only [take, hg] at h
      by_cases hu : t = u
      · subst hu
        rw [Function.update_self] at h
        cases h
      · rw [Function.update_of_ne hu] at h
        exact .inl ⟨h, .inr ⟨by simp, fun _ heq => hu (Action.finish.inj heq).1.symm⟩⟩
    | _ => exact .inl ⟨h, .inr ⟨by simp, by simp⟩⟩
  · rw [next, if_neg hadmits] at h ⊢
    exact .inl ⟨h, .inl rfl⟩

theorem hasTimer_next (ht : s.world.HasTimer t) (a : Action) : (s.next a).world.HasTimer t :=
  keep_next (P := fun w _ => w.HasTimer t) (fun hw c => c.hasTimer hw) ht

theorem hasTimer_run (ht : s.world.HasTimer t) (acts : List Action) :
    (s.run acts).world.HasTimer t := by
  induction acts generalizing s with
  | nil => exact ht
  | cons a acts ih => exact ih (hasTimer_next ht a)

theorem next_work {interim : List TaskRef} (h : s.Admits (.work t interim)) :
    (s.next (.work t interim)).world = (s.world.work t interim).world ∧
      (s.next (.work t interim)).log = s.log ++ (s.world.work t interim).events := by
  rw [next, if_pos h]
  exact ⟨rfl, rfl⟩

theorem next_finish {f : Firing TaskRef} {ending : Ending} (h : s.Admits (.finish t ending))
    (hf : s.running t = some f) :
    (s.next (.finish t ending)).world = (s.world.finish t f.task ending).world ∧
      (s.next (.finish t ending)).running t = none := by
  rw [next, if_pos h]
  simp only [take, hf, Function.update_self, and_true]
  rfl

/-- The end of a thread begins no body and ends none. -/
theorem running_next_record (s : System) (t : TimerRef) (bursts : Bool) :
    (s.next (.record t bursts)).running = s.running := by
  rw [next]
  split <;> rfl

/-- A thread leaves its loop by a turn that stops it, or with the body that it runs. -/
theorem endsFor_next {reason : Shutdown TaskRef}
    (h : ((s.next a).world.timer t).EndsFor reason) :
    (s.world.timer t).EndsFor reason ∨
    (∃ interim, a = .work t interim ∧ s.Admits a ∧ (s.world.work t interim).result = .stop reason) ∨
    ∃ ending f, a = .finish t ending ∧ s.Admits a ∧ s.running t = some f ∧
      ending.shutdown? f.task = some reason := by
  by_cases hadmits : s.Admits a
  · by_cases hwork : ∃ interim, a = .work t interim
    · obtain ⟨interim, rfl⟩ := hwork
      rw [(next_work hadmits).1] at h
      rcases (World.worked_work hadmits.1 interim).endsFor_cases h with hbefore | hstop
      · exact .inl hbefore
      · exact .inr (.inl ⟨interim, rfl, hadmits, hstop⟩)
    · by_cases hfinish : ∃ ending, a = .finish t ending
      · obtain ⟨ending, rfl⟩ := hfinish
        obtain ⟨f, hf⟩ := Option.ne_none_iff_exists'.1 hadmits.2.2
        rw [(next_finish hadmits hf).1] at h
        rcases World.endsFor_finish h with hbefore | hending
        · exact .inl hbefore
        · exact .inr (.inr ⟨ending, f, rfl, hadmits, hf, hending⟩)
      · refine .inl (keep_next (P := fun w _ => (w.timer t).EndsFor reason →
          (s.world.timer t).EndsFor reason) (fun hw c hends => ?_) id h)
        rcases c.endsFor_cases hends with hbefore | ⟨hwork', -⟩ | ⟨ending, k, hfinish', -⟩
        · exact hw hbefore
        · exact absurd hwork' hwork
        · exact absurd ⟨ending, hfinish'⟩ hfinish
  · rw [next, if_neg hadmits] at h
    exact .inl h

/-- The thread of `t` is in its loop, in the middle of the body of its latest execution. -/
structure Busy (s : System) (t : TimerRef) (f : Firing TaskRef) : Prop where
  hasTimer : s.world.HasTimer t
  going : (s.world.timer t).stage = .going
  latest : (firingsOn t s.log).getLast? = some f

/-- A turn that fires leaves its thread in the middle of that body. -/
theorem busy_next_work {interim : List TaskRef} {f : Firing TaskRef}
    (h : s.Admits (.work t interim)) (hfire : (s.world.work t interim).result = .fire f) :
    (s.next (.work t interim)).Busy t f := by
  obtain ⟨hworld, hlog⟩ := next_work h
  obtain ⟨ht, hgoing, -⟩ := h
  have worked := World.worked_work ht interim
  rw [hfire] at worked
  obtain ⟨hstill, hfirings⟩ := worked.of_fire
  constructor
  · exact hasTimer_next ht _
  · rw [hworld, hstill, hgoing]
  · rw [hlog, firingsOn_append, hfirings, List.getLast?_concat]

/-- What a thread is at, and what is recorded of it, changes by actions of that thread alone. -/
theorem thread_next (ht : s.world.HasTimer t) (hwork : ∀ interim, a ≠ .work t interim)
    (hfinish : ∀ ending, a ≠ .finish t ending) (hrecord : ∀ bursts, a ≠ .record t bursts) :
    ((s.next a).world.timer t).stage = (s.world.timer t).stage ∧
      ((s.next a).world.timer t).shutdown = (s.world.timer t).shutdown := by
  have both := keep_next (s := s) (a := a)
    (P := fun w _ => w.HasTimer t ∧ (w.timer t).stage = (s.world.timer t).stage ∧
      (w.timer t).shutdown = (s.world.timer t).shutdown) (fun hw c => ⟨c.hasTimer hw.1, ?_⟩)
    ⟨ht, rfl, rfl⟩
  · exact both.2
  · obtain ⟨hstage, hshutdown⟩ := c.thread_eq hw.1 hwork hfinish hrecord
    exact ⟨hstage.trans hw.2.1, hshutdown.trans hw.2.2⟩

/-- A thread in its loop leaves it by a turn or by the end of a body. -/
theorem going_next (ht : s.world.HasTimer t) (hgoing : (s.world.timer t).stage = .going)
    (hwork : ∀ interim, a ≠ .work t interim) (hfinish : ∀ ending, a ≠ .finish t ending) :
    ((s.next a).world.timer t).stage = .going := by
  by_cases hrecord : ∃ bursts, a = .record t bursts
  · obtain ⟨bursts, rfl⟩ := hrecord
    have hnot : ¬ s.Admits (.record t bursts) := fun hadmits => hadmits.2.1 (by rw [hgoing]; rfl)
    rwa [next, if_neg hnot]
  · rw [(thread_next ht hwork hfinish fun bursts h => hrecord ⟨bursts, h⟩).1, hgoing]

theorem unwound_next (h : ((s.next a).world.timer t).stage = .unwound) :
    ((s.world.timer t).stage = .unwound ∧
        ((s.next a).world.timer t).shutdown = (s.world.timer t).shutdown) ∨
      ¬ a.Caught t ∨ a = .record t true ∧ ((s.next a).world.timer t).shutdown ≠ none := by
  refine keep_next (P := fun w _ => (w.timer t).stage = .unwound →
    ((s.world.timer t).stage = .unwound ∧ (w.timer t).shutdown = (s.world.timer t).shutdown) ∨
      ¬ a.Caught t ∨ a = .record t true ∧ (w.timer t).shutdown ≠ none)
    (fun hw c hwound => ?_) (fun hwound => .inl ⟨hwound, rfl⟩) h
  rcases c.unwound_cases hwound with ⟨hbefore, hsame⟩ | hnow
  · rw [hsame]
    exact hw hbefore
  · exact .inr hnow

/-- Along a run, a panic unwinds a thread that has recorded why it ends, or one in a body of which
something was thrown that panics as it is dropped. -/
theorem unwound_run {acts : List Action} (h : ((s.run acts).world.timer t).stage = .unwound) :
    ((s.world.timer t).stage = .unwound ∧
        ((s.run acts).world.timer t).shutdown = (s.world.timer t).shutdown) ∨
      (∃ a ∈ acts, ¬ a.Caught t) ∨
      .record t true ∈ acts ∧ ((s.run acts).world.timer t).shutdown ≠ none := by
  induction acts generalizing s with
  | nil => exact .inl ⟨h, rfl⟩
  | cons a acts ih =>
    rcases ih h with ⟨hbefore, hsame⟩ | ⟨b, hb, hthrown⟩ | ⟨hmem, hended⟩
    · rcases unwound_next hbefore with ⟨hstart, hsame'⟩ | hthrown | ⟨rfl, hended⟩
      · exact .inl ⟨hstart, hsame.trans hsame'⟩
      · exact .inr (.inl ⟨a, List.mem_cons_self, hthrown⟩)
      · exact .inr (.inr ⟨List.mem_cons_self, fun hnone => hended (hsame.symm.trans hnone)⟩)
    · exact .inr (.inl ⟨b, List.mem_cons_of_mem _ hb, hthrown⟩)
    · exact .inr (.inr ⟨List.mem_cons_of_mem _ hmem, hended⟩)

theorem busy_next (hbusy : ∀ f, s.running t = some f → s.Busy t f) {f : Firing TaskRef}
    (h : (s.next a).running t = some f) : (s.next a).Busy t f := by
  rcases running_next h with ⟨hsame, hnext | ⟨hwork, hfinish⟩⟩ | ⟨interim, rfl, hadmits, hfire⟩
  · rw [hnext]
    exact hbusy f hsame
  · have before := hbusy f hsame
    constructor
    · exact hasTimer_next before.hasTimer a
    · exact going_next before.hasTimer before.going hwork hfinish
    · rw [firingsOn_next_of_ne hwork]
      exact before.latest
  · exact busy_next_work hadmits hfire

/-- After every run, a body that runs is that of the latest execution of a thread in its loop. -/
theorem busy_after {acts : List Action} {f : Firing TaskRef}
    (h : (after acts).running t = some f) : (after acts).Busy t f :=
  after_induction (P := fun _ s => ∀ f, s.running t = some f → s.Busy t f)
    (fun _ hf => by cases hf) (fun _ _ hbusy _ hf => busy_next hbusy hf) acts f h

/-- Once its body has ended, a thread is in the middle of none. -/
theorem running_next_finish (acts : List Action) (t : TimerRef) (ending : Ending) :
    ((after acts).next (.finish t ending)).running t = none := by
  cases hf : (after acts).running t with
  | some f =>
    have busy := busy_after hf
    have hadmits : (after acts).Admits (.finish t ending) :=
      ⟨busy.hasTimer, busy.going, by simp [hf]⟩
    exact (next_finish hadmits hf).2
  | none =>
    have hnot : ¬ (after acts).Admits (.finish t ending) := fun hadmits => hadmits.2.2 hf
    rw [next, if_neg hnot]
    exact hf

/-! ## Flags along a run -/

theorem stays_next (htold : ∀ u, (s.world.timer u).Told) (ht : s.world.HasTimer t) (a : Action) :
    (s.world.timer t).Stays ((s.next a).world.timer t) := by
  have all := keep_next (s := s) (a := a)
    (P := fun w _ => (∀ u, (w.timer u).Told) ∧ w.HasTimer t ∧
      (s.world.timer t).Stays (w.timer t))
    (fun hw c => ⟨Timer.Told.change hw.1 c, c.hasTimer hw.2.1,
      hw.2.2.trans (c.stays hw.2.1 (hw.1 t))⟩) ⟨htold, ht, .refl _⟩
  exact all.2.2

/-- From any point of a run on, the flags of a timer move one way. -/
theorem stays_run {acts : List Action} (ht : (after acts).world.HasTimer t) (more : List Action) :
    ((after acts).world.timer t).Stays (((after acts).run more).world.timer t) := by
  have both := run_induction (P := fun _ s => s.world.HasTimer t ∧
      ((after acts).world.timer t).Stays (s.world.timer t)) ⟨ht, .refl _⟩
    (fun _ a h => ⟨hasTimer_next h.1 a, h.2.trans (stays_next (told_after _) h.1 a)⟩) more
  exact both.2

end System

end TaskTimer
