/-
TaskTimer.Proofs.Settling.SubmissionOrder — the order in which tasks are submitted makes no
difference.

Tasks are submitted one after another, at one reading of the clock, and none of them is due yet.
In which order that happens shows in the layout of the heap, and nowhere else: the worlds that two
orders lead to are akin (`akin_run_of_perm`). While the submissions go on nothing is due, so the
thread only takes out what was called off (`Settles.of_quiet`). From there on the two runs go on
alike (`Akin.course`), whatever calls follow.
-/
import TaskTimer.Proofs.Settling.Alike

namespace TaskTimer

open Session (Submission)

namespace System

variable {t : TimerRef} {s s' r r' : System} {acts acts' : List Action}
  {fs gs : List (Firing TaskRef)} {fss gss : List (List (Firing TaskRef))}
  {block block' : List (TaskRef × Submission)}

/-! ## Actions with a settling after each -/

/-- From `s` on, the actions are taken one after another, and the thread of `t` settles after each
of them; `fss` is what runs in each settling. -/
inductive Course (t : TimerRef) :
    System → List Action → List (List (Firing TaskRef)) → System → Prop
  | nil {s : System} : Course t s [] [] s
  | cons {s r s' : System} {a : Action} {acts : List Action} {fs : List (Firing TaskRef)}
      {fss : List (List (Firing TaskRef))} (settles : Settles t (s.next a) fs r)
      (later : Course t r acts fss s') : Course t s (a :: acts) (fs :: fss) s'

namespace Course

theorem append (h : Course t s acts fss r) (h' : Course t r acts' gss r') :
    Course t s (acts ++ acts') (fss ++ gss) r' := by
  induction h with
  | nil => exact h'
  | cons settles later ih => exact .cons settles (ih h')

theorem of_append (h : Course t s (acts ++ acts') fss r') :
    ∃ gss hss r, fss = gss ++ hss ∧ Course t s acts gss r ∧ Course t r acts' hss r' := by
  induction acts generalizing s fss with
  | nil => exact ⟨[], fss, s, rfl, .nil, h⟩
  | cons a acts ih =>
    cases h with
    | cons settles later =>
      obtain ⟨gss, hss, r, rfl, before, after⟩ := ih later
      exact ⟨_ :: gss, hss, r, rfl, .cons settles before, after⟩

theorem unoccupied (h : Course t s acts fss r) (hs : s.Unoccupied t)
    (hcalls : ∀ a ∈ acts, a.IsCallOn t) : r.Unoccupied t := by
  induction h with
  | nil => exact hs
  | cons settles later ih =>
    refine ih (settles.unoccupied (hs.next_call (hcalls _ (by simp)))) fun a ha => ?_
    exact hcalls a (List.mem_cons_of_mem _ ha)

/-- The log shows what ran. -/
theorem firingsOn_log (h : Course t s acts fss r) (hs : s.Unoccupied t)
    (hcalls : ∀ a ∈ acts, a.IsCallOn t) :
    firingsOn t r.log = firingsOn t s.log ++ fss.flatten := by
  induction h with
  | nil => simp
  | cons settles later ih =>
    have hcall := hcalls _ List.mem_cons_self
    have hnext := hs.next_call hcall
    rw [ih (settles.unoccupied hnext) fun a ha => hcalls a (List.mem_cons_of_mem _ ha),
      settles.firingsOn_log hnext, firingsOn_next_call hcall, List.flatten_cons,
      List.append_assoc]

end Course

/-- With room on the clock, every list of calls has a course. -/
theorem Unoccupied.exists_course (hs : s.Unoccupied t)
    (hroom : (s.world.timer t).clock.HasRoom) (hcalls : ∀ a ∈ acts, a.IsCallOn t) :
    ∃ fss r, Course t s acts fss r := by
  induction acts generalizing s with
  | nil => exact ⟨[], s, .nil⟩
  | cons a acts ih =>
    have hcall := hcalls a List.mem_cons_self
    have hnext := hs.next_call hcall
    have hroom' := hasRoom_next_call hs.hasTimer hcall hroom
    obtain ⟨fs, settles⟩ := hnext.settles hroom'
    obtain ⟨fss, r, later⟩ := ih (settles.unoccupied hnext)
      (by rw [settles.timer_eq.1]; exact hroom')
      fun b hb => hcalls b (List.mem_cons_of_mem _ hb)
    exact ⟨fs :: fss, r, .cons settles later⟩

/-- The same executions, and those with equal deadlines perhaps in another order. -/
def RunsAlike (fs gs : List (Firing TaskRef)) : Prop :=
  fs.Perm gs ∧ fs.map (·.due) = gs.map (·.due)

end System

/-- What follows is the same in akin worlds. -/
theorem Akin.course {t : TimerRef} {s s' r : System} {acts : List Action}
    {fss : List (List (Firing TaskRef))} (h : Akin t s.world s'.world) (hs : s.Unoccupied t)
    (hs' : s'.Unoccupied t) (hcalls : ∀ a ∈ acts, a.IsCallOn t)
    (hr : System.Course t s acts fss r) :
    (∃ gss r', System.Course t s' acts gss r') ∧
      ∀ gss r', System.Course t s' acts gss r' →
        List.Forall₂ System.RunsAlike fss gss ∧ Akin t r.world r'.world := by
  induction hr generalizing s' with
  | nil =>
    refine ⟨⟨[], s', .nil⟩, fun gss r' hr' => ?_⟩
    cases hr'
    exact ⟨.nil, h⟩
  | cons settles later ih =>
    have hcall := hcalls _ List.mem_cons_self
    have hrest := fun b hb => hcalls b (List.mem_cons_of_mem _ hb)
    have hnext := hs.next_call hcall
    have hnext' := hs'.next_call hcall
    have hakin := h.next hcall
    constructor
    · obtain ⟨gs, m, settles'⟩ := hakin.exists_settles hnext hnext' settles
      obtain ⟨hm, -⟩ := hakin.settles hnext hnext' settles settles'
      obtain ⟨⟨gss, r', later'⟩, -⟩ :=
        ih hm (settles.unoccupied hnext) (settles'.unoccupied hnext') hrest
      exact ⟨_, r', .cons settles' later'⟩
    · intro gss r' hr'
      cases hr' with
      | cons settles' later' =>
        obtain ⟨hm, hsame⟩ := hakin.settles hnext hnext' settles settles'
        obtain ⟨-, hrun⟩ := ih hm (settles.unoccupied hnext) (settles'.unoccupied hnext') hrest
        obtain ⟨hsame', hr⟩ := hrun _ _ later'
        exact ⟨.cons hsame hsame', hr⟩

theorem Akin.run {t : TimerRef} {s s' : System} {acts : List Action}
    (h : Akin t s.world s'.world) (hcalls : ∀ a ∈ acts, a.IsCallOn t) :
    Akin t (s.run acts).world (s'.run acts).world := by
  induction acts generalizing s s' with
  | nil => exact h
  | cons a acts ih =>
    exact ih (h.next (hcalls a List.mem_cons_self)) fun b hb =>
      hcalls b (List.mem_cons_of_mem _ hb)

/-- Two tasks may be queued in either order. -/
theorem akin_enqueue_swap {t : TimerRef} {w : World} {j k : TaskRef} (hne : j ≠ k)
    (due due' : Instant) (period period' : Period) :
    Akin t ((w.enqueue t j due period).enqueue t k due' period')
      ((w.enqueue t k due' period').enqueue t j due period) := by
  refine ⟨⟨fun i => ?_, rfl, rfl, ?_⟩, fun i _ => ?_⟩
  · simp only [World.enqueue, World.task_setTimer, World.task_setTask, World.timer_setTimer_same]
    by_cases hij : i = j
    · simp [hij, hne]
    · simp [hij, hne.symm]
  · simp only [World.enqueue, World.timer_setTimer_same]
    exact ⟨_, rfl⟩
  · simp only [World.mem_queuedTasks_enqueue_iff]
    exact or_left_comm

namespace System

variable {t : TimerRef} {s s' r r' : System} {acts acts' : List Action}
  {fs gs : List (Firing TaskRef)} {fss gss : List (List (Firing TaskRef))}
  {block block' : List (TaskRef × Submission)}

/-! ## While nothing is due -/

/-- A thread that settles while nothing is due, on a timer that takes tasks, runs nothing. -/
theorem Settles.of_quiet (h : Settles t s fs r) (hs : s.Unoccupied t) (hquiet : s.Quiet t)
    (hopen : (s.world.timer t).accepting = true) : fs = [] ∧ Akin t s.world r.world := by
  have same : ∀ k, fs.filter (·.task = k) = [] ∧ r.world.task k = s.world.task k := by
    intro k
    by_cases hk : (s.world.task k).state = .scheduled → k ∈ s.world.queuedTasks t
    · exact (h.exhausts hs hk).unique (hquiet.exhausts hk)
    · exact (h.untouched hs fun _ hmem => hk fun _ => hmem).symm
  obtain ⟨hclock, haccepting, hcancelled⟩ := h.timer_eq
  have hopen' := haccepting.trans hopen
  have hr := h.unoccupied hs
  have hgoing := hs.going hopen
  have hgoing' := hr.going hopen'
  have hnone := hs.shutdown_eq_none hgoing
  have hnone' := hr.shutdown_eq_none hgoing'
  constructor
  · refine List.eq_nil_iff_forall_not_mem.2 fun f hf => ?_
    have hmem : f ∈ fs.filter (·.task = f.task) := List.mem_filter.2 ⟨hf, by simp⟩
    rw [(same f.task).1] at hmem
    cases hmem
  · refine ⟨⟨fun k => (same k).2, h.counts_eq.1, h.counts_eq.2, ?_⟩, fun k hk => ?_⟩
    · exact Timer.exists_queue_of_flags hclock haccepting hcancelled
        (hgoing'.trans hgoing.symm) (hnone'.trans hnone.symm)
    · exact h.drains.mem_iff k ((same k).2 ▸ hk)

/-- While nothing is due, the thread settles. -/
theorem Quiet.exists_settles (h : s.Quiet t) (hs : s.Unoccupied t) :
    ∃ fs r, Settles t s fs r :=
  hs.exists_settles [] fun _ hk _ => ⟨_, h.exhausts fun _ => hk⟩

/-! ## A block of submissions -/

/-- The submissions of a block, in this order. -/
def submissions (t : TimerRef) (block : List (TaskRef × Submission)) : List Action :=
  block.map fun b => .submission t b.1 b.2

/-- The first deadline and the period of a submission are in order, and the deadline lies ahead. -/
def Ahead (timer : Timer) (way : Submission) : Prop :=
  ∃ due period, way.start timer = .ok due ∧ way.period = .ok period ∧ timer.clock.now < due

/-- A timer takes all submissions of the block: it takes tasks, these are new and different from
one another, and they are due later. -/
structure Ready (t : TimerRef) (s : System) (block : List (TaskRef × Submission)) : Prop where
  accepting : (s.world.timer t).accepting = true
  distinct : (block.map Prod.fst).Nodup
  hasTask : ∀ b ∈ block, s.world.HasTask b.1
  created : ∀ b ∈ block, (s.world.task b.1).state = .created
  ahead : ∀ b ∈ block, Ahead (s.world.timer t) b.2

theorem isCallOn_submissions (t : TimerRef) (block : List (TaskRef × Submission)) :
    ∀ a ∈ submissions t block, a.IsCallOn t := by
  intro a ha
  obtain ⟨b, -, rfl⟩ := List.mem_map.1 ha
  rfl

namespace Ready

theorem perm (h : Ready t s block) (hperm : block.Perm block') : Ready t s block' where
  accepting := h.accepting
  distinct := (hperm.map Prod.fst).nodup_iff.1 h.distinct
  hasTask b hb := h.hasTask b (hperm.mem_iff.2 hb)
  created b hb := h.created b (hperm.mem_iff.2 hb)
  ahead b hb := h.ahead b (hperm.mem_iff.2 hb)

theorem akin (h : Ready t s block) (hakin : Akin t s.world s'.world) : Ready t s' block := by
  obtain ⟨queue, htimer⟩ := hakin.timer
  refine ⟨by rw [htimer]; exact h.accepting, h.distinct, fun b hb => ?_, fun b hb => ?_,
    fun b hb => ?_⟩
  · exact (hakin.hasTask_iff b.1).2 (h.hasTask b hb)
  · rw [hakin.task]
    exact h.created b hb
  · obtain ⟨due, period, hstart, hperiod, hlater⟩ := h.ahead b hb
    exact ⟨due, period, hakin.start_eq b.2 ▸ hstart, hperiod, by rw [htimer]; exact hlater⟩

/-- A submission that the timer is ready for queues its task. -/
theorem next_world {b : TaskRef × Submission} {due : Instant} {period : Period}
    (h : Ready t s (b :: block)) (ht : s.world.HasTimer t)
    (hstart : b.2.start (s.world.timer t) = .ok due) (hperiod : b.2.period = .ok period) :
    (s.next (.submission t b.1 b.2)).world = s.world.enqueue t b.1 due period := by
  have hadmits : s.Admits (.submission t b.1 b.2) := ⟨ht, h.hasTask b List.mem_cons_self⟩
  rw [System.next, if_pos hadmits]
  show (b.2.op t b.1 s.world).world = _
  rw [b.2.op_eq, hstart, hperiod, World.submitChecked,
    World.accept_of_created h.accepting (h.created b List.mem_cons_self)]

theorem clock_next {b : TaskRef × Submission} (ht : s.world.HasTimer t) :
    ((s.next (.submission t b.1 b.2)).world.timer t).clock = (s.world.timer t).clock :=
  System.clock_next ht (by simp)

/-- Then it is ready for those that follow. -/
theorem next {b : TaskRef × Submission} (h : Ready t s (b :: block)) (ht : s.world.HasTimer t) :
    Ready t (s.next (.submission t b.1 b.2)) block := by
  obtain ⟨due, period, hstart, hperiod, -⟩ := h.ahead b List.mem_cons_self
  have hworld := h.next_world ht hstart hperiod
  obtain ⟨hnot, hdistinct⟩ := List.nodup_cons.1 h.distinct
  have hother : ∀ c ∈ block, c.1 ≠ b.1 := fun c hc hcb => hnot (hcb ▸ List.mem_map_of_mem hc)
  refine ⟨?_, hdistinct, fun c hc => ?_, fun c hc => ?_, fun c hc => ?_⟩
  · rw [hworld, World.enqueue, World.timer_setTimer_same]
    exact h.accepting
  · rw [hworld]
    exact h.hasTask c (List.mem_cons_of_mem _ hc)
  · rw [hworld, World.enqueue, World.task_setTimer, World.task_setTask_of_ne _ (hother c hc)]
    exact h.created c (List.mem_cons_of_mem _ hc)
  · obtain ⟨due', period', hstart', hperiod', hlater⟩ := h.ahead c (List.mem_cons_of_mem _ hc)
    refine ⟨due', period', (c.2.start_of_clock (clock_next ht)).trans hstart', hperiod', ?_⟩
    rwa [clock_next ht]

/-- And still nothing is due. -/
theorem quiet_next {b : TaskRef × Submission} (h : Ready t s (b :: block))
    (ht : s.world.HasTimer t) (hquiet : s.Quiet t) :
    (s.next (.submission t b.1 b.2)).Quiet t := by
  obtain ⟨due, period, hstart, hperiod, hlater⟩ := h.ahead b List.mem_cons_self
  intro k hk hscheduled due' hdue'
  rw [clock_next ht]
  rw [h.next_world ht hstart hperiod] at hk hscheduled hdue'
  rw [World.enqueue, World.task_setTimer] at hscheduled hdue'
  by_cases hkb : k = b.1
  · subst hkb
    rw [World.task_setTask_same] at hdue'
    exact Option.some.inj hdue' ▸ hlater
  · rw [World.task_setTask_of_ne _ hkb] at hscheduled hdue'
    have hold := (World.mem_queuedTasks_enqueue_iff.1 hk).resolve_left hkb
    exact hquiet k hold hscheduled due' hdue'

/-- In the course of a block nothing runs, and the settlings make no difference. -/
theorem course (h : Ready t s block) (hs : s.Unoccupied t) (hquiet : s.Quiet t)
    (hr : Course t s (submissions t block) fss r) :
    fss = List.replicate block.length [] ∧
      Akin t (s.run (submissions t block)).world r.world := by
  induction block generalizing s fss with
  | nil =>
    cases hr
    exact ⟨rfl, .refl t _⟩
  | cons b block ih =>
    cases hr with
    | @cons _ m _ _ _ fs gss settles later =>
      have hnext : (s.next (.submission t b.1 b.2)).Unoccupied t := hs.next_call rfl
      have hready := h.next hs.hasTimer
      obtain ⟨rfl, hakin⟩ := settles.of_quiet hnext (h.quiet_next hs.hasTimer hquiet)
        hready.accepting
      have hm := settles.unoccupied hnext
      obtain ⟨rfl, hrest⟩ := ih (hready.akin hakin) hm (hm.quiet settles.settled) later
      exact ⟨rfl, (hakin.run (isCallOn_submissions t block)).trans hrest⟩

theorem exists_course (h : Ready t s block) (hs : s.Unoccupied t) (hquiet : s.Quiet t) :
    ∃ fss r, Course t s (submissions t block) fss r := by
  induction block generalizing s with
  | nil => exact ⟨[], s, .nil⟩
  | cons b block ih =>
    have hnext : (s.next (.submission t b.1 b.2)).Unoccupied t := hs.next_call rfl
    have hready := h.next hs.hasTimer
    have hquiet' := h.quiet_next hs.hasTimer hquiet
    obtain ⟨fs, m, settles⟩ := hquiet'.exists_settles hnext
    obtain ⟨-, hakin⟩ := settles.of_quiet hnext hquiet' hready.accepting
    have hm := settles.unoccupied hnext
    obtain ⟨fss, r, later⟩ := ih (hready.akin hakin) hm (hm.quiet settles.settled)
    exact ⟨fs :: fss, r, .cons settles later⟩

/-- Two submissions may change places. -/
theorem akin_swap {b c : TaskRef × Submission} (h : Ready t s (b :: c :: block))
    (hs : s.Unoccupied t) :
    Akin t ((s.next (.submission t b.1 b.2)).next (.submission t c.1 c.2)).world
      ((s.next (.submission t c.1 c.2)).next (.submission t b.1 b.2)).world := by
  have ht := hs.hasTimer
  have h' : Ready t s (c :: b :: block) := h.perm (.swap c b block)
  obtain ⟨due, period, hstart, hperiod, -⟩ := h.ahead b List.mem_cons_self
  obtain ⟨due', period', hstart', hperiod', -⟩ := h'.ahead c List.mem_cons_self
  have hne : b.1 ≠ c.1 := fun hbc => by simpa [hbc] using h.distinct
  have second : ∀ {d e : TaskRef × Submission} {due : Instant},
      e.2.start (s.world.timer t) = .ok due →
      e.2.start ((s.next (.submission t d.1 d.2)).world.timer t) = .ok due :=
    fun he => (Submission.start_of_clock _ (clock_next ht)).trans he
  have hasTimer : ∀ d : TaskRef × Submission, (s.next (.submission t d.1 d.2)).world.HasTimer t :=
    fun d => (hs.next_call (a := .submission t d.1 d.2) rfl).hasTimer
  rw [(h.next ht).next_world (hasTimer b) (second hstart') hperiod',
    (h'.next ht).next_world (hasTimer c) (second hstart) hperiod,
    h.next_world ht hstart hperiod, h'.next_world ht hstart' hperiod']
  exact akin_enqueue_swap hne due due' period period'

/-- In whichever order the tasks of a block are submitted, the worlds are akin. -/
theorem akin_run_of_perm (h : Ready t s block) (hs : s.Unoccupied t)
    (hperm : block.Perm block') :
    Akin t (s.run (submissions t block)).world (s.run (submissions t block')).world := by
  induction hperm generalizing s with
  | nil => exact .refl t _
  | cons b _ ih => exact ih (h.next hs.hasTimer) (hs.next_call rfl)
  | swap b c block =>
    exact (h.akin_swap hs).run (isCallOn_submissions t block)
  | trans hperm _ ih ih' => exact (ih h hs).trans (ih' (h.perm hperm) hs)

end Ready

/-- A timer that takes tasks and has settled is between two bodies. -/
theorem unoccupied_of_settled {acts : List Action} (ht : (after acts).world.HasTimer t)
    (hsettled : (after acts).Settled t) (hopen : ((after acts).world.timer t).accepting = true) :
    (after acts).Unoccupied t := by
  rcases hsettled with hended | ⟨hgoing, hfree, -⟩
  · rw [(off_after (.inr hended)).2] at hopen
    cases hopen
  · exact ⟨⟨acts, rfl⟩, ht, hfree, .inl hgoing⟩

end System

/-- **The order of submission makes no difference.** Some timer has settled and takes tasks, after
whatever happened to it and to other timers. Tasks that are new are submitted to it, one by one, in
any of the ways there are, and none of them is due yet; then other calls are made, and after each
submission and each call the thread settles, with bodies that do nothing. Were the tasks submitted
in another order, the thread would settle as well: each settling would run the same executions, and
only those with equal deadlines may be in another order. In the end every task would have the same
record, and the timer would take tasks, or have ended for a reason, just as well. What the settlings
run is what the log shows. And where the clock has room, they do come to an end. -/
theorem submission_order_makes_no_difference {acts calls : List Action} {t : TimerRef}
    {block block' : List (TaskRef × Submission)} (ht : (System.after acts).world.HasTimer t)
    (hsettled : (System.after acts).Settled t) (hready : (System.after acts).Ready t block)
    (hperm : block.Perm block') (hcalls : ∀ a ∈ calls, a.IsCallOn t) :
    let s := System.after acts
    (∀ fss r, s.Course t (System.submissions t block ++ calls) fss r →
      (∃ gss r', s.Course t (System.submissions t block' ++ calls) gss r') ∧
      ∀ gss r', s.Course t (System.submissions t block' ++ calls) gss r' →
        List.Forall₂ System.RunsAlike fss gss ∧
        (∀ k, r'.world.task k = r.world.task k) ∧
        (r'.world.timer t).accepting = (r.world.timer t).accepting ∧
        (r'.world.timer t).shutdown = (r.world.timer t).shutdown ∧
        firingsOn t r.log = firingsOn t s.log ++ fss.flatten ∧
        firingsOn t r'.log = firingsOn t s.log ++ gss.flatten) ∧
    ((s.world.timer t).clock.HasRoom →
      ∃ fss r, s.Course t (System.submissions t block ++ calls) fss r) := by
  intro s
  have hs : s.Unoccupied t := System.unoccupied_of_settled ht hsettled hready.accepting
  have hquiet := hs.quiet hsettled
  have hready' := hready.perm hperm
  have hall : ∀ block, ∀ a ∈ System.submissions t block ++ calls, a.IsCallOn t := fun block a ha =>
    (List.mem_append.1 ha).elim (System.isCallOn_submissions t block a) (hcalls a)
  refine ⟨fun fss r hcourse => ?_, fun hroom => hs.exists_course hroom (hall block)⟩
  obtain ⟨quiets, fss, m, rfl, hm, hr⟩ := hcourse.of_append
  obtain ⟨rfl, hakin⟩ := hready.course hs hquiet hm
  have hms := hm.unoccupied hs (System.isCallOn_submissions t block)
  -- what a course of the other order leads to is akin to what this one leads to
  have akin : ∀ {gss m'}, s.Course t (System.submissions t block') gss m' →
      Akin t m.world m'.world ∧ m'.Unoccupied t ∧ gss = List.replicate block.length [] := by
    intro gss m' hm'
    obtain ⟨rfl, hakin'⟩ := hready'.course hs hquiet hm'
    refine ⟨(hakin.symm.trans (hready.akin_run_of_perm hs hperm)).trans hakin',
      hm'.unoccupied hs (System.isCallOn_submissions t block'), ?_⟩
    rw [hperm.length_eq]
  constructor
  · obtain ⟨gss, m', hm'⟩ := hready'.exists_course hs hquiet
    obtain ⟨hmm', hms', -⟩ := akin hm'
    obtain ⟨⟨hss, r', hr'⟩, -⟩ := hmm'.course hms hms' hcalls hr
    exact ⟨_, r', hm'.append hr'⟩
  · intro gss r' hcourse'
    obtain ⟨quiets', hss, m', rfl, hm', hr'⟩ := hcourse'.of_append
    obtain ⟨hmm', hms', rfl⟩ := akin hm'
    obtain ⟨hsame, hrr'⟩ := (hmm'.course hms hms' hcalls hr).2 hss r' hr'
    obtain ⟨queue, htimer⟩ := hrr'.timer
    have hquiets : List.Forall₂ System.RunsAlike (List.replicate block.length [])
        (List.replicate block.length []) := List.forall₂_same.2 fun _ _ => ⟨.refl _, rfl⟩
    exact ⟨List.rel_append hquiets hsame, hrr'.task, by rw [htimer], by rw [htimer],
      hcourse.firingsOn_log hs (hall block), hcourse'.firingsOn_log hs (hall block')⟩

/-- A timer with room on its clock, and three new tasks. -/
def threeMade : List Action :=
  [.startTimer { now := .origin, wall := .epoch }, .newTask, .newTask, .newTask]

/-- One task of each kind, two of them due at the same moment. -/
def oneOfEachKind : List (TaskRef × Submission) :=
  [(⟨0⟩, .once 5), (⟨1⟩, .fixedRate 5 2), (⟨2⟩, .fixedDelay 3 4)]

theorem submission_order_makes_no_difference_oneOfEachKind :
    let s := System.after threeMade
    let calls : List Action := [.setClock ⟨0⟩ { now := 8, wall := .epoch }, .cancelTask ⟨1⟩]
    s.Ready ⟨0⟩ oneOfEachKind ∧
    ∃ fss r gss r', s.Course ⟨0⟩ (System.submissions ⟨0⟩ oneOfEachKind ++ calls) fss r ∧
      s.Course ⟨0⟩ (System.submissions ⟨0⟩ oneOfEachKind.reverse ++ calls) gss r' ∧
      List.Forall₂ System.RunsAlike fss gss ∧ ∀ k, r'.world.task k = r.world.task k := by
  intro s calls
  have hready : s.Ready ⟨0⟩ oneOfEachKind := by
    refine ⟨by decide +kernel, by decide +kernel, by decide +kernel, by decide +kernel, ?_⟩
    simp only [oneOfEachKind, List.forall_mem_cons]
    exact ⟨⟨_, _, rfl, rfl, by decide +kernel⟩, ⟨_, _, rfl, rfl, by decide +kernel⟩,
      ⟨_, _, rfl, rfl, by decide +kernel⟩, by simp⟩
  have ht : s.world.HasTimer ⟨0⟩ := by decide +kernel
  have hsettled : s.Settled ⟨0⟩ := by decide +kernel
  have hcalls : ∀ a ∈ calls, a.IsCallOn ⟨0⟩ := by decide +kernel
  have hperm : oneOfEachKind.Perm oneOfEachKind.reverse := (List.reverse_perm _).symm
  obtain ⟨same, exists_course⟩ :=
    submission_order_makes_no_difference ht hsettled hready hperm hcalls
  obtain ⟨fss, r, hr⟩ := exists_course (by decide +kernel)
  obtain ⟨⟨gss, r', hr'⟩, hsame⟩ := same fss r hr
  obtain ⟨hruns, htasks, -⟩ := hsame gss r' hr'
  exact ⟨hready, fss, r, gss, r', hr, hr', hruns, htasks⟩

end TaskTimer
