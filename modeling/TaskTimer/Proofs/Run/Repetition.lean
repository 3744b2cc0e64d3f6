/-
TaskTimer.Proofs.Run.Repetition — the laws of the two ways to repeat.

Where no deadline is beyond the range of instants (`Firing.Exact`), a timetable can be told in
numbers. At a fixed rate the deadlines are evenly spaced from the first one on, whatever delays
the executions (`Follows.due_fixedRate`); so on a clock that never moves back
(`System.Forward`), a thread at rest has run the task once for each of them that has passed. With
a fixed delay each deadline is counted from the execution before, so two executions are never
closer than the period (`Follows.firedAt_fixedDelay`), however the clock moves.
-/
import Mathlib.Order.Interval.Set.Nat
import Mathlib.Tactic.Ring
import TaskTimer.Proofs.Run.Cancellation
import TaskTimer.Proofs.Run.Idling
import TaskTimer.Proofs.Run.Timetable

namespace TaskTimer

/-! ## Timetables in numbers -/

namespace Follows

variable {start : Instant} {period : Period} {p : Duration} {fs : List (Firing TaskRef)}
  {f g : Firing TaskRef} {i : Nat}

/-- The execution at a place of the timetable has the deadline and the number of that place. -/
theorem spec_at (h : Follows start period fs) (hf : fs[i]? = some f) :
    period.dueAfter? start (fs.take i) = some f.due ∧ f.due ≤ f.firedAt ∧ f.period = period ∧
      f.execution = i + 1 := by
  induction h with
  | nil => cases hf
  | @snoc fs last before due due_le mode number ih =>
    rcases Nat.lt_or_ge i fs.length with hi | hi
    · rw [List.getElem?_append_left hi] at hf
      rw [List.take_append_of_le_length (Nat.le_of_lt hi)]
      exact ih hf
    · obtain ⟨hlt, -⟩ := List.getElem?_eq_some_iff.1 hf
      obtain rfl : i = fs.length := by
        rw [List.length_append, List.length_singleton] at hlt
        omega
      rw [List.getElem?_concat_length] at hf
      obtain rfl := Option.some.inj hf
      rw [List.take_left']
      · exact ⟨due, due_le, mode, number⟩
      · rfl

/-- The next deadline is the one that the latest execution leads to. -/
theorem due_succ (h : Follows start period fs) (hf : fs[i]? = some f)
    (hg : fs[i + 1]? = some g) : period.next? f.due f.firedAt = some g.due := by
  obtain ⟨hlt, rfl⟩ := List.getElem?_eq_some_iff.1 hf
  have hdue := (h.spec_at hg).1
  rwa [← List.take_concat_get' fs i hlt, Period.dueAfter?_concat] at hdue

/-- At a fixed rate the deadlines are evenly spaced. -/
theorem due_fixedRate (h : Follows start (.fixedRate p) fs) (hexact : ∀ f ∈ fs, f.Exact)
    (hf : fs[i]? = some f) : f.due.val = start.val + i * p.val := by
  induction i generalizing f with
  | zero =>
    obtain rfl : start = f.due := Option.some.inj (h.spec_at hf).1
    simp
  | succ i ih =>
    obtain ⟨before, hbefore⟩ : ∃ before, fs[i]? = some before := by
      have := (List.getElem?_eq_some_iff.1 hf).1
      exact ⟨_, List.getElem?_eq_getElem (by omega)⟩
    have hadd : before.due.add? p ≠ none := by
      have := hexact before (List.mem_of_getElem? hbefore)
      rwa [Firing.Exact, (h.spec_at hbefore).2.2.1] at this
    have hdue : before.due.after p = f.due := Option.some.inj (h.due_succ hbefore hf)
    rw [← hdue, Instant.val_after hadd, ih hbefore]
    push_cast
    ring

/-- The deadline that comes next at a fixed rate continues the series. -/
theorem next_fixedRate (h : Follows start (.fixedRate p) fs) (hexact : ∀ f ∈ fs, f.Exact)
    {due : Instant} (hdue : (Period.fixedRate p).dueAfter? start fs = some due) :
    due.val = start.val + fs.length * p.val := by
  cases h with
  | nil =>
    obtain rfl := Option.some.inj hdue
    simp
  | @snoc fs last before due' due_le mode number =>
    have hlast : (fs ++ [last])[fs.length]? = some last := List.getElem?_concat_length
    have hadd : last.due.add? p ≠ none := by
      have := hexact last (by simp)
      rwa [Firing.Exact, mode] at this
    have hval := (before.snoc due' due_le mode number).due_fixedRate hexact hlast
    rw [Period.dueAfter?_concat] at hdue
    obtain rfl := Option.some.inj hdue
    rw [Instant.val_after hadd, hval]
    push_cast [List.length_append, List.length_singleton]
    ring

/-- Between the latest execution and the deadline that comes next, as many deadlines have passed as
there are executions. -/
theorem ncard_passed (h : Follows start (.fixedRate p) fs) (hexact : ∀ f ∈ fs, f.Exact)
    {now due : Instant} (hpresent : ∀ f ∈ fs, f.firedAt ≤ now)
    (hdue : (Period.fixedRate p).dueAfter? start fs = some due) (hahead : now < due) :
    Set.ncard {j : ℕ | start.val + j * p.val ≤ now.val} = fs.length := by
  have hnext := h.next_fixedRate hexact hdue
  have hpassed : {j : ℕ | start.val + j * p.val ≤ now.val} = Set.Iio fs.length := by
    ext j
    rw [Set.mem_ofPred_eq, Set.mem_Iio]
    constructor
    · intro hj
      by_contra hmore
      have hspan := Int.mul_le_mul_of_nonneg_right
        (Int.ofNat_le.2 (Nat.le_of_not_lt hmore)) p.lo_le
      rw [Nanos.lt_iff] at hahead
      omega
    · intro hj
      have hf := List.getElem?_eq_getElem hj
      rw [← h.due_fixedRate hexact hf]
      exact Int.le_trans (h.spec_at hf).2.1 (hpresent _ (List.getElem_mem hj))
  rw [hpassed, Set.ncard_Iio_nat]

/-- With a fixed delay each deadline is counted from the execution before. -/
theorem due_fixedDelay (h : Follows start (.fixedDelay p) fs) (hexact : ∀ f ∈ fs, f.Exact)
    (hf : fs[i]? = some f) (hg : fs[i + 1]? = some g) : g.due.val = f.firedAt.val + p.val := by
  have hadd : f.firedAt.add? p ≠ none := by
    have := hexact f (List.mem_of_getElem? hf)
    rwa [Firing.Exact, (h.spec_at hf).2.2.1] at this
  have hdue : f.firedAt.after p = g.due := Option.some.inj (h.due_succ hf hg)
  rw [← hdue, Instant.val_after hadd]

/-- With a fixed delay two executions are never closer than the period. -/
theorem firedAt_fixedDelay (h : Follows start (.fixedDelay p) fs) (hexact : ∀ f ∈ fs, f.Exact) :
    fs.Pairwise fun f g => f.firedAt.val + p.val ≤ g.firedAt.val := by
  have hp := p.lo_le
  induction h with
  | nil => exact .nil
  | @snoc fs f before due due_le mode number ih =>
    have apart := ih fun g hg => hexact g (List.mem_append_left _ hg)
    refine List.pairwise_append.2 ⟨apart, List.pairwise_singleton _ _, fun g hg f' hf' => ?_⟩
    obtain rfl := List.mem_singleton.1 hf'
    cases before with
    | nil => cases hg
    | @snoc early last before' due' due_le' mode' number' =>
      have hdue : f'.due.val = last.firedAt.val + p.val :=
        (before'.snoc due' due_le' mode' number' |>.snoc due due_le mode number).due_fixedDelay
          hexact (i := early.length) (by simp) (by simp)
      have hlast : last.firedAt.val + p.val ≤ f'.firedAt.val := hdue ▸ due_le
      -- what is before the latest one is before `f'` by that much already
      rcases List.mem_append.1 hg with hg | hg
      · have := (List.pairwise_append.1 apart).2.2 g hg last (List.mem_singleton_self last)
        omega
      · obtain rfl := List.mem_singleton.1 hg
        exact hlast

end Follows

/-- Of readings that lie apart by at least `p`, few fit between two bounds. -/
theorem length_mul_le_of_apart {p : Int} {readings : List Int}
    (hapart : readings.Pairwise fun a b => a + p ≤ b) {x y : Int} (hxy : x ≤ y + p)
    (hbounds : ∀ a ∈ readings, x ≤ a ∧ a ≤ y) : readings.length * p ≤ y - x + p := by
  induction readings generalizing x with
  | nil =>
    simp only [List.length_nil]
    omega
  | cons a readings ih =>
    obtain ⟨hahead, hrest⟩ := List.pairwise_cons.1 hapart
    obtain ⟨hxa, hay⟩ := hbounds a List.mem_cons_self
    have fewer := ih hrest (x := a + p) (by omega) fun b hb =>
      ⟨hahead b hb, (hbounds b (List.mem_cons_of_mem _ hb)).2⟩
    rw [List.length_cons, Nat.cast_succ, Int.add_mul]
    omega

/-! ## Clocks that never move back -/

/-- What has fired on `t` fired by the present. -/
def FiredByNow (t : TimerRef) (w : World) (log : List Event) : Prop :=
  ∀ f, .firing t f ∈ log → w.HasTimer t ∧ f.firedAt ≤ (w.timer t).clock.now

theorem FiredByNow.change {t : TimerRef} {a : Action} {w w' : World} {log events : List Event}
    (h : FiredByNow t w log) (c : Change a w events w') (ha : ∀ clock, a ≠ .setClock t clock) :
    FiredByNow t w' (log ++ events) := by
  have both : ∀ f, .firing t f ∈ log ++ events →
      w.HasTimer t ∧ f.firedAt ≤ (w.timer t).clock.now := by
    intro f hf
    rcases List.mem_append.1 hf with hold | hnew
    · exact h f hold
    · obtain ⟨head, -, -, hfires, rfl⟩ := c.firing_cases hnew
      exact ⟨hfires.hasTimer, Std.le_refl _⟩
  intro f hf
  obtain ⟨ht, hnow⟩ := both f hf
  rw [c.clock_eq ht ha]
  exact ⟨c.hasTimer ht, hnow⟩

namespace System

/-- The action does not move the clock of `t` back. -/
def Forward (s : System) (t : TimerRef) : Action → Prop
  | .setClock u clock => u = t → s.world.HasTimer t → (s.world.timer t).clock.now ≤ clock.now
  | _ => True

instance (t : TimerRef) (s : System) : (a : Action) → Decidable (s.Forward t a)
  | .setClock _ _ => inferInstanceAs (Decidable (_ → _ → _))
  | .insert _ _ _ _ | .newTask | .startTimer _ | .submission _ _ _ | .submitOnce _ _
  | .submitRepeating _ _ _ _ | .cancelTask _ | .cancelAll _ | .close _ | .purge _ | .work _ _
  | .finish _ _ | .record _ _ => inferInstanceAs (Decidable True)

theorem firedByNow_next {s : System} {t : TimerRef} {a : Action}
    (h : FiredByNow t s.world s.log) (hforward : s.Forward t a) :
    FiredByNow t (s.next a).world (s.next a).log := by
  by_cases hclock : ∃ clock, a = .setClock t clock
  · obtain ⟨clock, rfl⟩ := hclock
    by_cases hadmits : s.Admits (.setClock t clock)
    · rw [next, if_pos hadmits]
      intro f hf
      refine ⟨hadmits, ?_⟩
      show f.firedAt ≤ ((s.world.setTimer t _).timer t).clock.now
      rw [World.timer_setTimer_same]
      exact Std.le_trans (h f hf).2 (hforward rfl hadmits)
    · rwa [next, if_neg hadmits]
  · exact keep_next (P := FiredByNow t)
      (fun h c => h.change c fun clock ha => hclock ⟨clock, ha⟩) h

/-- On a clock that never moves back, what has fired fired by the present. -/
theorem firedByNow_after {acts : List Action} {t : TimerRef}
    (hforward : Along (·.Forward t) {} acts) :
    FiredByNow t (after acts).world (after acts).log := by
  induction acts using List.reverseRecOn with
  | nil =>
    intro f hf
    cases hf
  | append_singleton acts a ih =>
    obtain ⟨hbefore, hlast, -⟩ := along_append.1 hforward
    rw [after_concat]
    exact firedByNow_next (ih hbefore) hlast

/-! ## Tasks that repeat, where the thread rests -/

variable {pre post : List Action} {a : Action} {t : TimerRef} {k : TaskRef} {start : Instant}
  {period : Period}

theorem Accepts.acceptedBy (h : (after pre).Accepts a t k start period) (post : List Action) :
    AcceptedBy t (after (pre ++ a :: post)).log k := by
  obtain ⟨w, -, -, hlog⟩ := h.next_eq
  obtain ⟨events, hrun⟩ := exists_log_run ((after pre).next a) post
  refine ⟨period, World.isHead ((w.timer t).queue.push start k) k, ?_⟩
  rw [after_append]
  show _ ∈ (((after pre).next a).run post).log
  simp [hrun, hlog]

/-- Where the thread rests, a task that repeats is next due after the present, unless it was
called off. -/
theorem Rests.next_ahead (haccepts : (after pre).Accepts a t k start period)
    (hrepeats : period ≠ .once) (hrests : (after (pre ++ a :: post)).Rests t)
    (hlive : ((after (pre ++ a :: post)).world.task k).state ≠ .cancelled)
    (hall : .cancelAll t ∉ pre ++ a :: post) :
    ∃ due, period.dueAfter? start (executionsOf k (after (pre ++ a :: post)).log) = some due ∧
      ((after (pre ++ a :: post)).world.timer t).clock.now < due := by
  have htable := timetabled_run haccepts post
  have hkeeps : ((after (pre ++ a :: post)).world.timer t).Keeps :=
    ⟨Bool.eq_false_iff.2 fun hmark => hall (cancelAll_mem hmark),
      by simp [hrests.shutdown_eq_none]⟩
  have hscheduled : ((after (pre ++ a :: post)).world.task k).state = .scheduled := by
    have hused := htable.used
    have hundone := htable.repeats hrepeats
    cases hs : ((after (pre ++ a :: post)).world.task k).state with
    | scheduled => rfl
    | created | executed | cancelled => exact absurd hs ‹_›
  have hqueued := (retained_after t _).queued hkeeps k (haccepts.acceptedBy post) hscheduled
  obtain ⟨e, he, rfl⟩ := List.mem_map.1 hqueued
  refine ⟨e.due, ?_, hrests.now_lt (coupled_after _) e he⟩
  rw [← htable.next (htable.repeats hrepeats)]
  exact (coupled_after _).next t e he

end System

/-- **The law of the fixed rate.** Let `t` accept the task `k` to repeat at a fixed rate, first
at `start`, and let the deadlines after its executions be within the range of instants. Then its
executions are numbered from 1, and each has the deadline that lies as many periods after `start`
as executions came before it: neither their lateness nor other tasks nor the clock has a say in
it. If the clock of `t` never moves back, a thread at rest has executed the task, unless it or all
tasks were called off, exactly as often as such deadlines have passed, whichever way the clock
took. -/
theorem fixed_rate_law {pre post : List Action} {a : Action} {t : TimerRef} {k : TaskRef}
    {start : Instant} {p : Duration}
    (haccepts : (System.after pre).Accepts a t k start (.fixedRate p))
    (hexact : ∀ f ∈ executionsOf k (System.after (pre ++ a :: post)).log, f.Exact) :
    let s := System.after (pre ++ a :: post)
    (s.world.task k).executions = (executionsOf k s.log).length ∧
    (∀ (i : ℕ) f, (executionsOf k s.log)[i]? = some f →
      f.execution = i + 1 ∧ f.due.val = start.val + i * p.val) ∧
    (System.Along (·.Forward t) {} (pre ++ a :: post) → s.Rests t →
      (s.world.task k).state ≠ .cancelled → .cancelAll t ∉ pre ++ a :: post →
      (s.world.task k).executions =
        Set.ncard {j : ℕ | start.val + j * p.val ≤ (s.world.timer t).clock.now.val}) := by
  have htable := System.timetabled_run haccepts post
  have hcount := ((recorded_after (pre ++ a :: post)).task k).executions
  rw [← length_executionsOf] at hcount
  refine ⟨hcount, fun i f hf => ?_, fun hforward hrests hlive hall => ?_⟩
  · exact ⟨(htable.follows.spec_at hf).2.2.2, htable.follows.due_fixedRate hexact hf⟩
  · obtain ⟨due, hdue, hahead⟩ := hrests.next_ahead haccepts (by simp) hlive hall
    have hpresent : ∀ f ∈ executionsOf k (System.after (pre ++ a :: post)).log,
        f.firedAt ≤ ((System.after (pre ++ a :: post)).world.timer t).clock.now := by
      intro f hf
      obtain ⟨hk, u, hfired⟩ := mem_executionsOf.1 hf
      obtain rfl := htable.fired u f hfired hk
      exact (System.firedByNow_after hforward f hfired).2
    rw [htable.follows.ncard_passed hexact hpresent hdue hahead, hcount]

/-- A timer, and a task that it has not accepted yet. -/
def beforeAccepting : List Action :=
  [.startTimer { now := .origin, wall := .epoch }, .newTask]

/-- The thread gets to its turns when three deadlines have passed. -/
def afterThreeDeadlines : List Action :=
  [.setClock ⟨0⟩ { now := 6, wall := .epoch }, .work ⟨0⟩ [], .finish ⟨0⟩ .returned, .work ⟨0⟩ [],
    .finish ⟨0⟩ .returned, .work ⟨0⟩ [], .finish ⟨0⟩ .returned]

theorem fixed_rate_law_afterThreeDeadlines :
    let start : Instant := 1
    let p : Duration := 2
    let s := System.after
      (beforeAccepting ++ .submission ⟨0⟩ ⟨0⟩ (.fixedRate 1 2) :: afterThreeDeadlines)
    (executionsOf ⟨0⟩ s.log).map (·.due.val) = [1, 3, 5] ∧
      (s.world.timer ⟨0⟩).clock.now.val = 6 ∧
      (s.world.task ⟨0⟩).executions =
        Set.ncard {j : ℕ | start.val + j * p.val ≤ (s.world.timer ⟨0⟩).clock.now.val} := by
  intro start p s
  have haccepts : (System.after beforeAccepting).Accepts
      (.submission ⟨0⟩ ⟨0⟩ (.fixedRate 1 2)) ⟨0⟩ ⟨0⟩ start (.fixedRate p) :=
    ⟨by decide +kernel, by decide +kernel, by decide +kernel, by decide +kernel⟩
  have hexact : ∀ f ∈ executionsOf ⟨0⟩ s.log, f.Exact := by decide +kernel
  have hrests : s.Rests ⟨0⟩ :=
    ⟨by decide +kernel, by decide +kernel, some 7, by decide +kernel⟩
  obtain ⟨-, -, hcount⟩ := fixed_rate_law haccepts hexact
  refine ⟨by decide +kernel, by decide +kernel, hcount ?_ hrests ?_ ?_⟩ <;> decide +kernel

/-- **The law of the fixed delay.** Let `t` accept the task `k` to repeat with a fixed delay, and
let the deadlines after its executions be within the range of instants. Then its executions are
numbered from 1; each but the first has the deadline that lies one period after the one before it
fired, and so fires no earlier than that. However the clock moves, any two of them are at least a
period apart, none share their moment, and no more of them lie between two moments than fit a
period apart. -/
theorem fixed_delay_law {pre post : List Action} {a : Action} {t : TimerRef} {k : TaskRef}
    {start : Instant} {p : Duration}
    (haccepts : (System.after pre).Accepts a t k start (.fixedDelay p))
    (hexact : ∀ f ∈ executionsOf k (System.after (pre ++ a :: post)).log, f.Exact) :
    let fs := executionsOf k (System.after (pre ++ a :: post)).log
    (∀ i f, fs[i]? = some f → f.execution = i + 1) ∧
    (∀ i f g, fs[i]? = some f → fs[i + 1]? = some g →
      g.due.val = f.firedAt.val + p.val ∧ f.firedAt.val + p.val ≤ g.firedAt.val) ∧
    fs.Pairwise (fun f g => f.firedAt.val + p.val ≤ g.firedAt.val) ∧
    (fs.map (·.firedAt)).Nodup ∧
    ∀ x y : Instant, x ≤ y →
      (fs.countP fun f => x ≤ f.firedAt ∧ f.firedAt ≤ y) * p.val ≤ y.val - x.val + p.val := by
  have htable := (System.timetabled_run haccepts post).follows
  have hpositive : 0 < p.val := haccepts.positive p rfl
  have hapart := htable.firedAt_fixedDelay hexact
  refine ⟨fun i f hf => (htable.spec_at hf).2.2.2, fun i f g hf hg => ?_, hapart, ?_, ?_⟩
  · have hdue := htable.due_fixedDelay hexact hf hg
    exact ⟨hdue, hdue ▸ (htable.spec_at hg).2.1⟩
  · refine List.pairwise_map.2 (hapart.imp fun hle heq => ?_)
    rw [heq] at hle
    omega
  · intro x y hxy
    rw [List.countP_eq_length_filter, ← List.length_map (·.firedAt.val)]
    refine length_mul_le_of_apart (List.pairwise_map.2 (hapart.filter _)) ?_ fun r hr => ?_
    · rw [Nanos.le_iff] at hxy
      omega
    · obtain ⟨f, hf, rfl⟩ := List.mem_map.1 hr
      simpa [Nanos.le_iff] using (List.mem_filter.1 hf).2

/-- The thread gets to its turn late, the clock moves back and forth, and the thread takes another
turn whenever it has moved. -/
def backAndForth : List Action :=
  [.setClock ⟨0⟩ { now := 6, wall := .epoch }, .work ⟨0⟩ [], .finish ⟨0⟩ .returned, .work ⟨0⟩ [],
    .setClock ⟨0⟩ { now := 2, wall := .epoch }, .work ⟨0⟩ [],
    .setClock ⟨0⟩ { now := 10, wall := .epoch }, .work ⟨0⟩ [], .finish ⟨0⟩ .returned, .work ⟨0⟩ []]

theorem fixed_delay_law_backAndForth :
    let a : Action := .submission ⟨0⟩ ⟨0⟩ (.fixedDelay 1 3)
    let fs := executionsOf ⟨0⟩ (System.after (beforeAccepting ++ a :: backAndForth)).log
    fs.map (fun f => (f.due.val, f.firedAt.val)) = [(1, 6), (9, 10)] ∧
      fs.Pairwise fun f g => f.firedAt.val + 3 ≤ g.firedAt.val := by
  intro a fs
  have haccepts : (System.after beforeAccepting).Accepts a ⟨0⟩ ⟨0⟩ 1 (.fixedDelay 3) :=
    ⟨by decide +kernel, by decide +kernel, by decide +kernel, by decide +kernel⟩
  have hexact : ∀ f ∈ fs, f.Exact := by decide +kernel
  exact ⟨by decide +kernel, (fixed_delay_law haccepts hexact).2.2.1⟩

end TaskTimer
