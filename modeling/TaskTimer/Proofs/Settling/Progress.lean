/-
TaskTimer.Proofs.Settling.Progress — a thread whose bodies do nothing comes to rest.

Left to itself, a thread takes one turn after another until it has settled (`System.settle`). A
turn that finds something to do has one of four effects (`World.Turned`), and each of them leaves
less to do: the thread ends, an entry is taken out, or a task moves on to a later deadline
(`Turned.backlog_lt`). How much later may be as little as a nanosecond, but it is later, as long as
the clock leaves room for a deadline thirty years ahead: otherwise a deadline near the end of the
range could stand still. So as many turns as the backlog counts are enough (`Unoccupied.settles`).
-/
import TaskTimer.Proofs.Run.Idling
import TaskTimer.Proofs.Run.Record
import TaskTimer.Proofs.Run.Thread
import TaskTimer.Proofs.Time.Saturation

namespace TaskTimer

/-! ## Room for later deadlines -/

/-- There is an instant thirty years ahead. -/
def Clock.HasRoom (c : Clock) : Prop := c.now.add? Duration.thirtyYears ≠ none

instance (c : Clock) : Decidable c.HasRoom := inferInstanceAs (Decidable (_ ≠ none))

/-- A task that repeats moves on to a later deadline. -/
theorem Period.lt_of_next? {p : Period} {due now next : Instant}
    (h : p.next? due now = some next) (hp : p.Positive) (hdue : due ≤ now)
    (hroom : now.add? Duration.thirtyYears ≠ none) : due < next := by
  cases p with
  | once => cases h
  | fixedRate d =>
    obtain rfl := Option.some.inj h
    exact Instant.lt_after (hp d rfl) (Instant.add?_ne_none_of_le hdue hroom)
  | fixedDelay d =>
    obtain rfl := Option.some.inj h
    exact Std.lt_of_le_of_lt hdue (Instant.lt_after (hp d rfl) hroom)

namespace World

/-! ## A turn that finds something to do -/

/-- A turn, and the end of the thread if the turn stops it. -/
def workOver (w : World) (t : TimerRef) (interim : List TaskRef) : World :=
  ((w.work t interim).world.record t false).world

theorem workOver_of_stop {w : World} {t : TimerRef} (interim : List TaskRef)
    (hempty : (w.timer t).queue.peek = none) (hclosed : (w.timer t).accepting = false) :
    w.workOver t interim = w.ended t (restReason (w.timer t)) .returned := by
  have hleaving : ((w.setStage t (.leaving (restReason (w.timer t)))).timer t).stage =
      .leaving (restReason (w.timer t)) := by simp [setStage]
  rw [workOver, work_of_closed interim hempty hclosed, record_of_leaving hleaving]
  simp [ended, setStage]

theorem workOver_of_going {w : World} {t : TimerRef} {interim : List TaskRef} (ht : w.HasTimer t)
    (hgoing : (w.timer t).stage = .going)
    (hstop : ∀ reason, (w.work t interim).result ≠ .stop reason) :
    w.workOver t interim = (w.work t interim).world := by
  have hstage := (worked_work ht interim).stage_eq hstop
  rw [workOver, record_of_not_leaving (by rw [hstage, hgoing]; rfl)]

/-- What a turn leads to that finds something to do: the executions that begin, and the world
afterwards, where a thread that is to stop has done so. -/
inductive Turned (t : TimerRef) (w : World) : List (Firing TaskRef) → World → Prop
  | stop (hempty : (w.timer t).queue.peek = none) (hclosed : (w.timer t).accepting = false) :
    Turned t w [] (w.ended t (restReason (w.timer t)) .returned)
  | discard (head : Entry TaskRef) (hpeek : (w.timer t).queue.peek = some head)
      (hcancelled : (w.task head.item).state = .cancelled) : Turned t w [] (w.dropHead t)
  | retire (head : Entry TaskRef) (hfires : w.Fires t head)
      (honce : (w.task head.item).period = .once) :
    Turned t w [w.firing t head] (w.retire t head)
  | postpone (head : Entry TaskRef) (next : Instant) (queue : Queue TaskRef)
      (hfires : w.Fires t head)
      (hnext : (w.task head.item).period.next? head.due (w.timer t).clock.now = some next)
      (hqueue : (w.timer t).queue.postponeMin next = .ok queue) :
    Turned t w [w.firing t head] (w.postpone t head next queue)

variable {t : TimerRef} {w w' : World} {fs : List (Firing TaskRef)}

/-- Such a turn acts on the world that it finds, or on the one in which tasks have been called off
since its first look. -/
theorem turned_work (ht : w.HasTimer t) (hgoing : (w.timer t).stage = .going)
    (interim : List TaskRef) (hbusy : ∀ due, (w.work t interim).result ≠ .wait due) :
    ∃ w₂, (w₂ = w ∨ w₂ = (w.cancelEach interim).world) ∧
      Turned t w₂ (firingsOn t (w.work t interim).events) (w.workOver t interim) := by
  by_cases hrest : (w.timer t).queue.peek = none ∧ (w.timer t).accepting = false
  · obtain ⟨hempty, hclosed⟩ := hrest
    rw [workOver_of_stop interim hempty hclosed, work_of_closed interim hempty hclosed]
    exact ⟨w, .inl rfl, .stop hempty hclosed⟩
  have hstop : ∀ reason, (w.work t interim).result ≠ .stop reason := fun reason hstop =>
    hrest (work_stop_iff.1 hstop).2
  rw [workOver_of_going ht hgoing hstop]
  have fired : ∀ f, firingsOn t ((w.cancelEach interim).events ++ [.firing t f]) = [f] :=
    fun f => by
      rw [firingsOn_append, firingsOn_cancelEach]
      simp [firingsOn, Event.firingOn?]
  have hturn := comesTo_work ht interim
  generalize w.work t interim = o at hturn hbusy hstop ⊢
  cases hturn with
  | idle => exact absurd rfl (hbusy none)
  | early head => exact absurd rfl (hbusy (some head.due))
  | rest => exact absurd rfl (hstop _)
  | discard head hpeek hcancelled => exact ⟨w, .inl rfl, .discard head hpeek hcancelled⟩
  | discardDue head hpeek hlive hcancelled =>
    rw [firingsOn_cancelEach]
    exact ⟨_, .inr rfl, .discard head (by rwa [timer_cancelEach]) hcancelled⟩
  | retire head hpeek hlive hfires honce =>
    rw [fired]
    exact ⟨_, .inr rfl, .retire head hfires honce⟩
  | postpone head next queue hpeek hlive hfires hnext hqueue =>
    rw [fired]
    exact ⟨_, .inr rfl, .postpone head next queue hfires hnext hqueue⟩

/-- What a turn fires is settled by the world that it finds. -/
theorem Turned.unique {x : World} {gs : List (Firing TaskRef)} (h : Turned t w fs w')
    (h' : Turned t w gs x) : fs = gs := by
  have same : ∀ {head head' : Entry TaskRef}, (w.timer t).queue.peek = some head →
      (w.timer t).queue.peek = some head' → head = head' :=
    fun hpeek hpeek' => Option.some.inj (hpeek.symm.trans hpeek')
  cases h with
  | stop hempty =>
    cases h' with
    | stop => rfl
    | discard head hpeek => exact absurd hempty (by simp [hpeek])
    | retire head hfires | postpone head _ _ hfires =>
      exact absurd hempty (by simp [hfires.peek])
  | discard head hpeek hcancelled =>
    cases h' with
    | stop hempty => rfl
    | discard => rfl
    | retire head' hfires | postpone head' _ _ hfires =>
      obtain rfl := same hpeek hfires.peek
      exact absurd hcancelled hfires.live
  | retire head hfires | postpone head _ _ hfires =>
    cases h' with
    | stop hempty => exact absurd hempty (by simp [hfires.peek])
    | discard head' hpeek hcancelled =>
      obtain rfl := same hfires.peek hpeek
      exact absurd hcancelled hfires.live
    | retire head' hfires' | postpone head' _ _ hfires' =>
      obtain rfl := same hfires.peek hfires'.peek
      rfl

/-! ## The backlog of a thread -/

end World

/-- How many turns an entry can take at most: one to leave, and one for each nanosecond that it
is behind. -/
def Entry.turns (now : Instant) (e : Entry TaskRef) : Nat := 1 + (now.val - e.due.val + 1).toNat

/-- How many turns some entries can take at most. -/
def Entry.allTurns (now : Instant) : List (Entry TaskRef) → Nat
  | [] => 0
  | e :: entries => e.turns now + allTurns now entries

theorem Entry.allTurns_perm {now : Instant} {entries entries' : List (Entry TaskRef)}
    (h : entries.Perm entries') : allTurns now entries = allTurns now entries' := by
  induction h with
  | nil => rfl
  | cons e _ ih => simp only [allTurns, ih]
  | swap e e' entries => simp only [allTurns, Nat.add_left_comm]
  | trans _ _ ih ih' => exact ih.trans ih'

namespace World

/-- How many turns of its thread a timer can take at most before it settles. -/
def backlog (w : World) (t : TimerRef) : Nat :=
  (if (w.timer t).stage = .going then 1 else 0) +
    Entry.allTurns (w.timer t).clock.now (w.queued t)

variable {t : TimerRef} {w w' : World} {fs : List (Firing TaskRef)}

theorem backlog_setTimer {x : Timer} (hstage : x.stage = (w.timer t).stage)
    (hclock : x.clock = (w.timer t).clock)
    (hless : Entry.allTurns (w.timer t).clock.now x.queue.toList <
      Entry.allTurns (w.timer t).clock.now (w.queued t)) :
    (w.setTimer t x).backlog t < w.backlog t := by
  simp only [backlog, queued, timer_setTimer_same, hstage, hclock]
  exact Nat.add_lt_add_left hless _

theorem backlog_dropHead {head : Entry TaskRef} (hpeek : (w.timer t).queue.peek = some head) :
    (w.dropHead t).backlog t < w.backlog t := by
  refine backlog_setTimer rfl rfl ?_
  rw [queued, Entry.allTurns_perm (Queue.toList_dropMin hpeek)]
  simp only [Entry.allTurns, Entry.turns]
  omega

theorem backlog_postpone {head : Entry TaskRef} {next : Instant} {queue : Queue TaskRef}
    (hpeek : (w.timer t).queue.peek = some head) (hdue : head.due ≤ (w.timer t).clock.now)
    (hlater : head.due < next) (hqueue : (w.timer t).queue.postponeMin next = .ok queue) :
    (w.setTimer t { w.timer t with queue := queue }).backlog t < w.backlog t := by
  obtain ⟨rest, hrest, hcontent⟩ := Queue.toList_postponeMin hpeek hqueue
  refine backlog_setTimer rfl rfl ?_
  rw [queued, hrest]
  refine Std.lt_of_le_of_lt (Nat.le_of_eq (Entry.allTurns_perm hcontent)) ?_
  simp only [Entry.allTurns, Entry.turns]
  rw [Nanos.le_iff] at hdue
  rw [Nanos.lt_iff] at hlater
  omega

/-- A turn that finds something to do leaves less to do. -/
theorem Turned.backlog_lt (h : Turned t w fs w') (hgoing : (w.timer t).stage = .going)
    (hperiods : ∀ k, (w.task k).period.Positive) (hroom : (w.timer t).clock.HasRoom) :
    w'.backlog t < w.backlog t := by
  cases h with
  | stop hempty hclosed =>
    simp [backlog, ended, queued, hgoing, Queue.peek_eq_none_iff.1 hempty, Entry.allTurns]
  | discard head hpeek hcancelled => exact backlog_dropHead hpeek
  | retire head hfires honce => exact backlog_dropHead hfires.peek
  | postpone head next queue hfires hnext hqueue =>
    refine backlog_postpone hfires.peek hfires.due_le ?_ hqueue
    exact Period.lt_of_next? hnext (hperiods _) hfires.due_le hroom

end World

/-! ## Turn after turn -/

instance (turn : Turn) : Decidable (∃ due, turn = .wait due) :=
  match turn with
  | .wait due => .isTrue ⟨due, rfl⟩
  | .stop _ | .discard _ | .discardDue _ | .fire _ | .fault _ =>
    .isFalse fun ⟨_, h⟩ => Turn.noConfusion h

namespace System

instance (s : System) (t : TimerRef) : Decidable (s.Rests t) :=
  inferInstanceAs (Decidable (_ ∧ _ ∧ _))

instance (s : System) (t : TimerRef) : Decidable (s.Settled t) :=
  inferInstanceAs (Decidable (_ ∨ _))

/-- A turn of the thread, the end of the body that it began, which does nothing, and the end of the
thread, if the turn stopped it. -/
def turnOver (s : System) (t : TimerRef) : System :=
  s.run [.work t [], .finish t .returned, .record t false]

/-- At most `bound` turns of the thread, until it has settled. -/
def settleWithin (t : TimerRef) : (bound : Nat) → System → System
  | 0, s => s
  | bound + 1, s => if s.Settled t then s else settleWithin t bound (s.turnOver t)

/-- Turns of the thread until it has settled. -/
def settle (s : System) (t : TimerRef) : System := settleWithin t (s.world.backlog t) s

/-- From `s` on, the thread settles in `s'` and runs `fs` on the way. -/
inductive Settles (t : TimerRef) : System → List (Firing TaskRef) → System → Prop
  | rest {s : System} (settled : s.Settled t) : Settles t s [] s
  | turn {s s' : System} {fs gs : List (Firing TaskRef)} (busy : ¬ s.Settled t)
      (turned : World.Turned t s.world fs (s.turnOver t).world)
      (later : Settles t (s.turnOver t) gs s') : Settles t s (fs ++ gs) s'

/-! ## A thread that is not busy -/

/-- `t` was started, and its thread is between two turns, or it has recorded why it ended. -/
structure Unoccupied (t : TimerRef) (s : System) : Prop where
  reachable : ∃ acts, s = after acts
  hasTimer : s.world.HasTimer t
  free : s.running t = none
  present : (s.world.timer t).stage = .going ∨ (s.world.timer t).shutdown ≠ none

/-- `t` is the only timer that was ever started, its thread is not busy, and its clock has room. -/
structure Attended (t : TimerRef) (s : System) : Prop where
  reachable : ∃ acts, s = after acts
  hasTimer : s.world.HasTimer t
  only : ∀ u, s.world.HasTimer u → u = t
  free : s.running t = none
  present : (s.world.timer t).stage = .going ∨ (s.world.timer t).shutdown ≠ none
  room : (s.world.timer t).clock.HasRoom

theorem Attended.unoccupied {t : TimerRef} {s : System} (h : Attended t s) : Unoccupied t s :=
  ⟨h.reachable, h.hasTimer, h.free, h.present⟩

variable {s s' : System} {t : TimerRef} {fs : List (Firing TaskRef)}

/-- Periods are positive in every run. -/
theorem positive_after (acts : List Action) (k : TaskRef) :
    ((after acts).world.task k).period.Positive := by
  refine keep_records (P := fun _ x _ => x.period.Positive) (fun _ => Period.positive_once)
    (fun _ h c => ?_) acts k
  cases c with
  | accept t due period newHead hnew hperiod => exact hperiod
  | other | cancel | retire | postpone => exact h

/-- Only `startTimer` starts a timer. -/
theorem timerCount_next {a : Action} (ha : ∀ clock, a ≠ .startTimer clock) :
    (s.next a).world.timerCount = s.world.timerCount := by
  refine keep_next (P := fun w _ => w.timerCount = s.world.timerCount) (s := s)
    (fun hcount c => ?_) rfl
  cases c with
  | startTimer clock hstart => exact absurd hstart (ha clock)
  | _ => exact hcount

theorem clock_next {a : Action} (ht : s.world.HasTimer t) (ha : ∀ clock, a ≠ .setClock t clock) :
    ((s.next a).world.timer t).clock = (s.world.timer t).clock := by
  have both := keep_next (s := s) (a := a)
    (P := fun w _ => w.HasTimer t ∧ (w.timer t).clock = (s.world.timer t).clock)
    (fun h c => ⟨c.hasTimer h.1, (c.clock_eq h.1 ha).trans h.2⟩) ⟨ht, rfl⟩
  exact both.2

/-- The end of a body that does nothing changes neither the world nor the log. -/
theorem next_finish_returned (s : System) (t : TimerRef) :
    (s.next (.finish t .returned)).world = s.world ∧
      (s.next (.finish t .returned)).log = s.log := by
  by_cases hadmits : s.Admits (.finish t .returned)
  · obtain ⟨f, hf⟩ := Option.ne_none_iff_exists'.1 hadmits.2.2
    rw [next, if_pos hadmits]
    simp only [take, hf]
    exact ⟨rfl, List.append_nil _⟩
  · rw [next, if_neg hadmits]
    exact ⟨rfl, rfl⟩

/-- A thread that drops nothing that panics can always record why it ends. -/
theorem world_next_record (ht : s.world.HasTimer t) :
    (s.next (.record t false)).world = (s.world.record t false).world := by
  by_cases hleaving : (s.world.timer t).stage.reason? = none
  · have hnot : ¬ s.Admits (.record t false) := fun hadmits => hadmits.2.1 hleaving
    rw [next, if_neg hnot, World.record_of_not_leaving hleaving]
  · have hadmits : s.Admits (.record t false) := ⟨ht, hleaving, by simp⟩
    rw [next, if_pos hadmits]
    rfl

theorem timerCount_turnOver (s : System) (t : TimerRef) :
    (s.turnOver t).world.timerCount = s.world.timerCount :=
  (timerCount_next (by simp)).trans ((timerCount_next (by simp)).trans (timerCount_next (by simp)))

theorem clock_turnOver (ht : s.world.HasTimer t) :
    ((s.turnOver t).world.timer t).clock = (s.world.timer t).clock := by
  have ht₁ := hasTimer_next ht (.work t [])
  have ht₂ := hasTimer_next ht₁ (.finish t .returned)
  have last := clock_next (t := t) (a := .record t false) ht₂ (by simp)
  exact last.trans ((clock_next ht₁ (by simp)).trans (clock_next ht (by simp)))

/-- A thread that is not busy takes its turn. -/
theorem world_turnOver (ht : s.world.HasTimer t) (hgoing : (s.world.timer t).stage = .going)
    (hfree : s.running t = none) :
    (s.turnOver t).world = s.world.workOver t [] ∧
      firingsOn t (s.turnOver t).log =
        firingsOn t s.log ++ firingsOn t (s.world.work t []).events := by
  have hadmits : s.Admits (.work t []) := ⟨ht, hgoing, hfree, by simp⟩
  obtain ⟨hworld, hlog⟩ := next_work hadmits
  obtain ⟨hworld', hlog'⟩ := next_finish_returned (s.next (.work t [])) t
  have ht' := hasTimer_run ht [.work t [], .finish t .returned]
  constructor
  · rw [World.workOver, ← hworld, ← hworld']
    exact world_next_record ht'
  · rw [← firingsOn_append, ← hlog, ← hlog']
    exact firingsOn_next_of_ne (by simp)

theorem Unoccupied.turnOver (h : Unoccupied t s) : Unoccupied t (s.turnOver t) := by
  obtain ⟨acts, rfl⟩ := h.reachable
  have ht := hasTimer_run h.hasTimer [.work t [], .finish t .returned, .record t false]
  refine ⟨⟨_, (after_append acts _).symm⟩, ht, ?_, ?_⟩
  · have hfinish := running_next_finish (acts ++ [.work t []]) t .returned
    rw [after_concat] at hfinish
    exact (congrFun (running_next_record _ t false) t).trans hfinish
  · rcases h.present with hgoing | hended
    · rw [(world_turnOver h.hasTimer hgoing h.free).1]
      by_cases hstop : ∃ reason, ((after acts).world.work t []).result = .stop reason
      · obtain ⟨reason, hstop⟩ := hstop
        obtain ⟨-, hempty, hclosed⟩ := World.work_stop_iff.1 hstop
        rw [World.workOver_of_stop [] hempty hclosed]
        exact .inr (by simp [World.ended])
      · have hgoes : ∀ reason, ((after acts).world.work t []).result ≠ .stop reason :=
          fun reason h => hstop ⟨reason, h⟩
        rw [World.workOver_of_going h.hasTimer hgoing hgoes]
        exact .inl (((World.worked_work h.hasTimer []).stage_eq hgoes).trans hgoing)
    · obtain ⟨reason, hreason⟩ := Option.ne_none_iff_exists'.1 hended
      have hstays := (stays_run h.hasTimer
        [.work t [], .finish t .returned, .record t false]).shutdown reason hreason
      exact .inr (by rw [System.turnOver, hstays]; simp)

theorem Attended.turnOver (h : Attended t s) : Attended t (s.turnOver t) := by
  obtain ⟨reachable, hasTimer, free, present⟩ := h.unoccupied.turnOver
  refine ⟨reachable, hasTimer, fun u hu => ?_, free, present, ?_⟩
  · rw [World.HasTimer, timerCount_turnOver] at hu
    exact h.only u hu
  · rw [clock_turnOver h.hasTimer]
    exact h.room

theorem Unoccupied.going_of_not_settled (h : Unoccupied t s) (hbusy : ¬ s.Settled t) :
    (s.world.timer t).stage = .going :=
  h.present.resolve_right fun hended => hbusy (.inl hended)

/-- Where the thread has not settled, its turn finds something to do. -/
theorem Unoccupied.turned (h : Unoccupied t s) (hbusy : ¬ s.Settled t) :
    ∃ fs, World.Turned t s.world fs (s.turnOver t).world ∧
      firingsOn t (s.turnOver t).log = firingsOn t s.log ++ fs := by
  have hgoing := h.going_of_not_settled hbusy
  obtain ⟨hworld, hlog⟩ := world_turnOver h.hasTimer hgoing h.free
  rw [hworld, hlog]
  obtain ⟨w, rfl | rfl, hturned⟩ := World.turned_work h.hasTimer hgoing [] fun due hwait =>
    hbusy (.inr ⟨hgoing, h.free, due, hwait⟩)
  · exact ⟨_, hturned, rfl⟩
  · exact ⟨_, hturned, rfl⟩

/-- As many turns as the backlog counts are enough to settle. -/
theorem Unoccupied.settles_within (h : Unoccupied t s) (hroom : (s.world.timer t).clock.HasRoom)
    {bound : Nat} (hbound : s.world.backlog t ≤ bound) :
    ∃ fs, Settles t s fs (settleWithin t bound s) := by
  induction bound generalizing s with
  | zero =>
    refine ⟨[], .rest (.inl (h.present.resolve_left fun hgoing => ?_))⟩
    rw [World.backlog, if_pos hgoing] at hbound
    omega
  | succ bound ih =>
    rw [settleWithin]
    split
    · next hsettled => exact ⟨[], .rest hsettled⟩
    · next hbusy =>
      obtain ⟨fs, hturned, -⟩ := h.turned hbusy
      have hgoing := h.going_of_not_settled hbusy
      have hless : (s.turnOver t).world.backlog t < s.world.backlog t := by
        obtain ⟨acts, rfl⟩ := h.reachable
        exact hturned.backlog_lt hgoing (positive_after acts) hroom
      have hroom' : ((s.turnOver t).world.timer t).clock.HasRoom := by
        rwa [clock_turnOver h.hasTimer]
      obtain ⟨gs, hlater⟩ := ih h.turnOver hroom' (by omega)
      exact ⟨fs ++ gs, .turn hbusy hturned hlater⟩

/-- **A thread whose bodies do nothing comes to rest**, as long as the clock leaves room. -/
theorem Unoccupied.settles (h : Unoccupied t s) (hroom : (s.world.timer t).clock.HasRoom) :
    ∃ fs, Settles t s fs (s.settle t) :=
  h.settles_within hroom (Nat.le_refl _)

namespace Settles

theorem settled (h : Settles t s fs s') : s'.Settled t := by
  induction h with
  | rest settled => exact settled
  | turn _ _ _ ih => exact ih

theorem unoccupied (h : Settles t s fs s') (hu : Unoccupied t s) : Unoccupied t s' := by
  induction h with
  | rest => exact hu
  | turn _ _ _ ih => exact ih hu.turnOver

theorem attended (h : Settles t s fs s') (ha : Attended t s) : Attended t s' := by
  induction h with
  | rest => exact ha
  | turn _ _ _ ih => exact ih ha.turnOver

/-- The log grows by what runs on the way. -/
theorem firingsOn_log (h : Settles t s fs s') (hu : Unoccupied t s) :
    firingsOn t s'.log = firingsOn t s.log ++ fs := by
  induction h with
  | rest => exact (List.append_nil _).symm
  | turn busy turned later ih =>
    obtain ⟨gs, hturned, hlog⟩ := hu.turned busy
    obtain rfl := hturned.unique turned
    rw [ih hu.turnOver, hlog, List.append_assoc]

end Settles

/-- A timer on its own comes to rest, and the log grows by what it runs. -/
theorem Attended.settles (h : Attended t s) :
    ∃ fs, Settles t s fs (s.settle t) ∧ Attended t (s.settle t) ∧
      firingsOn t (s.settle t).log = firingsOn t s.log ++ fs := by
  obtain ⟨fs, hsettles⟩ := h.unoccupied.settles h.room
  exact ⟨fs, hsettles, hsettles.attended h, hsettles.firingsOn_log h.unoccupied⟩

end System

end TaskTimer
