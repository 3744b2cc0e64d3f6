/-
TaskTimer.Proofs.World.FirstDeadline — which deadline a delay, a wall time or a period leads to.

A wall time that is allowed stands for the delay until it (`Timer.dueAt_eq_dueAfter`), so there is
one rule for both kinds of submission, and it is the rule by which repeating tasks move on:
`Instant.after`. What is proved here is whether longer spans lead to later deadlines. Within the
range of instants they do. Beyond it they all lead to one moment, which may be earlier than
deadlines that are still within the range.
-/
import TaskTimer.Proofs.Time.Saturation
import TaskTimer.World.Submission

namespace TaskTimer

/-! ## Delays and wall times -/

theorem Delay.toDuration?_of_neg {d : Delay} (h : d.val < 0) : d.toDuration? = none :=
  dif_neg (Int.not_le.2 h)

theorem Delay.exists_toDuration? {d : Delay} (h : 0 ≤ d.val) :
    ∃ length, d.toDuration? = some length ∧ length.val = d.val :=
  ⟨_, dif_pos h, rfl⟩

/-- How long it is until the clock shows `time`; no time at all if that is past. -/
def Clock.delayUntil (c : Clock) (time : WallTime) : Delay where
  val := max 0 (time.val - c.wall.val)
  lo_le := by omega
  le_hi := by
    have := time.le_hi
    have := c.wall.lo_le
    omega

theorem Clock.delayUntil_le {time later : WallTime} (c : Clock) (h : time ≤ later) :
    c.delayUntil time ≤ c.delayUntil later := by
  rw [Nanos.le_iff] at h ⊢
  simp only [delayUntil]
  omega

namespace Timer

/-- A delay that is not negative leads to the deadline after it. -/
theorem exists_dueAfter (timer : Timer) (delay : Delay) (h : 0 ≤ delay.val) :
    ∃ length : Duration, length.val = delay.val ∧
      timer.dueAfter delay = .ok (timer.clock.now.after length) := by
  obtain ⟨length, hlength, hval⟩ := Delay.exists_toDuration? h
  exact ⟨length, hval, by rw [dueAfter, hlength]⟩

/-- A submission for a wall time is one for the delay until then. -/
theorem dueAt_eq_dueAfter (timer : Timer) {time : WallTime} (h : 0 ≤ time.val) :
    timer.dueAt time = timer.dueAfter (timer.clock.delayUntil time) := by
  obtain ⟨ahead, hahead, hdue⟩ := timer.clock.instantOf_eq_after time
  obtain ⟨length, hlength, hafter⟩ := timer.exists_dueAfter (timer.clock.delayUntil time)
    (Int.le_max_left _ _)
  have hsame : length = ahead := Nanos.ext (hlength.trans hahead.symm)
  have hepoch : ¬ time.val < WallTime.epoch.val := Int.not_lt.2 h
  rw [dueAt, if_neg hepoch, hdue, hafter, hsame]

/-- Of two delays the longer leads to the later deadline, up to the end of the range. -/
theorem dueAfter_le_iff (timer : Timer) {delay longer : Delay} (h : 0 ≤ delay.val)
    (hle : delay ≤ longer) :
    ∃ due later, timer.dueAfter delay = .ok due ∧ timer.dueAfter longer = .ok later ∧
      (due ≤ later ↔ ¬ timer.clock.now.Reverses delay.val longer.val) := by
  rw [Nanos.le_iff] at hle
  obtain ⟨d, hd, hdue⟩ := timer.exists_dueAfter delay h
  obtain ⟨e, he, hlater⟩ := timer.exists_dueAfter longer (Int.le_trans h hle)
  have hde : d ≤ e := by rwa [Nanos.le_iff, hd, he]
  exact ⟨_, _, hdue, hlater, hd ▸ he ▸ Instant.after_le_after_iff hde⟩

end Timer

/-! ## Repetition -/

/-- The instant from which the next deadline is counted. -/
def Period.base : Period → (due now : Instant) → Instant
  | .once, due, _ | .fixedRate _, due, _ => due
  | .fixedDelay _, _, now => now

theorem Period.base_eq_due_iff {p : Period} {due now : Instant} :
    p.base due now = due ↔ ∀ every, p = .fixedDelay every → now = due := by
  cases p <;> simp [base]

theorem Period.eq_once {p : Period} (h : p.every? = none) : p = .once := by
  cases p with
  | once => rfl
  | fixedRate | fixedDelay => cases h

theorem Period.Exact.base {p : Period} {every : Duration} {due now : Instant}
    (h : p.Exact due now) (hevery : p.every? = some every) :
    (p.base due now).add? every ≠ none := by
  cases p with
  | once => cases hevery
  | fixedRate | fixedDelay =>
    obtain rfl := Option.some.inj hevery
    exact h

theorem Period.next?_eq {p : Period} {every : Duration} (h : p.every? = some every)
    (due now : Instant) : p.next? due now = some ((p.base due now).after every) := by
  cases p with
  | once => cases h
  | fixedRate | fixedDelay =>
    obtain rfl := Option.some.inj h
    rfl

theorem RepeatMode.every?_period (mode : RepeatMode) (every : Duration) :
    (mode.period every).every? = some every := by
  cases mode <;> rfl

/-- Neither base depends on how long the period is. -/
theorem RepeatMode.base_period (mode : RepeatMode) (p q : Duration) (due now : Instant) :
    (mode.period p).base due now = (mode.period q).base due now := by
  cases mode <;> rfl

/-- **Longer spans lead to later deadlines, up to the end of the range.** Of two delays that are not
negative, by the same reading of the clock, the longer leads to a deadline that is no earlier, with
one exception: it leads beyond the range of instants, and the shorter leads to an instant that lies
further ahead than what is put in the place of the longer one, thirty years or nothing. Then the
longer delay is due earlier. The same is true of two wall times from the epoch on, by the delays
until them, and of two periods by which a task moves on from the same instant. -/
theorem longer_spans_due_later (timer : Timer) :
    (∀ delay longer : Delay, 0 ≤ delay.val → delay ≤ longer →
      ∃ due later, timer.dueAfter delay = .ok due ∧ timer.dueAfter longer = .ok later ∧
        (due ≤ later ↔ ¬ timer.clock.now.Reverses delay.val longer.val)) ∧
    (∀ time further : WallTime, 0 ≤ time.val → time ≤ further →
      ∃ due later, timer.dueAt time = .ok due ∧ timer.dueAt further = .ok later ∧
        (due ≤ later ↔ ¬ timer.clock.now.Reverses (timer.clock.delayUntil time).val
          (timer.clock.delayUntil further).val)) ∧
    ∀ (mode : RepeatMode) (every longer : Duration) (due now : Instant), every ≤ longer →
      ∃ next later, (mode.period every).next? due now = some next ∧
        (mode.period longer).next? due now = some later ∧
        (next ≤ later ↔
          ¬ ((mode.period every).base due now).Reverses every.val longer.val) := by
  refine ⟨fun _ _ => timer.dueAfter_le_iff, fun time further h hle => ?_,
    fun mode every longer due now hle => ?_⟩
  · rw [timer.dueAt_eq_dueAfter h, timer.dueAt_eq_dueAfter (Int.le_trans h hle)]
    exact timer.dueAfter_le_iff (Int.le_max_left _ _) (timer.clock.delayUntil_le hle)
  · refine ⟨_, _, Period.next?_eq (mode.every?_period every) due now,
      Period.next?_eq (mode.every?_period longer) due now, ?_⟩
    rw [mode.base_period longer every]
    exact Instant.after_le_after_iff hle

/-- A delay of thirty-one years that leads to the last instant there is, and one that is longer by a
nanosecond, which is due a year before that. -/
theorem longer_delay_due_earlier :
    let timer : Timer := { clock :=
      { now := ⟨9223372035877159807999999999, by decide, by decide⟩, wall := .epoch } }
    let delay : Delay := ⟨977616000000000000, by decide, by decide⟩
    let longer : Delay := ⟨977616000000000001, by decide, by decide⟩
    ∃ due later, delay ≤ longer ∧ timer.dueAfter delay = .ok due ∧
      timer.dueAfter longer = .ok later ∧ due.val = 9223372036854775807999999999 ∧
      later.val = 9223372036823239807999999999 ∧ later < due :=
  ⟨.last, ⟨9223372036823239807999999999, by decide, by decide⟩, by decide, rfl, rfl, rfl, rfl,
    by decide⟩

end TaskTimer
