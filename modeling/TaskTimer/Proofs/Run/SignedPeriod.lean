/-
TaskTimer.Proofs.Run.SignedPeriod — the signed milliseconds of a period.

`Period.toMillis` is meant to tell the three ways of repetition apart by its sign. A signed number
of nanoseconds does that (`Period.toNanos`), since the period of a task that repeats is positive. A
number of milliseconds does not, for the remainder of the division is dropped: whatever is shorter
than a millisecond becomes zero, which also stands for a task that runs once. Nothing else is lost,
for no period that a timer accepts exceeds the largest magnitude of `toMillis`.
-/
import TaskTimer.Proofs.Run.LatestDeadline

namespace TaskTimer

/-- Nanoseconds in a millisecond. -/
def nanosPerMilli : Int := 1000000

/-- No duration that a caller can ask for exceeds the largest magnitude. -/
theorem Duration.min_millis {d : Duration} (h : d.val ≤ 9223372036854775807000000) :
    (min d.millis Period.maxMillis : Nat) = d.val / nanosPerMilli := by
  have := d.lo_le
  simp only [Duration.millis, Period.maxMillis, nanosPerMilli]
  omega

namespace RepeatMode

/-- The mode that is not this one. -/
def other : RepeatMode → RepeatMode
  | .fixedRate => .fixedDelay
  | .fixedDelay => .fixedRate

theorem toMillis_other (mode : RepeatMode) (every : Duration) :
    (mode.other.period every).toMillis = -(mode.period every).toMillis := by
  cases mode with
  | fixedRate => rfl
  | fixedDelay => exact (Int.neg_neg _).symm

/-- A longer period has no smaller number, in either mode and of any length. -/
theorem natAbs_toMillis_le (mode : RepeatMode) {every longer : Duration} (h : every ≤ longer) :
    (mode.period every).toMillis.natAbs ≤ (mode.period longer).toMillis.natAbs := by
  rw [Nanos.le_iff] at h
  have hmillis : min every.millis Period.maxMillis ≤ min longer.millis Period.maxMillis := by
    simp only [Duration.millis, Period.maxMillis]
    omega
  cases mode with
  | fixedRate | fixedDelay =>
    simp only [RepeatMode.period, Period.toMillis, Int.natAbs_neg, Int.natAbs_natCast]
    exact hmillis

end RepeatMode

namespace Period

/-- As `toMillis`, but in nanoseconds. -/
def toNanos : Period → Int
  | .once => 0
  | .fixedRate d => d.val
  | .fixedDelay d => -d.val

variable {p : Period}

theorem repeats_iff_toNanos_ne_zero (h : p.Positive) : p.repeats = true ↔ p.toNanos ≠ 0 := by
  cases p with
  | once => decide
  | fixedRate d | fixedDelay d =>
    have hpos : 0 < d.val := h d rfl
    exact iff_of_true rfl (by simp only [toNanos]; omega)

theorem toMillis_pos_iff : 0 < p.toMillis ↔ nanosPerMilli ≤ p.toNanos := by
  cases p with
  | once => decide
  | fixedRate d | fixedDelay d =>
    have := d.lo_le
    simp only [toMillis, toNanos, Duration.millis, maxMillis, nanosPerMilli]
    omega

theorem toMillis_neg_iff : p.toMillis < 0 ↔ p.toNanos ≤ -nanosPerMilli := by
  cases p with
  | once => decide
  | fixedRate d | fixedDelay d =>
    have := d.lo_le
    simp only [toMillis, toNanos, Duration.millis, maxMillis, nanosPerMilli]
    omega

theorem toMillis_ne_zero_iff : p.toMillis ≠ 0 ↔ nanosPerMilli ≤ p.toNanos.natAbs := by
  have hsign : p.toMillis ≠ 0 ↔ 0 < p.toMillis ∨ p.toMillis < 0 := by omega
  rw [hsign, toMillis_pos_iff, toMillis_neg_iff, nanosPerMilli]
  omega

/-- Of a period that is not too long nothing is lost but the remainder. -/
theorem toMillis_eq_tdiv (h : ∀ every, p.every? = some every →
    every.val ≤ 9223372036854775807000000) : p.toMillis = p.toNanos.tdiv nanosPerMilli := by
  have hwhole : ∀ d : Duration, d.val ≤ 9223372036854775807000000 →
      (min d.millis maxMillis : Nat) = d.val.tdiv nanosPerMilli := by
    intro d hd
    rw [Int.tdiv_eq_ediv_of_nonneg d.lo_le, Duration.min_millis hd]
  cases p with
  | once => decide
  | fixedRate d => exact hwhole d (h d rfl)
  | fixedDelay d => rw [toMillis, hwhole d (h d rfl), toNanos, Int.neg_tdiv]

end Period

namespace RepeatMode

variable {mode : RepeatMode} {every : Duration}

theorem natAbs_toMillis (h : every.val ≤ 9223372036854775807000000) :
    (mode.period every).toMillis.natAbs = every.val / nanosPerMilli := by
  rw [← Duration.min_millis h]
  cases mode with
  | fixedRate | fixedDelay =>
    simp only [RepeatMode.period, Period.toMillis, Int.natAbs_neg, Int.natAbs_natCast]

theorem toMillis_period_pos_iff :
    0 < (mode.period every).toMillis ↔ mode = .fixedRate ∧ nanosPerMilli ≤ every.val := by
  have := every.lo_le
  rw [Period.toMillis_pos_iff]
  cases mode with
  | fixedRate => simp [RepeatMode.period, Period.toNanos]
  | fixedDelay =>
    simp only [RepeatMode.period, Period.toNanos, nanosPerMilli]
    exact ⟨fun h => by omega, fun h => nomatch h.1⟩

theorem toMillis_period_neg_iff :
    (mode.period every).toMillis < 0 ↔ mode = .fixedDelay ∧ nanosPerMilli ≤ every.val := by
  have hother : mode.other = .fixedRate ↔ mode = .fixedDelay := by cases mode <;> decide
  rw [← hother, ← toMillis_period_pos_iff, toMillis_other]
  omega

end RepeatMode

namespace System

variable {acts : List Action} {t : TimerRef} {k : TaskRef} {p : Period} {newHead : Bool}

/-- A timer accepts periods that are positive and not too long. -/
theorem period_of_scheduled (h : .scheduled t k p newHead ∈ (after acts).log) :
    p.Positive ∧ ∀ every, p.every? = some every → every.val ≤ 9223372036854775807000000 := by
  obtain ⟨pre, a, post, start, -, haccepts⟩ := accepts_of_scheduled h
  obtain ⟨r, hr⟩ := haccepts.exists_repetition
  exact ⟨haccepts.positive, fun every => Repetition.every_le hr⟩

end System

/-- **The signed milliseconds tell the modes apart from one millisecond on.** A positive period is
accepted in either mode, and the two numbers are negations of each other. They are exact but for
the remainder, and so the number is positive just at a fixed rate of a millisecond or more, negative
just with a fixed delay of a millisecond or more, and zero for everything shorter. A longer period
never has a smaller magnitude. After every run, a task that was accepted keeps the period that was
asked for. Its number is the one in nanoseconds, which is zero just if the task runs once, divided
and rounded toward zero, so it is zero also for a task that repeats within a millisecond. -/
theorem signed_millis_of_accepted_periods (mode : RepeatMode) (acts : List Action) :
    (∀ period : Delay, 0 < period.val →
      ∃ p opposite, mode.every period = .ok p ∧ mode.other.every period = .ok opposite ∧
        opposite.toMillis = -p.toMillis ∧
        p.toMillis.natAbs = period.val / nanosPerMilli ∧
        (0 < p.toMillis ↔ mode = .fixedRate ∧ nanosPerMilli ≤ period.val) ∧
        (p.toMillis < 0 ↔ mode = .fixedDelay ∧ nanosPerMilli ≤ period.val)) ∧
    (∀ every longer : Duration, every ≤ longer →
      (mode.period every).toMillis.natAbs ≤ (mode.period longer).toMillis.natAbs) ∧
    ∀ (t : TimerRef) (k : TaskRef) (p : Period) (newHead : Bool),
      .scheduled t k p newHead ∈ (System.after acts).log →
        ((System.after acts).world.task k).period = p ∧
        p.toMillis = p.toNanos.tdiv nanosPerMilli ∧
        (p.repeats = true ↔ p.toNanos ≠ 0) ∧
        (p.toMillis ≠ 0 ↔ p.repeats = true ∧ nanosPerMilli ≤ p.toNanos.natAbs) := by
  refine ⟨fun period hpos => ?_, fun every longer => mode.natAbs_toMillis_le,
    fun t k p newHead h => ?_⟩
  · obtain ⟨length, hval, haccepted⟩ := mode.exists_every hpos
    obtain ⟨length', hval', hopposite⟩ := mode.other.exists_every hpos
    obtain rfl : length' = length := Nanos.ext (hval'.trans hval.symm)
    refine ⟨_, _, haccepted, hopposite, mode.toMillis_other length', ?_, ?_, ?_⟩
    · rw [RepeatMode.natAbs_toMillis (hval ▸ period.le_hi), hval]
    · rw [← hval, RepeatMode.toMillis_period_pos_iff]
    · rw [← hval, RepeatMode.toMillis_period_neg_iff]
  · obtain ⟨hpos, hlength⟩ := System.period_of_scheduled h
    have hkept := (((recorded_after acts).task k).accepted t p newHead h).1
    have hrepeats := Period.repeats_iff_toNanos_ne_zero hpos
    refine ⟨hkept, Period.toMillis_eq_tdiv hlength, hrepeats, ?_⟩
    rw [Period.toMillis_ne_zero_iff, hrepeats, nanosPerMilli]
    omega

/-- A task is accepted with a period of one nanosecond, repeats, and has zero for its number. -/
theorem signed_millis_of_short_period :
    let s := System.after
      [.startTimer { now := .origin, wall := .epoch }, .newTask,
        .submission ⟨0⟩ ⟨0⟩ (.fixedRate 0 1)]
    let x := s.world.task ⟨0⟩
    x.state = .scheduled ∧ x.period = .fixedRate 1 ∧ x.period.repeats = true ∧
      x.period.toMillis = 0 := by
  decide +kernel

end TaskTimer
