/-
TaskTimer.Proofs.Time.Saturation — deadlines near the end of the range.

A deadline within the range of instants is exact. One beyond it is put ahead by a length that has
nothing to do with the length asked for, the `Instant.reserve`: thirty years, or nothing where these
are beyond the range as well. So whatever is beyond the range is due at one moment, and exact
deadlines may lie behind that moment. Between an exact deadline and one beyond the range the order
of the lengths can be lost (`Instant.Reverses`), and nowhere else (`Instant.after_le_after_iff`).
Whether a deadline is later at all is told by the shorter of its length and thirty years
(`Instant.lt_after_iff`).

Counting back from a deadline leads to where it was counted from, if it is exact
(`Instant.sub?_after`); in any case it leads to an instant, if the length is one that a caller can
ask for (`Instant.exists_sub?_after`).

A wall time is due after the time until then (`Clock.instantOf_eq_after`), so what is true of
lengths is true of wall times. The last theorem sums up what can be relied on all over the range.
-/
import TaskTimer.Proofs.Time.Order

namespace TaskTimer

namespace Instant

variable {base : Instant} {d e : Duration}

theorem val_last : last.val = 9223372036854775807999999999 := rfl

theorem add?_eq_none_iff : base.add? d = none ↔ last.val < base.val + d.val := by
  have := base.lo_le
  have := d.lo_le
  rw [add?, Nanos.ofInt?_eq_none_iff, val_last]
  omega

theorem val_after_of_le (h : base.val + d.val ≤ last.val) :
    (base.after d).val = base.val + d.val :=
  val_after fun hnone => Int.not_lt.2 h (add?_eq_none_iff.1 hnone)

/-- How far ahead a deadline is put that is beyond the range: thirty years, or nothing where these
are beyond the range as well. -/
def reserve (base : Instant) : Int :=
  if base.val + Duration.thirtyYears.val ≤ last.val then Duration.thirtyYears.val else 0

theorem val_after_of_lt (h : last.val < base.val + d.val) :
    (base.after d).val = base.val + base.reserve := by
  rw [after, add?_eq_none_iff.2 h, reserve]
  cases hfar : base.add? Duration.thirtyYears with
  | some far =>
    have hroom : ¬ last.val < base.val + Duration.thirtyYears.val := by
      rw [← add?_eq_none_iff, hfar]
      exact Option.some_ne_none far
    rw [if_pos (Int.not_lt.1 hroom)]
    exact Nanos.ofInt?_eq_some_iff.1 hfar
  | none => rw [if_neg (Int.not_le.2 (add?_eq_none_iff.1 hfar)), Int.add_zero]

/-- No time later it is the same instant, also at the end of the range. -/
theorem after_zero (base : Instant) : base.after Duration.zero = base := by
  have same : base.val + Duration.zero.val = base.val := Int.add_zero _
  refine Nanos.ext ?_
  rw [val_after_of_le, same]
  rw [same]
  exact base.le_hi

/-! ## Progress -/

/-- There is an instant with this count of nanoseconds. -/
def InRange (n : Int) : Prop := ∃ x : Instant, x.val = n

theorem inRange_val (x : Instant) : InRange x.val := ⟨x, rfl⟩

/-- Counting on from an instant can leave the range at its end only. -/
theorem inRange_add_iff {n : Int} (h : 0 ≤ n) :
    InRange (base.val + n) ↔ base.val + n ≤ last.val := by
  constructor
  · rintro ⟨x, hx⟩
    rw [← hx]
    exact x.le_hi
  · intro hle
    have := base.lo_le
    exact ⟨⟨base.val + n, by omega, hle⟩, rfl⟩

/-- A deadline is later than the instant it is counted from just if the length is positive and the
range goes on for that length or for thirty years. -/
theorem lt_after_iff :
    base < base.after d ↔
      0 < d.val ∧ InRange (base.val + min d.val Duration.thirtyYears.val) := by
  have hd := d.lo_le
  have hyears : 0 < Duration.thirtyYears.val := by decide
  rw [inRange_add_iff (by omega), Nanos.lt_iff]
  by_cases hexact : base.val + d.val ≤ last.val
  · rw [val_after_of_le hexact]
    omega
  · rw [val_after_of_lt (Int.not_le.1 hexact), reserve]
    split
    · omega
    · omega

/-- With room ahead of it, an instant is never its own successor. -/
theorem lt_after (hd : 0 < d.val) (hroom : base.add? Duration.thirtyYears ≠ none) :
    base < base.after d := by
  have hyears : 0 < Duration.thirtyYears.val := by decide
  have hle : base.val + Duration.thirtyYears.val ≤ last.val :=
    Int.not_lt.1 fun hlt => hroom (add?_eq_none_iff.2 hlt)
  refine lt_after_iff.2 ⟨hd, (inRange_add_iff (by omega)).2 ?_⟩
  omega

/-- What has room ahead has room ahead of all that came before. -/
theorem add?_ne_none_of_le {later : Instant} (hle : base ≤ later) (h : later.add? d ≠ none) :
    base.add? d ≠ none := by
  intro hnone
  have hbeyond := add?_eq_none_iff.1 hnone
  rw [Nanos.le_iff] at hle
  exact h (add?_eq_none_iff.2 (by omega))

/-! ## The order of deadlines -/

/-- From `base`, the shorter length `d` leads to a deadline within the range and the longer `e`
beyond it, and `d` is longer than what is put in the place of `e`. -/
def Reverses (base : Instant) (d e : Int) : Prop :=
  base.val + d ≤ last.val ∧ last.val < base.val + e ∧ base.reserve < d

instance (base : Instant) (d e : Int) : Decidable (base.Reverses d e) :=
  inferInstanceAs (Decidable (_ ∧ _ ∧ _))

/-- The longer of two lengths leads to the later deadline, unless it leads beyond the range and the
shorter one leads further than what is put in its place. -/
theorem after_le_after_iff (h : d ≤ e) :
    base.after d ≤ base.after e ↔ ¬ base.Reverses d.val e.val := by
  rw [Nanos.le_iff] at h ⊢
  by_cases he : base.val + e.val ≤ last.val
  · have hd : base.val + d.val ≤ last.val := by omega
    rw [val_after_of_le hd, val_after_of_le he]
    exact ⟨fun _ hrev => Int.not_lt.2 he hrev.2.1, fun _ => by omega⟩
  · have he : last.val < base.val + e.val := Int.not_le.1 he
    by_cases hd : base.val + d.val ≤ last.val
    · rw [val_after_of_le hd, val_after_of_lt he, Int.add_le_add_iff_left, Reverses]
      exact ⟨fun hle hrev => Int.not_lt.2 hle hrev.2.2, fun hnot => Int.not_lt.1 fun hlt =>
        hnot ⟨hd, he, hlt⟩⟩
    · rw [val_after_of_lt (Int.not_le.1 hd), val_after_of_lt he]
      exact ⟨fun _ hrev => hd hrev.1, fun _ => Int.le_refl _⟩

/-! ## Counting back -/

/-- From an exact sum the way back leads to where it started. -/
theorem sub?_after (h : base.add? d ≠ none) : (base.after d).sub? d = some base := by
  rw [sub?, Nanos.ofInt?_eq_some_iff, val_after h]
  omega

/-- The way back stays within the range for lengths up to what a caller can ask for: a deadline that
is not exact is near the end of the range, and that is far from its start. -/
theorem exists_sub?_after (base : Instant) (h : d.val ≤ 9223372036854775807000000) :
    ∃ before, (base.after d).sub? d = some before := by
  by_cases hexact : base.add? d = none
  · refine Option.ne_none_iff_exists'.1 fun hnone => ?_
    have hbeyond := add?_eq_none_iff.1 hexact
    have hlater := Nanos.le_iff.1 (le_after base d)
    have := (base.after d).le_hi
    have := d.lo_le
    rw [sub?, Nanos.ofInt?_eq_none_iff] at hnone
    rw [val_last] at hbeyond
    omega
  · exact ⟨base, sub?_after hexact⟩

end Instant

/-! ## Wall times -/

/-- A wall time is due after the time until then, and a past one after no time at all. -/
theorem Clock.instantOf_eq_after (c : Clock) (time : WallTime) :
    ∃ ahead : Duration, ahead.val = max 0 (time.val - c.wall.val) ∧
      c.instantOf time = c.now.after ahead := by
  unfold instantOf
  split
  · next hle => exact ⟨time.ahead c.wall hle, (Int.max_eq_right (Int.sub_nonneg.2 hle)).symm, rfl⟩
  · next hpast =>
    have hnone : max 0 (time.val - c.wall.val) = 0 := by omega
    exact ⟨Duration.zero, hnone.symm, (Instant.after_zero c.now).symm⟩

/-- **Deadlines are safe over the whole range.** From any instant and for any length, the deadline
is within the range and not before the instant. Where the sum is within the range, it is the
deadline. The deadline is later than the instant exactly if the length is positive and the instant
that lies ahead by this length, or by thirty years if these are shorter, is within the range. A wall
time is never due in the past, by any reading of the wall clock: it is due after the time until
then, and after no time at all if it is past. -/
theorem deadlines_safe_over_whole_range (base : Instant) (d : Duration) (clock : Clock)
    (time : WallTime) :
    Instant.InRange (base.after d).val ∧
      base ≤ base.after d ∧
      (Instant.InRange (base.val + d.val) → (base.after d).val = base.val + d.val) ∧
      (base < base.after d ↔
        0 < d.val ∧ Instant.InRange (base.val + min d.val Duration.thirtyYears.val)) ∧
      clock.now ≤ clock.instantOf time ∧
      ∃ ahead : Duration, ahead.val = max 0 (time.val - clock.wall.val) ∧
        clock.instantOf time = clock.now.after ahead := by
  refine ⟨Instant.inRange_val _, Instant.le_after base d, fun hrange => ?_, Instant.lt_after_iff,
    clock.now_le_instantOf time, clock.instantOf_eq_after time⟩
  exact Instant.val_after_of_le ((Instant.inRange_add_iff d.lo_le).1 hrange)

end TaskTimer
