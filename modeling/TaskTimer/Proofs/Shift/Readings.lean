/-
TaskTimer.Proofs.Shift.Readings — readings of clocks that differ by a constant.

`Nanos.Shifted c x y` says that `y` is `c` later than `x`. A `Shift` says how the readings of two
runs correspond: what the monotonic clocks show is shifted by a constant; wall clocks and the times
of absolute submissions correspond in any way that changes neither how far a time lies ahead nor on
which side of the epoch it is. Both may be shifted by a second constant (`Shift.of`); or, where
there are no such times, wall clocks may show what they like (`Shift.anyWall`).

Deadlines that are worked out from corresponding readings are shifted as well
(`Timer.shifted_dueAfter`, `Timer.shifted_dueAt`, `Period.shifted_next`), unless a sum leaves the
range of instants. Without a shift that does not matter either, so each of these lemmas asks for
`c = 0` or for sums within the range.
-/
import TaskTimer.Proofs.Time.Saturation
import TaskTimer.World.Submission

namespace TaskTimer

/-! ## Counts of nanoseconds -/

/-- `y` is `c` nanoseconds later than `x`. -/
def Nanos.Shifted {lo hi : Int} (c : Int) (x y : Nanos lo hi) : Prop := y.val = x.val + c

namespace Nanos.Shifted

variable {lo hi c : Int} {x x' y y' : Nanos lo hi}

theorem le_iff (hx : x.Shifted c x') (hy : y.Shifted c y') : x' ≤ y' ↔ x ≤ y := by
  unfold Shifted at hx hy
  rw [Nanos.le_iff, Nanos.le_iff]
  omega

theorem lt_iff (hx : x.Shifted c x') (hy : y.Shifted c y') : x' < y' ↔ x < y := by
  unfold Shifted at hx hy
  rw [Nanos.lt_iff, Nanos.lt_iff]
  omega

theorem zero_iff : x.Shifted 0 y ↔ y = x := by
  rw [Shifted, Int.add_zero, Nanos.val_inj]

/-- An instant that may be missing is the same without a shift. -/
theorem option_eq {x y : Option (Nanos lo hi)} (h : Option.Rel (Nanos.Shifted 0) x y) : y = x := by
  cases h with
  | none => rfl
  | some h => rw [zero_iff.1 h]

end Nanos.Shifted

/-! ## Sums of an instant and a duration -/

namespace Instant

variable {c : Int} {x y : Instant} {d : Duration}

theorem shifted_after (h : x.Shifted c y)
    (hexact : c = 0 ∨ x.add? d ≠ none ∧ y.add? d ≠ none) :
    (x.after d).Shifted c (y.after d) := by
  rcases hexact with rfl | ⟨hx, hy⟩
  · rw [Nanos.Shifted.zero_iff] at h ⊢
    rw [h]
  · rw [Nanos.Shifted] at h ⊢
    rw [val_after hx, val_after hy, h]
    omega

/-- The way back from a sum leads to instants that are shifted as well. -/
theorem shifted_sub?_after (h : x.Shifted c y)
    (hexact : c = 0 ∨ x.add? d ≠ none ∧ y.add? d ≠ none) :
    Option.Rel (Nanos.Shifted c) ((x.after d).sub? d) ((y.after d).sub? d) := by
  rcases hexact with rfl | ⟨hx, hy⟩
  · obtain rfl := Nanos.Shifted.zero_iff.1 h
    cases (y.after d).sub? d with
    | none => exact .none
    | some z => exact .some (Nanos.Shifted.zero_iff.2 rfl)
  · rw [sub?_after hx, sub?_after hy]
    exact .some h

end Instant

/-- The next deadlines are shifted, and so is what lies one period before them. -/
theorem Period.shifted_next {c : Int} {p : Period} {due due' now now' : Instant}
    (hdue : due.Shifted c due') (hnow : now.Shifted c now')
    (hexact : c = 0 ∨ p.Exact due now ∧ p.Exact due' now') :
    (p = .once ∧ p.next? due now = none ∧ p.next? due' now' = none) ∨
    ∃ every next next', p.every? = some every ∧ p.next? due now = some next ∧
      p.next? due' now' = some next' ∧ next.Shifted c next' ∧
      Option.Rel (Nanos.Shifted c) (next.sub? every) (next'.sub? every) := by
  cases p with
  | once => exact .inl ⟨rfl, rfl, rfl⟩
  | fixedRate d =>
    exact .inr ⟨d, _, _, rfl, rfl, rfl, Instant.shifted_after hdue hexact,
      Instant.shifted_sub?_after hdue hexact⟩
  | fixedDelay d =>
    exact .inr ⟨d, _, _, rfl, rfl, rfl, Instant.shifted_after hnow hexact,
      Instant.shifted_sub?_after hnow hexact⟩

/-! ## Clocks -/

/-- How the readings of two runs correspond. -/
structure Shift where
  /-- By how much the monotonic clocks of the second run are ahead. -/
  now : Int
  /-- Which readings of wall clocks correspond. -/
  wall : WallTime → WallTime → Prop
  /-- Which times of absolute submissions correspond. -/
  time : WallTime → WallTime → Prop
  ahead : ∀ {x x' y y'}, wall x x' → time y y' → y'.val - x'.val = y.val - x.val
  epoch : ∀ {y y'}, time y y' → (y'.val < WallTime.epoch.val ↔ y.val < WallTime.epoch.val)

namespace Shift

/-- Monotonic clocks are shifted by `c`, wall clocks and absolute times by `e`; but no time gets to
the other side of the epoch. -/
def of (c e : Int) : Shift where
  now := c
  wall x x' := x.Shifted e x'
  time y y' := y.Shifted e y' ∧ (y'.val < WallTime.epoch.val ↔ y.val < WallTime.epoch.val)
  ahead := by
    rintro x x' y y' hx ⟨hy, -⟩
    unfold Nanos.Shifted at hx hy
    omega
  epoch h := h.2

/-- Nothing but wall clocks may be different, and they in any way; there are no absolute times. -/
def anyWall : Shift where
  now := 0
  wall _ _ := True
  time _ _ := False
  ahead _ h := h.elim
  epoch h := h.elim

end Shift

/-- The clocks show readings that correspond. -/
structure Clock.Shifted (δ : Shift) (x x' : Clock) : Prop where
  now : x.now.Shifted δ.now x'.now
  wall : δ.wall x.wall x'.wall

/-! ## First deadlines -/

/-- The same refusal, or values that `R` relates. -/
inductive SameUpTo {ε α β : Type} (R : α → β → Prop) : Except ε α → Except ε β → Prop
  | error (e : ε) : SameUpTo R (.error e) (.error e)
  | ok {a : α} {b : β} (h : R a b) : SameUpTo R (.ok a) (.ok b)

namespace Timer

/-- The deadline `delay` from now is within the range of instants. -/
def ExactAfter (timer : Timer) (delay : Delay) : Prop :=
  ∀ d ∈ delay.toDuration?, timer.clock.now.add? d ≠ none

/-- The deadline at a wall time that is allowed and ahead is within the range of instants. -/
def ExactAt (timer : Timer) (time : WallTime) : Prop :=
  WallTime.epoch.val ≤ time.val → ∀ h : timer.clock.wall.val ≤ time.val,
    timer.clock.now.add? (time.ahead timer.clock.wall h) ≠ none

instance (timer : Timer) (delay : Delay) : Decidable (timer.ExactAfter delay) :=
  inferInstanceAs (Decidable (∀ d ∈ delay.toDuration?, _))

instance (timer : Timer) (time : WallTime) : Decidable (timer.ExactAt time) :=
  inferInstanceAs (Decidable (_ → ∀ _, _))

variable {δ : Shift} {x x' : Timer}

theorem shifted_dueAfter (h : x.clock.Shifted δ x'.clock) {delay : Delay}
    (hexact : δ.now = 0 ∨ x.ExactAfter delay ∧ x'.ExactAfter delay) :
    SameUpTo (Nanos.Shifted δ.now) (x.dueAfter delay) (x'.dueAfter delay) := by
  unfold dueAfter
  cases hd : delay.toDuration? with
  | none => exact .error _
  | some d =>
    exact .ok (Instant.shifted_after h.now (hexact.imp_right fun ⟨hx, hx'⟩ => ⟨hx d hd, hx' d hd⟩))

theorem shifted_dueAt (h : x.clock.Shifted δ x'.clock) {time time' : WallTime}
    (htime : δ.time time time') (hexact : δ.now = 0 ∨ x.ExactAt time ∧ x'.ExactAt time') :
    SameUpTo (Nanos.Shifted δ.now) (x.dueAt time) (x'.dueAt time') := by
  have hahead := δ.ahead h.wall htime
  have hepoch := δ.epoch htime
  unfold dueAt
  by_cases hpast : time.val < WallTime.epoch.val
  · rw [if_pos hpast, if_pos (hepoch.2 hpast)]
    exact .error _
  · rw [if_neg hpast, if_neg (mt hepoch.1 hpast)]
    refine .ok ?_
    unfold Clock.instantOf
    by_cases hle : x.clock.wall.val ≤ time.val
    · have hle' : x'.clock.wall.val ≤ time'.val := by omega
      have hsame : time'.ahead x'.clock.wall hle' = time.ahead x.clock.wall hle :=
        Nanos.ext hahead
      rw [dif_pos hle, dif_pos hle', hsame]
      refine Instant.shifted_after h.now (hexact.imp_right fun ⟨hx, hx'⟩ => ⟨?_, ?_⟩)
      · exact hx (by omega) hle
      · exact hsame ▸ hx' (by omega) hle'
    · have hle' : ¬ x'.clock.wall.val ≤ time'.val := by omega
      rw [dif_neg hle, dif_neg hle']
      exact h.now

end Timer

end TaskTimer
