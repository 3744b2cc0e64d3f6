/-
TaskTimer.Proofs.Time.Order — the order of counts of nanoseconds, and deadlines that are never
early.

`Nanos` takes its order from the integers, so it is a linear one; with the two instances below
the library's lemmas on `≤` and `<` apply to it. The rest says of each way to compute a deadline
that it never leads back in time: `Instant.le_after`, `Clock.now_le_instantOf` and
`Period.le_of_next?`, whatever becomes of the sum near the end of the range. `Period.Positive` is
what a timer asks of a period. Where the sum is within the range (`Period.Exact`, `Firing.Exact`),
the deadline is just that.
-/
import TaskTimer.Task.Record
import TaskTimer.Time.Wall

namespace TaskTimer

namespace Nanos

variable {lo hi : Int}

instance : Std.IsLinearOrder (Nanos lo hi) :=
  .of_le
    { antisymm := fun _ _ h h' => Nanos.ext (Int.le_antisymm h h') }
    { trans := fun h h' => Int.le_trans h h' }
    { total := fun a b => Int.le_total a.val b.val }

instance : Std.LawfulOrderLT (Nanos lo hi) where
  lt_iff a b := by
    simp only [le_iff, lt_iff]
    omega

end Nanos

/-- A deadline is not before the instant it is counted from. -/
theorem Instant.le_after (base : Instant) (d : Duration) : base ≤ base.after d := by
  have sum_le : ∀ {e : Duration} {sum : Instant}, base.add? e = some sum → base ≤ sum := by
    intro e sum h
    have := e.lo_le
    rw [Nanos.le_iff, Nanos.ofInt?_eq_some_iff.1 h]
    omega
  unfold Instant.after
  split
  · next exact h => exact sum_le h
  · split
    · next far h => exact sum_le h
    · exact Std.le_refl base

/-- A wall time is never taken over to an instant that is past. -/
theorem Clock.now_le_instantOf (c : Clock) (time : WallTime) : c.now ≤ c.instantOf time := by
  unfold Clock.instantOf
  split
  · exact Instant.le_after _ _
  · exact Std.le_refl c.now

/-- What is due by now is next due no earlier. -/
theorem Period.le_of_next? {p : Period} {due now next : Instant}
    (h : p.next? due now = some next) (hdue : due ≤ now) : due ≤ next := by
  cases p with
  | once => simp [Period.next?] at h
  | fixedRate d =>
    obtain rfl := Option.some.inj h
    exact Instant.le_after due d
  | fixedDelay d =>
    obtain rfl := Option.some.inj h
    exact Std.le_trans hdue (Instant.le_after now d)

/-- A task that repeats does so after some time. -/
def Period.Positive (p : Period) : Prop := ∀ every, p.every? = some every → 0 < every.val

theorem Period.positive_once : Period.once.Positive := by
  intro every h
  cases h

/-! ## Deadlines within the range -/

/-- The deadline that follows one of `due` fired at `now` is within the range of instants. -/
def Period.Exact : Period → (due now : Instant) → Prop
  | .once, _, _ => True
  | .fixedRate d, due, _ => due.add? d ≠ none
  | .fixedDelay d, _, now => now.add? d ≠ none

instance : (p : Period) → (due now : Instant) → Decidable (p.Exact due now)
  | .once, _, _ => inferInstanceAs (Decidable True)
  | .fixedRate _, _, _ | .fixedDelay _, _, _ => inferInstanceAs (Decidable (_ ≠ none))

/-- The deadline after the execution is within the range of instants. -/
def Firing.Exact {ι : Type} (f : Firing ι) : Prop := f.period.Exact f.due f.firedAt

instance {ι : Type} (f : Firing ι) : Decidable f.Exact :=
  inferInstanceAs (Decidable (f.period.Exact f.due f.firedAt))

theorem Instant.val_after {base : Instant} {d : Duration} (h : base.add? d ≠ none) :
    (base.after d).val = base.val + d.val := by
  obtain ⟨sum, hsum⟩ := Option.ne_none_iff_exists'.1 h
  rw [Instant.after, hsum]
  exact Nanos.ofInt?_eq_some_iff.1 hsum

end TaskTimer
