/-
TaskTimer.Time.Nanos — counts of nanoseconds that stay within two bounds.

Every quantity of time here is a whole number of nanoseconds with a smallest and a largest
value. The bounds are part of the type, so a value out of range cannot be written down, and
each operation says itself what happens at the ends: it refuses (`ofInt?`) or it stops at the
nearer end (`clamp`).
-/

namespace TaskTimer

/-- A number of nanoseconds between `lo` and `hi`, both included. -/
@[ext]
structure Nanos (lo hi : Int) where
  val : Int
  lo_le : lo ≤ val
  le_hi : val ≤ hi
deriving DecidableEq

namespace Nanos

variable {lo hi : Int}

instance : LE (Nanos lo hi) := ⟨fun a b => a.val ≤ b.val⟩

instance : LT (Nanos lo hi) := ⟨fun a b => a.val < b.val⟩

instance (a b : Nanos lo hi) : Decidable (a ≤ b) := inferInstanceAs (Decidable (a.val ≤ b.val))

instance (a b : Nanos lo hi) : Decidable (a < b) := inferInstanceAs (Decidable (a.val < b.val))

theorem le_iff {a b : Nanos lo hi} : a ≤ b ↔ a.val ≤ b.val := Iff.rfl

theorem lt_iff {a b : Nanos lo hi} : a < b ↔ a.val < b.val := Iff.rfl

theorem val_inj {a b : Nanos lo hi} : a.val = b.val ↔ a = b :=
  ⟨fun h => Nanos.ext h, fun h => h ▸ rfl⟩

/-- The count `n`, where it lies within the bounds. -/
def ofInt? (n : Int) : Option (Nanos lo hi) :=
  if h : lo ≤ n ∧ n ≤ hi then some ⟨n, h.1, h.2⟩ else none

theorem ofInt?_eq_some_iff {n : Int} {a : Nanos lo hi} : ofInt? n = some a ↔ a.val = n := by
  unfold ofInt?
  split
  · rw [Option.some.injEq, ← val_inj]
    exact eq_comm
  · rename_i h
    refine ⟨fun h' => by simp at h', fun h' => absurd ⟨?_, ?_⟩ h⟩
    · exact h' ▸ a.lo_le
    · exact h' ▸ a.le_hi

theorem ofInt?_eq_none_iff {n : Int} :
    (ofInt? n : Option (Nanos lo hi)) = none ↔ n < lo ∨ hi < n := by
  unfold ofInt?
  split
  · rename_i h
    exact ⟨fun h' => by simp at h', fun h' => by omega⟩
  · rename_i h
    exact ⟨fun _ => by omega, fun _ => rfl⟩

/-- The count within the bounds that is nearest to `n`. -/
def clamp (range : lo ≤ hi) (n : Int) : Nanos lo hi :=
  if h : n < lo then ⟨lo, Int.le_refl lo, range⟩
  else if h' : hi < n then ⟨hi, range, Int.le_refl hi⟩
  else ⟨n, by omega, by omega⟩

/-- Clamping changes no count that is within the bounds already. -/
theorem clamp_val (range : lo ≤ hi) (a : Nanos lo hi) : clamp range a.val = a := by
  have := a.lo_le
  have := a.le_hi
  unfold clamp
  rw [dif_neg (by omega), dif_neg (by omega)]

end Nanos

end TaskTimer
