/-
TaskTimer.Table — a row for every natural number.

A table stores finitely many rows; every other row is blank. So a look-up always has an answer,
and all that there is to know of a table is `get_set`: a row holds what was last put there.
-/

namespace TaskTimer

/-- Rows for all natural numbers, of which finitely many are stored. -/
structure Table (α : Type) where
  /-- What a row holds that was never set. -/
  blank : α
  rows : Array α := #[]

namespace Table

variable {α : Type}

/-- What row `i` holds. -/
def get (t : Table α) (i : Nat) : α := t.rows[i]?.getD t.blank

/-- The rows, with blank ones added so that there are at least `n`. -/
def padTo (t : Table α) (n : Nat) : Array α :=
  t.rows ++ Array.replicate (n - t.rows.size) t.blank

/-- Puts `a` into row `i`. -/
def set (t : Table α) (i : Nat) (a : α) : Table α :=
  if i < t.rows.size then { t with rows := t.rows.setIfInBounds i a }
  else { t with rows := (t.padTo i).push a }

theorem get_set (t : Table α) (i j : Nat) (a : α) :
    (t.set i a).get j = if j = i then a else t.get j := by
  unfold set
  split
  · rename_i h
    simp only [get, Array.getElem?_setIfInBounds]
    by_cases hj : j = i
    · subst hj; simp [h]
    · rw [if_neg (fun e => hj e.symm), if_neg hj]
  · rename_i h
    simp only [get, padTo, Array.getElem?_push, Array.getElem?_append, Array.size_append,
      Array.size_replicate, Array.getElem?_replicate]
    by_cases hj : j = i
    · subst hj
      rw [if_pos (by omega), if_pos rfl, Option.getD_some]
    · rw [if_neg (by omega), if_neg hj]
      by_cases hs : j < t.rows.size
      · rw [if_pos hs]
      · rw [if_neg hs, Array.getElem?_eq_none (by omega)]
        split <;> rfl

/-- What was in a row that is set does not matter. -/
theorem set_set (t : Table α) (i : Nat) (a b : α) : (t.set i a).set i b = t.set i b := by
  by_cases h : i < t.rows.size
  · simp [set, h]
  · have hsize : (t.padTo i).size = i := by
      simp only [padTo, Array.size_append, Array.size_replicate]
      omega
    simp only [set, if_neg h, Array.size_push, hsize, Nat.lt_succ_self, if_true]
    congr 1
    refine Array.ext (by simp) fun j hj _ => ?_
    simp only [Array.size_setIfInBounds, Array.size_push, hsize] at hj
    rw [Array.getElem_setIfInBounds (by simpa [hsize] using hj), Array.getElem_push,
      Array.getElem_push]
    split
    · rw [dif_neg (by omega)]
    · rw [dif_pos (by omega), dif_pos (by omega)]

end Table

end TaskTimer
