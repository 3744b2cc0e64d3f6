/-
TaskTimer.Proofs.Heap.Bounds — the sifts stay within the store and come to an end, on any store.

`siftUp` and `siftDown` count from 0, and a bound stands beside every access. Here the two loops
are told once more, by positions from 1, a round at a time, and without any bound: an access to a
position that the store does not have is a fault, and the round yields nothing. `Ends` says of a
loop that it comes to an end after finitely many rounds, none of them at fault, and with which
store. Nothing is assumed about the order of the store.
-/
import TaskTimer.Queue.Sift

namespace TaskTimer.Heap

variable {α : Type}

/-- The deadline at position `k`, counted from 1; nothing outside the store. -/
def dueAt? (a : Array (Entry α)) (k : Nat) : Option Instant :=
  if k = 0 then none else a[k - 1]?.map Entry.due

/-- The entries at two positions exchanged; nothing if one of them is outside the store. -/
def exchange? (a : Array (Entry α)) (j k : Nat) : Option (Array (Entry α)) :=
  if h : (0 < j ∧ j ≤ a.size) ∧ 0 < k ∧ k ≤ a.size then
    some (a.swap (j - 1) (k - 1) (by omega) (by omega))
  else none

theorem dueAt?_succ {a : Array (Entry α)} {i : Nat} (h : i < a.size) :
    dueAt? a (i + 1) = some a[i].due := by
  simp [dueAt?, h]

theorem exchange?_succ {a : Array (Entry α)} {i j : Nat} (hi : i < a.size) (hj : j < a.size) :
    exchange? a (i + 1) (j + 1) = some (a.swap i j) := by
  simp [exchange?, Nat.succ_le_of_lt hi, Nat.succ_le_of_lt hj]

/-- How a round without a fault leaves its loop. -/
inductive Round (α : Type) where
  /-- The loop is over, and the store stays as it is. -/
  | over
  /-- The loop goes on with this store, at this position. -/
  | goesOn (a : Array (Entry α)) (k : Nat)

/-- A round of moving the entry at position `k` up. -/
def roundUp (a : Array (Entry α)) (k : Nat) : Option (Round α) :=
  if k ≤ 1 then some .over
  else do
    let above ← dueAt? a (k / 2)
    let here ← dueAt? a k
    if above ≤ here then return .over
    let b ← exchange? a (k / 2) k
    return .goesOn b (k / 2)

/-- The position of the earlier child of `k`, where the left one is in the store. -/
def earlierPosition? (a : Array (Entry α)) (k : Nat) : Option Nat :=
  if 2 * k < a.size then do
    let left ← dueAt? a (2 * k)
    let right ← dueAt? a (2 * k + 1)
    return if right < left then 2 * k + 1 else 2 * k
  else some (2 * k)

/-- A round of moving the entry at position `k` down. -/
def roundDown (a : Array (Entry α)) (k : Nat) : Option (Round α) :=
  if a.size < 2 * k then some .over
  else do
    let child ← earlierPosition? a k
    let here ← dueAt? a k
    let below ← dueAt? a child
    if here ≤ below then return .over
    let b ← exchange? a k child
    return .goesOn b child

/-- From the store `a` and position `k` the loop of these rounds comes to an end, with the store
`b`, and no round on the way is at fault. -/
inductive Ends (round : Array (Entry α) → Nat → Option (Round α)) :
    Array (Entry α) → Nat → Array (Entry α) → Prop
  | over {a : Array (Entry α)} {k : Nat} : round a k = some .over → Ends round a k a
  | goesOn {a b c : Array (Entry α)} {k l : Nat} :
      round a k = some (.goesOn b l) → Ends round b l c → Ends round a k c

/-- Moving up from any position of the store stays in the store and ends as `siftUp` says. -/
theorem ends_siftUp (a : Array (Entry α)) (i : Nat) (h : i < a.size) :
    Ends roundUp a (i + 1) (siftUp a i h) := by
  fun_induction siftUp a i h with
  | case1 a h => exact .over (by simp [roundUp])
  | case2 a i h h0 hle =>
    have hp : (i + 1) / 2 = (i - 1) / 2 + 1 := by omega
    have hk : ¬ i + 1 ≤ 1 := by omega
    refine .over ?_
    rw [roundUp, if_neg hk, hp, dueAt?_succ (by omega), dueAt?_succ h]
    simp [hle]
  | case3 a i h h0 hlt ih =>
    have hp : (i + 1) / 2 = (i - 1) / 2 + 1 := by omega
    have hk : ¬ i + 1 ≤ 1 := by omega
    refine .goesOn ?_ ih
    rw [roundUp, if_neg hk, hp, dueAt?_succ (by omega), dueAt?_succ h]
    simp [hlt, exchange?_succ (show (i - 1) / 2 < a.size by omega) h]

theorem earlierPosition?_succ (a : Array (Entry α)) (i : Nat) (h : 2 * i + 1 < a.size) :
    earlierPosition? a (i + 1) = some (earlierChild a i h + 1) := by
  have hl : 2 * (i + 1) = 2 * i + 1 + 1 := by omega
  have hr : 2 * (i + 1) + 1 = 2 * i + 2 + 1 := by omega
  unfold earlierPosition? earlierChild
  by_cases h' : 2 * i + 2 < a.size
  · rw [if_pos (show 2 * (i + 1) < a.size by omega), dif_pos h', hr, hl, dueAt?_succ h,
      dueAt?_succ h']
    simp only [Option.bind_eq_bind, Option.bind_some]
    split <;> rfl
  · rw [if_neg (show ¬ 2 * (i + 1) < a.size by omega), dif_neg h', hl]

/-- Moving down from any position, in the store or past its end, stays in the store and ends as
`siftDown` says. -/
theorem ends_siftDown (a : Array (Entry α)) (i : Nat) :
    Ends roundDown a (i + 1) (siftDown a i) := by
  fun_induction siftDown a i with
  | case1 a i h c hc hle =>
    have hi : i < a.size := by omega
    have goes : ¬ a.size < 2 * (i + 1) := by omega
    refine .over ?_
    rw [roundDown, if_neg goes, earlierPosition?_succ a i h, dueAt?_succ hi]
    have hle' : a[i].due ≤ a[earlierChild a i h].due := hle
    simp [dueAt?_succ (earlierChild_lt a i h), hle']
  | case2 a i h c hc hlt ih =>
    have hi : i < a.size := by omega
    have goes : ¬ a.size < 2 * (i + 1) := by omega
    refine .goesOn ?_ ih
    rw [roundDown, if_neg goes, earlierPosition?_succ a i h, dueAt?_succ hi]
    have hlt' : ¬ a[i].due ≤ a[earlierChild a i h].due := hlt
    simp [dueAt?_succ (earlierChild_lt a i h), hlt', exchange?_succ hi hc, c]
  | case3 a i h =>
    have none_below : a.size < 2 * (i + 1) := by omega
    exact .over (by rw [roundDown, if_pos none_below])

end TaskTimer.Heap
