/-
TaskTimer.Queue.Sift — bringing one entry of a binary heap to its place.

The store is an array read as a binary tree: the children of index `i` are `2 * i + 1` and
`2 * i + 2`, and its parent is `(i - 1) / 2`. `siftUp` and `siftDown` exchange one entry with
its parent or with its earlier child until the deadlines are in order along the way. Neither
asks for the rest of the store to be in order, and neither looks beyond it: both are defined
on every array.

An entry moves only past a strictly later one, so equal deadlines never overtake each other.
-/
import TaskTimer.Time.Instant

namespace TaskTimer

/-- Something to be done and the instant it is due. -/
structure Entry (α : Type) where
  due : Instant
  item : α
deriving DecidableEq

namespace Heap

variable {α : Type}

/-- Exchanges the entry at `i` with its parent until the parent is not the later of the two. -/
def siftUp (a : Array (Entry α)) (i : Nat) (h : i < a.size) : Array (Entry α) :=
  if h0 : i = 0 then a
  else if a[(i - 1) / 2].due ≤ a[i].due then a
  else siftUp (a.swap ((i - 1) / 2) i) ((i - 1) / 2) (by simp only [Array.size_swap]; omega)
termination_by i
decreasing_by omega

/-- The child of `i` with the earlier deadline, and the left one of two equals. -/
def earlierChild (a : Array (Entry α)) (i : Nat) (h : 2 * i + 1 < a.size) : Nat :=
  if h' : 2 * i + 2 < a.size then
    if a[2 * i + 2].due < a[2 * i + 1].due then 2 * i + 2 else 2 * i + 1
  else 2 * i + 1

theorem earlierChild_eq_or (a : Array (Entry α)) (i : Nat) (h : 2 * i + 1 < a.size) :
    earlierChild a i h = 2 * i + 1 ∨ earlierChild a i h = 2 * i + 2 := by
  unfold earlierChild
  split
  · split
    · exact .inr rfl
    · exact .inl rfl
  · exact .inl rfl

theorem earlierChild_lt (a : Array (Entry α)) (i : Nat) (h : 2 * i + 1 < a.size) :
    earlierChild a i h < a.size := by
  unfold earlierChild
  split
  · split <;> omega
  · exact h

theorem lt_earlierChild (a : Array (Entry α)) (i : Nat) (h : 2 * i + 1 < a.size) :
    i < earlierChild a i h := by
  cases earlierChild_eq_or a i h <;> omega

/-- Exchanges the entry at `i` with its earlier child until that child is not the earlier of the
two, or there is none. -/
def siftDown (a : Array (Entry α)) (i : Nat) : Array (Entry α) :=
  if h : 2 * i + 1 < a.size then
    let c := earlierChild a i h
    have hc : c < a.size := earlierChild_lt a i h
    if a[i].due ≤ a[c].due then a
    else siftDown (a.swap i c) c
  else a
termination_by a.size - i
decreasing_by
  have := lt_earlierChild a i h
  have := earlierChild_lt a i h
  simp only [Array.size_swap]
  omega

theorem size_siftUp (a : Array (Entry α)) (i : Nat) (h : i < a.size) :
    (siftUp a i h).size = a.size := by
  fun_induction siftUp a i h with
  | case1 => rfl
  | case2 => rfl
  | case3 a i h h0 hlt ih => rw [ih, Array.size_swap]

theorem size_siftDown (a : Array (Entry α)) (i : Nat) : (siftDown a i).size = a.size := by
  fun_induction siftDown a i with
  | case1 => rfl
  | case2 a i h c hc hlt ih => rw [ih, Array.size_swap]
  | case3 => rfl

/-- Takes out the entry at `i`; the last entry fills its place, and nothing else moves. -/
def removeAt (a : Array (Entry α)) (i : Nat) (h : i < a.size) : Array (Entry α) :=
  (a.swap i (a.size - 1)).pop

theorem size_removeAt (a : Array (Entry α)) (i : Nat) (h : i < a.size) :
    (removeAt a i h).size = a.size - 1 := by
  simp only [removeAt, Array.size_pop, Array.size_swap]

/-- Sifts down the entries at the first `k` indices, the last of them first. -/
def siftDownFirst : (k : Nat) → Array (Entry α) → Array (Entry α)
  | 0, a => a
  | k + 1, a => siftDownFirst k (siftDown a k)

/-- Brings a store in any order into heap order. Only the first half has children. -/
def heapify (a : Array (Entry α)) : Array (Entry α) :=
  siftDownFirst (a.size / 2) a

theorem size_siftDownFirst (k : Nat) (a : Array (Entry α)) :
    (siftDownFirst k a).size = a.size := by
  induction k generalizing a with
  | zero => rfl
  | succ k ih => rw [siftDownFirst, ih, size_siftDown]

theorem size_heapify (a : Array (Entry α)) : (heapify a).size = a.size :=
  size_siftDownFirst _ a

end Heap

end TaskTimer
