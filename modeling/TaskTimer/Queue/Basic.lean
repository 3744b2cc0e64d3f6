/-
TaskTimer.Queue.Basic — a queue of entries by deadline.

A `Queue` is a binary heap whose root is due first. `push`, `pop` and `postponeMin` repair
the order along one path. `extractRaw` repairs nothing, so that many removals can share one
`heapify` at their end; `purge` is that combination for all entries of a kind. Positions, where
a caller names one, count from 1.

Entries with equal deadlines leave in an order that depends on the layout of the store, which
is why the store is an array and not a set: two queues with the same entries may answer
differently.
-/
import TaskTimer.Queue.Sift

namespace TaskTimer

/-- Entries ordered by deadline, in the layout of a binary heap. -/
structure Queue (α : Type) where
  entries : Array (Entry α)
deriving DecidableEq

/-- Why the entry at the root cannot be given a new deadline. -/
inductive PostponeError where
  /-- The new deadline is before the present one, and a sift down would not repair that. -/
  | movedEarlier
deriving DecidableEq

/-- The text of the failed check. -/
def PostponeError.message : PostponeError → String
  | .movedEarlier => "reschedule_min moved the deadline earlier"

namespace Queue

variable {α σ : Type}

/-- The queue that holds nothing. -/
def empty : Queue α := ⟨#[]⟩

/-- How many entries there are. -/
def size (q : Queue α) : Nat := q.entries.size

/-- Whether there is no entry. -/
def isEmpty (q : Queue α) : Bool := q.entries.isEmpty

/-- The entry at the root, which is due first. -/
def peek (q : Queue α) : Option (Entry α) := q.entries[0]?

/-- The entry at position `k`, counted from 1. -/
def get? (q : Queue α) (k : Nat) : Option (Entry α) :=
  if k = 0 then none else q.entries[k - 1]?

/-- Adds an entry and sifts it up to its place. -/
def push (q : Queue α) (due : Instant) (item : α) : Queue α :=
  ⟨Heap.siftUp (q.entries.push ⟨due, item⟩) q.entries.size (by simp)⟩

/-- Takes out the root; the last entry takes its place and is sifted down. -/
def pop (q : Queue α) : Option (Entry α × Queue α) :=
  if h : 0 < q.entries.size then
    some (q.entries[0], ⟨Heap.siftDown (Heap.removeAt q.entries 0 h) 0⟩)
  else none

/-- Gives the root a deadline that is not earlier than its own, and sifts it down. An empty
queue stays as it is. -/
def postponeMin (q : Queue α) (due : Instant) : Except PostponeError (Queue α) :=
  if h : 0 < q.entries.size then
    if due < q.entries[0].due then .error .movedEarlier
    else .ok ⟨Heap.siftDown (q.entries.set 0 { q.entries[0] with due := due }) 0⟩
  else .ok q

/-- Takes out the entry at position `k`, counted from 1; the last entry fills the hole and the
heap is not repaired. -/
def extractRaw (q : Queue α) (k : Nat) : Option (Entry α × Queue α) :=
  if h : 0 < k ∧ k ≤ q.entries.size then
    some (q.entries[k - 1], ⟨Heap.removeAt q.entries (k - 1) (by omega)⟩)
  else none

/-- Restores the heap order of any store. -/
def heapify (q : Queue α) : Queue α := ⟨Heap.heapify q.entries⟩

/-- All entries, in the order in which they are stored. -/
def toList (q : Queue α) : List (Entry α) := q.entries.toList

/-- What a scan for unwanted entries leaves behind. -/
structure Scan (α σ : Type) where
  /-- The entries that stay, with the holes filled. -/
  entries : Array (Entry α)
  /-- The entries taken out, in the order in which that happened. -/
  removed : List (Entry α)
  /-- What the test carries from one answer to the next. -/
  memory : σ

/-- Asks `test` about the first `k` entries, the last of them first, and takes out those it is
true of. The entry that fills a hole comes from further back, so it has been asked about. The
test may remember what it has seen, and so answer differently each time. -/
def scanBack (test : α → σ → Bool × σ) :
    (k : Nat) → (a : Array (Entry α)) → k ≤ a.size → σ → Scan α σ
  | 0, a, _, s => ⟨a, [], s⟩
  | k + 1, a, h, s =>
    match test a[k].item s with
    | (true, s') =>
      let rest := scanBack test k (Heap.removeAt a k h)
        (by rw [Heap.size_removeAt]; omega) s'
      { rest with removed := a[k] :: rest.removed }
    | (false, s') => scanBack test k a (by omega) s'

/-- Takes out every entry that `test` is true of, and restores the heap order if there was one.
The result is the entries removed, the queue that is left and the test's memory. -/
def purgeWith (test : α → σ → Bool × σ) (s : σ) (q : Queue α) :
    List (Entry α) × Queue α × σ :=
  let scan := scanBack test q.entries.size q.entries (Nat.le_refl _) s
  let left : Queue α := ⟨scan.entries⟩
  (scan.removed, if scan.removed.isEmpty then left else left.heapify, scan.memory)

/-- Takes out every entry whose item satisfies `p`. -/
def purge (p : α → Bool) (q : Queue α) : List (Entry α) × Queue α :=
  let (removed, left, _) := q.purgeWith (fun item (_ : Unit) => (p item, ())) ()
  (removed, left)

/-- The queue without its root, or the empty queue. -/
def dropMin (q : Queue α) : Queue α :=
  match q.pop with
  | some (_, rest) => rest
  | none => q

theorem size_of_pop {q rest : Queue α} {e : Entry α} (h : q.pop = some (e, rest)) :
    rest.size + 1 = q.size := by
  unfold pop at h
  split at h
  · obtain ⟨-, rfl⟩ := Prod.mk.inj (Option.some.inj h)
    simp only [size, Heap.size_siftDown, Heap.size_removeAt]
    omega
  · simp at h

/-- The entries in the order in which popping until nothing is left hands them out. -/
def drain (q : Queue α) : List (Entry α) :=
  match _h : q.pop with
  | some (e, rest) => e :: rest.drain
  | none => []
termination_by q.size
decreasing_by
  have := size_of_pop _h
  omega

theorem size_push (q : Queue α) (due : Instant) (item : α) :
    (q.push due item).size = q.size + 1 := by
  simp [push, size, Heap.size_siftUp]

theorem size_heapify (q : Queue α) : q.heapify.size = q.size :=
  Heap.size_heapify q.entries

end Queue

end TaskTimer
