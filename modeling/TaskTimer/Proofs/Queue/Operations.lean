/-
TaskTimer.Proofs.Queue.Operations — what each operation of a queue does to its order and content.

`Queue.IsHeap` is the order by positions counted from 1: no entry is due before the one at half
its position. For each operation there are two statements: from a heap it leads to a heap
(`isHeap_push`, `isHeap_postponeMin`, …), and its content is the former one with exactly the
entries added, taken out or given a new deadline that the operation names (`toList_push`,
`toList_postponeMin`, …). Content is told by `List.Perm`, so the layout of the store is left
open.
-/
import TaskTimer.Proofs.Heap.Path

namespace TaskTimer.Queue

variable {α σ : Type}

/-- No entry is due before the one at half its position. -/
def IsHeap (q : Queue α) : Prop :=
  ∀ (k : Nat) (above below : Entry α), 2 ≤ k → q.get? (k / 2) = some above →
    q.get? k = some below → above.due ≤ below.due

theorem get?_succ (q : Queue α) (i : Nat) : q.get? (i + 1) = q.entries[i]? := rfl

theorem isHeap_iff {q : Queue α} : q.IsHeap ↔ Heap.Ordered q.entries := by
  constructor
  · intro h i hi h0
    refine h (i + 1) _ _ (by omega) ?_ ?_
    · rw [show (i + 1) / 2 = (i - 1) / 2 + 1 by omega, get?_succ]
      exact Array.getElem?_eq_getElem _
    · rw [get?_succ]
      exact Array.getElem?_eq_getElem _
  · intro h k above below hk ha hb
    obtain ⟨i, rfl⟩ : ∃ i, k = i + 1 := ⟨k - 1, by omega⟩
    rw [show (i + 1) / 2 = (i - 1) / 2 + 1 by omega, get?_succ] at ha
    rw [get?_succ] at hb
    obtain ⟨hi, rfl⟩ := Array.getElem?_eq_some_iff.1 hb
    obtain ⟨_, rfl⟩ := Array.getElem?_eq_some_iff.1 ha
    exact h i hi (by omega)

/-! ## The empty queue, and the root -/

@[simp] theorem toList_empty : (empty : Queue α).toList = [] := rfl

theorem isHeap_empty : (empty : Queue α).IsHeap := by
  rw [isHeap_iff]
  intro i hi
  simp [empty] at hi

theorem peek_eq_head? (q : Queue α) : q.peek = q.toList.head? := by
  rw [List.head?_eq_getElem?, toList, Array.getElem?_toList, peek]

theorem peek_eq_none_iff {q : Queue α} : q.peek = none ↔ q.toList = [] := by
  rw [peek_eq_head?, List.head?_eq_none_iff]

theorem toList_of_peek {q : Queue α} {head : Entry α} (h : q.peek = some head) :
    ∃ rest, q.toList = head :: rest := by
  rwa [peek_eq_head?, List.head?_eq_some_iff] at h

theorem mem_of_peek {q : Queue α} {head : Entry α} (h : q.peek = some head) :
    head ∈ q.toList := by
  obtain ⟨rest, hrest⟩ := toList_of_peek h
  simp [hrest]

/-- The root is due first. -/
theorem IsHeap.due_le {q : Queue α} (hq : q.IsHeap) {head : Entry α} (h : q.peek = some head)
    {e : Entry α} (he : e ∈ q.toList) : head.due ≤ e.due := by
  obtain ⟨h0, rfl⟩ := Array.getElem?_eq_some_iff.1 h
  obtain ⟨i, hi, rfl⟩ := Array.mem_iff_getElem.1 (Array.mem_toList_iff.1 he)
  exact (isHeap_iff.1 hq).due_le hi

/-! ## Adding an entry -/

theorem toList_push (q : Queue α) (due : Instant) (item : α) :
    (q.push due item).toList.Perm (⟨due, item⟩ :: q.toList) := by
  refine (Heap.siftUp_perm _ _ _).trans ?_
  rw [Array.toList_push]
  exact List.perm_append_singleton _ _

theorem isHeap_push {q : Queue α} (hq : q.IsHeap) (due : Instant) (item : α) :
    (q.push due item).IsHeap :=
  isHeap_iff.2 (Heap.ordered_siftUp _ ((isHeap_iff.1 hq).push ⟨due, item⟩))

/-- An entry that is not earlier than the root leaves it in its place. -/
theorem peek_push_of_le {q : Queue α} {head : Entry α} (h : q.peek = some head) {due : Instant}
    (hle : head.due ≤ due) (item : α) : (q.push due item).peek = some head := by
  obtain ⟨h0, rfl⟩ := Array.getElem?_eq_some_iff.1 h
  have old : getElem (q.entries.push ⟨due, item⟩) 0 (by simp) = q.entries[0] :=
    Array.getElem_push_lt h0
  show (Heap.siftUp _ _ _)[0]? = _
  rw [Heap.getElem?_zero_siftUp _ (Nat.ne_of_gt h0), Array.getElem?_eq_getElem (by simp), old]
  rw [old, Array.getElem_push_eq]
  exact hle

/-- An entry that is earlier than all others becomes the root. -/
theorem peek_push_of_lt {q : Queue α} (hq : q.IsHeap) {due : Instant}
    (hlt : ∀ e ∈ q.toList, due < e.due) (item : α) :
    (q.push due item).peek = some ⟨due, item⟩ := by
  have content := toList_push q due item
  cases hpeek : (q.push due item).peek with
  | none =>
    rw [peek_eq_none_iff.1 hpeek] at content
    exact absurd content.symm.eq_nil (List.cons_ne_nil _ _)
  | some root =>
    have first : root.due ≤ due :=
      (isHeap_push hq due item).due_le hpeek (content.mem_iff.2 List.mem_cons_self)
    rcases List.mem_cons.1 (content.mem_iff.1 (mem_of_peek hpeek)) with rfl | hold
    · rfl
    · exact absurd first (Std.not_le.2 (hlt root hold))

/-! ## Taking out the root -/

theorem toList_dropMin {q : Queue α} {head : Entry α} (h : q.peek = some head) :
    q.toList.Perm (head :: q.dropMin.toList) := by
  obtain ⟨h0, hd⟩ := Array.getElem?_eq_some_iff.1 h
  have hdrop : q.dropMin = ⟨Heap.siftDown (Heap.removeAt q.entries 0 h0) 0⟩ := by
    rw [dropMin, pop, dif_pos h0]
  rw [hdrop, ← hd]
  exact (Heap.removeAt_perm q.entries 0 h0).symm.trans ((Heap.siftDown_perm _ _).symm.cons _)

theorem isHeap_dropMin {q : Queue α} (hq : q.IsHeap) : q.dropMin.IsHeap := by
  unfold dropMin pop
  split
  · next rest heq =>
    split at heq
    · next h0 =>
      obtain ⟨-, rfl⟩ := Prod.mk.inj (Option.some.inj heq)
      have ordered := isHeap_iff.1 hq
      refine isHeap_iff.2 (Heap.ordered_siftDown_zero fun i hi hp => ?_)
      rw [Heap.size_removeAt] at hi
      simp only [Heap.removeAt, Array.getElem_pop]
      rw [Array.getElem_swap_of_ne (by omega) (by omega),
        Array.getElem_swap_of_ne (by omega) (by omega)]
      exact ordered i (by omega) (by omega)
    · cases heq
  · exact hq

/-! ## A later deadline for the root -/

/-- A deadline that is not earlier is never refused. -/
theorem exists_postponeMin_of_le {q : Queue α} {head : Entry α} (h : q.peek = some head)
    {due : Instant} (hle : head.due ≤ due) : ∃ q', q.postponeMin due = .ok q' := by
  obtain ⟨h0, rfl⟩ := Array.getElem?_eq_some_iff.1 h
  exact ⟨_, by rw [postponeMin, dif_pos h0, if_neg (Std.not_lt.2 hle)]⟩

theorem toList_postponeMin {q q' : Queue α} {head : Entry α} (h : q.peek = some head)
    {due : Instant} (hq' : q.postponeMin due = .ok q') :
    ∃ rest, q.toList = head :: rest ∧ q'.toList.Perm ({ head with due := due } :: rest) := by
  obtain ⟨h0, rfl⟩ := Array.getElem?_eq_some_iff.1 h
  obtain ⟨rest, hrest⟩ := toList_of_peek h
  refine ⟨rest, hrest, ?_⟩
  rw [postponeMin, dif_pos h0] at hq'
  split at hq'
  · cases hq'
  · obtain rfl := Except.ok.inj hq'
    have hset : (q.entries.set 0 { q.entries[0] with due := due }).toList =
        { q.entries[0] with due := due } :: rest := by
      rw [Array.toList_set, show q.entries.toList = q.entries[0] :: rest from hrest,
        List.set_cons_zero]
    exact hset ▸ Heap.siftDown_perm _ _

theorem isHeap_postponeMin {q q' : Queue α} (hq : q.IsHeap) {due : Instant}
    (hq' : q.postponeMin due = .ok q') : q'.IsHeap := by
  unfold postponeMin at hq'
  split at hq'
  · next h0 =>
    split at hq'
    · cases hq'
    · obtain rfl := Except.ok.inj hq'
      have ordered := isHeap_iff.1 hq
      refine isHeap_iff.2 (Heap.ordered_siftDown_zero fun i hi hp => ?_)
      rw [Array.size_set] at hi
      rw [Array.getElem_set_ne _ _ (by omega), Array.getElem_set_ne _ _ (by omega)]
      exact ordered i hi (by omega)
  · obtain rfl := Except.ok.inj hq'
    exact hq

/-! ## Purging -/

/-- What a purge takes out and what it leaves are together what there was. -/
theorem toList_purgeWith (test : α → σ → Bool × σ) (s : σ) (q : Queue α) :
    ((q.purgeWith test s).1 ++ (q.purgeWith test s).2.1.toList).Perm q.toList := by
  let scan := scanBack test q.entries.size q.entries (Nat.le_refl _) s
  let left : Queue α := ⟨scan.entries⟩
  have content : (scan.removed ++ left.toList).Perm q.toList := scanBack_perm _ _ _ _ _
  show (scan.removed ++ (if scan.removed.isEmpty then left else left.heapify).toList).Perm _
  split
  · exact content
  · exact ((Heap.heapify_perm left.entries).append_left _).trans content

/-- A purge asks about the entries from the last one back. -/
theorem purgeWith_sieve (test : α → σ → Bool × σ) (s : σ) (q : Queue α) :
    (q.purgeWith test s).1 = (sieve test q.toList.reverse s).1 ∧
      (q.purgeWith test s).2.1.toList.Perm (sieve test q.toList.reverse s).2 := by
  have removed : (q.purgeWith test s).1 = (sieve test q.toList.reverse s).1 := by
    have whole : q.entries.toList.take q.entries.size = q.toList :=
      List.take_of_length_le (Nat.le_of_eq Array.length_toList)
    show (scanBack test q.entries.size q.entries _ s).removed = _
    rw [removed_scanBack, whole]
  refine ⟨removed, ?_⟩
  have content := toList_purgeWith test s q
  have asked := (sieve_perm test q.toList.reverse s).trans (List.reverse_perm q.toList)
  rw [removed] at content
  exact (List.perm_append_left_iff _).1 (content.trans asked.symm)

/-- What a purge takes out and what it leaves, by the test. -/
theorem purge_perm (p : α → Bool) (q : Queue α) :
    (q.purge p).1.Perm (q.toList.filter fun e => p e.item) ∧
      (q.purge p).2.toList.Perm (q.toList.filter fun e => !p e.item) := by
  obtain ⟨removed, left⟩ := purgeWith_sieve (plainTest p) () q
  rw [sieve_plainTest] at removed left
  refine ⟨?_, left.trans ((List.reverse_perm q.toList).filter _)⟩
  show (q.purgeWith (plainTest p) ()).1.Perm _
  rw [removed]
  exact (List.reverse_perm q.toList).filter _

theorem isHeap_heapify (q : Queue α) : q.heapify.IsHeap :=
  isHeap_iff.2 (Heap.ordered_heapify q.entries)

theorem isHeap_purgeWith {q : Queue α} (hq : q.IsHeap) (test : α → σ → Bool × σ)
    (s : σ) : (q.purgeWith test s).2.1.IsHeap := by
  let scan := scanBack test q.entries.size q.entries (Nat.le_refl _) s
  let left : Queue α := ⟨scan.entries⟩
  show (if scan.removed.isEmpty then left else left.heapify).IsHeap
  split
  · next hnil =>
    have same : scan.entries = q.entries :=
      entries_scanBack_of_removed_eq_nil _ _ _ _ _ (List.isEmpty_iff.1 hnil)
    rw [show left = q from congrArg Queue.mk same]
    exact hq
  · exact isHeap_heapify left

theorem isHeap_purge {q : Queue α} (hq : q.IsHeap) (p : α → Bool) : (q.purge p).2.IsHeap :=
  isHeap_purgeWith hq (plainTest p) ()

end TaskTimer.Queue
