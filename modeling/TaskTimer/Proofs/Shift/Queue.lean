/-
TaskTimer.Proofs.Shift.Queue — the layout of a queue follows from the differences of its deadlines.

Two stores are `Heap.Shifted` that hold the same items at the same indices, with deadlines that
differ by a constant. The sifts only compare deadlines with each other, so they exchange the same
entries in both stores; an operation of a queue that is given shifted deadlines leads to shifted
queues, and hands out the same items.
-/
import Mathlib.Data.List.Forall2
import TaskTimer.Proofs.Queue.Operations
import TaskTimer.Proofs.Shift.Readings

namespace TaskTimer

variable {α σ : Type} {c : Int}

/-- The same item, due `c` later. -/
structure Entry.Shifted (c : Int) (e e' : Entry α) : Prop where
  item : e'.item = e.item
  due : e.due.Shifted c e'.due

theorem Entry.Shifted.eq_of_zero {e e' : Entry α} (h : e.Shifted 0 e') : e' = e := by
  have hitem := h.item
  have hdue := Nanos.Shifted.zero_iff.1 h.due
  cases e
  cases e'
  simp_all

namespace Heap

/-- The same items at the same indices, all due `c` later. -/
structure Shifted (c : Int) (a b : Array (Entry α)) : Prop where
  size : b.size = a.size
  entry : ∀ (i : Nat) (h : i < a.size) (h' : i < b.size), a[i].Shifted c b[i]

namespace Shifted

variable {a b : Array (Entry α)}

theorem swap (h : Shifted c a b) {i j : Nat} (hi : i < a.size) (hj : j < a.size)
    (hi' : i < b.size) (hj' : j < b.size) : Shifted c (a.swap i j) (b.swap i j) := by
  constructor
  · rw [Array.size_swap, Array.size_swap, h.size]
  · intro k hk hk'
    simp only [Array.getElem_swap]
    split
    · exact h.entry j hj hj'
    · split
      · exact h.entry i hi hi'
      · exact h.entry k (by simpa using hk) (by simpa using hk')

theorem push (h : Shifted c a b) {e e' : Entry α} (he : e.Shifted c e') :
    Shifted c (a.push e) (b.push e') := by
  constructor
  · rw [Array.size_push, Array.size_push, h.size]
  · intro k hk hk'
    simp only [Array.getElem_push, h.size]
    split
    · exact h.entry k _ _
    · exact he

theorem pop (h : Shifted c a b) : Shifted c a.pop b.pop := by
  constructor
  · rw [Array.size_pop, Array.size_pop, h.size]
  · intro k hk hk'
    rw [Array.getElem_pop, Array.getElem_pop]
    exact h.entry k _ _

theorem set (h : Shifted c a b) {i : Nat} (hi : i < a.size) (hi' : i < b.size)
    {e e' : Entry α} (he : e.Shifted c e') : Shifted c (a.set i e) (b.set i e') := by
  constructor
  · rw [Array.size_set, Array.size_set, h.size]
  · intro k hk hk'
    rw [Array.getElem_set, Array.getElem_set]
    split
    · exact he
    · exact h.entry k _ _

/-- The same entries are in order. -/
theorem due_le_iff (h : Shifted c a b) {i j : Nat} (hi : i < a.size) (hj : j < a.size)
    (hi' : i < b.size) (hj' : j < b.size) : b[i].due ≤ b[j].due ↔ a[i].due ≤ a[j].due :=
  (h.entry i hi hi').due.le_iff (h.entry j hj hj').due

theorem removeAt (h : Shifted c a b) {i : Nat} (hi : i < a.size) (hi' : i < b.size) :
    Shifted c (removeAt a i hi) (removeAt b i hi') := by
  unfold Heap.removeAt
  simp only [h.size]
  exact (h.swap hi _ hi' _).pop

theorem earlierChild_eq (h : Shifted c a b) {i : Nat} (hi : 2 * i + 1 < a.size)
    (hi' : 2 * i + 1 < b.size) : earlierChild b i hi' = earlierChild a i hi := by
  unfold earlierChild
  by_cases hright : 2 * i + 2 < a.size
  · have hright' : 2 * i + 2 < b.size := h.size ▸ hright
    have hlt := (h.entry _ hright hright').due.lt_iff (h.entry _ hi hi').due
    simp only [hright, hright', dif_pos, hlt]
  · have hright' : ¬ 2 * i + 2 < b.size := h.size ▸ hright
    rw [dif_neg hright, dif_neg hright']

/-- The same entries are in order with their earlier child. -/
theorem due_le_earlierChild_iff (h : Shifted c a b) {i : Nat} (hi : 2 * i + 1 < a.size)
    (hi' : 2 * i + 1 < b.size) :
    b[i].due ≤ (getElem b (earlierChild b i hi') (earlierChild_lt b i hi')).due ↔
      a[i].due ≤ (getElem a (earlierChild a i hi) (earlierChild_lt a i hi)).due := by
  simp only [h.earlierChild_eq hi hi']
  exact h.due_le_iff _ _ _ _

theorem siftUp (h : Shifted c a b) {i : Nat} (hi : i < a.size) (hi' : i < b.size) :
    Shifted c (siftUp a i hi) (siftUp b i hi') := by
  fun_induction Heap.siftUp a i hi generalizing b with
  | case1 a h0 =>
    rw [Heap.siftUp, dif_pos rfl]
    exact h
  | case2 a i hi h0 hle =>
    have hle' := (h.due_le_iff _ hi (parent_lt b hi') hi').2 hle
    have stays : Heap.siftUp b i hi' = b := by rw [Heap.siftUp, dif_neg h0, if_pos hle']
    rw [stays]
    exact h
  | case3 a i hi h0 hnot ih =>
    have hnot' := mt (h.due_le_iff _ hi (parent_lt b hi') hi').1 hnot
    have rises : Heap.siftUp b i hi' = Heap.siftUp (b.swap ((i - 1) / 2) i) ((i - 1) / 2)
        (by rw [Array.size_swap]; exact parent_lt b hi') := by
      rw [Heap.siftUp, dif_neg h0, if_neg hnot']
    rw [rises]
    exact ih (h.swap _ _ _ _) _

theorem siftDown {a b : Array (Entry α)} (h : Shifted c a b) (i : Nat) :
    Shifted c (siftDown a i) (siftDown b i) := by
  by_cases hchild : 2 * i + 1 < a.size
  · have hchild' : 2 * i + 1 < b.size := h.size ▸ hchild
    have hiff := h.due_le_earlierChild_iff hchild hchild'
    have hlt := earlierChild_lt a i hchild
    have hdown := lt_earlierChild a i hchild
    by_cases hle : a[i].due ≤ (getElem a (earlierChild a i hchild) hlt).due
    · rw [siftDown_of_le hchild hle, siftDown_of_le hchild' (hiff.2 hle)]
      exact h
    · -- the same child is lifted in both stores, so they are shifted again
      rw [siftDown_of_not_le hchild hle, siftDown_of_not_le hchild' (mt hiff.1 hle)]
      simp only [h.earlierChild_eq hchild hchild']
      exact siftDown (h.swap _ _ _ _) _
  · rw [siftDown_of_no_child hchild, siftDown_of_no_child (h.size ▸ hchild)]
    exact h
termination_by a.size - i
decreasing_by
  simp only [Array.size_swap]
  omega

theorem siftDownFirst (h : Shifted c a b) (k : Nat) :
    Shifted c (siftDownFirst k a) (siftDownFirst k b) := by
  induction k generalizing a b with
  | zero => exact h
  | succ k ih => exact ih (h.siftDown k)

theorem heapify (h : Shifted c a b) : Shifted c (heapify a) (heapify b) := by
  unfold Heap.heapify
  rw [h.size]
  exact h.siftDownFirst _

end Shifted

end Heap

namespace Queue

/-- The same layout, with all deadlines `c` later. -/
def Shifted (c : Int) (q q' : Queue α) : Prop := Heap.Shifted c q.entries q'.entries

namespace Shifted

variable {q q' : Queue α} {due due' : Instant}

theorem empty : (empty : Queue α).Shifted c .empty := by
  constructor
  · rfl
  · intro i h
    simp [Queue.empty] at h

theorem size_eq (h : q.Shifted c q') : q'.size = q.size := h.size

/-- Without a shift the queue is the same. -/
theorem eq_of_zero (h : q.Shifted 0 q') : q' = q := by
  refine congrArg Queue.mk (Array.ext h.size fun i hi' hi => ?_)
  exact (h.entry i hi hi').eq_of_zero

theorem peek (h : q.Shifted c q') : Option.Rel (Entry.Shifted c) q.peek q'.peek := by
  unfold Queue.peek
  by_cases h0 : 0 < q.entries.size
  · rw [Array.getElem?_eq_getElem h0, Array.getElem?_eq_getElem (h.size ▸ h0)]
    exact .some (h.entry 0 _ _)
  · rw [Array.getElem?_eq_none (Nat.le_of_not_lt h0),
      Array.getElem?_eq_none (Nat.le_of_not_lt (h.size ▸ h0))]
    exact .none

theorem peek_eq_none_iff (h : q.Shifted c q') : q'.peek = none ↔ q.peek = none := by
  have hpeek := h.peek
  generalize q.peek = head, q'.peek = head' at hpeek ⊢
  cases hpeek <;> simp

theorem push (h : q.Shifted c q') (hdue : due.Shifted c due') (item : α) :
    (q.push due item).Shifted c (q'.push due' item) := by
  have entry : Entry.Shifted c ⟨due, item⟩ ⟨due', item⟩ := ⟨rfl, hdue⟩
  have pushed := Heap.Shifted.push h entry
  unfold Shifted Queue.push
  simp only [h.size]
  exact pushed.siftUp _ _

theorem dropMin (h : q.Shifted c q') : q.dropMin.Shifted c q'.dropMin := by
  unfold Queue.dropMin Queue.pop
  by_cases h0 : 0 < q.entries.size
  · have h0' : 0 < q'.entries.size := h.size ▸ h0
    rw [dif_pos h0, dif_pos h0']
    exact (Heap.Shifted.removeAt h h0 h0').siftDown 0
  · have h0' : ¬ 0 < q'.entries.size := h.size ▸ h0
    rw [dif_neg h0, dif_neg h0']
    exact h

theorem postponeMin (h : q.Shifted c q') (hdue : due.Shifted c due') :
    SameUpTo (Shifted c) (q.postponeMin due) (q'.postponeMin due') := by
  unfold Queue.postponeMin
  by_cases h0 : 0 < q.entries.size
  · have h0' : 0 < q'.entries.size := h.size ▸ h0
    have root := h.entry 0 h0 h0'
    have later : Entry.Shifted c { q.entries[0] with due := due }
        { q'.entries[0] with due := due' } := ⟨root.item, hdue⟩
    have hearlier := hdue.lt_iff root.due
    rw [dif_pos h0, dif_pos h0']
    simp only [hearlier]
    split
    · exact .error _
    · exact .ok ((Heap.Shifted.set h h0 h0' later).siftDown 0)
  · have h0' : ¬ 0 < q'.entries.size := h.size ▸ h0
    rw [dif_neg h0, dif_neg h0']
    exact .ok h

/-- A scan asks about the same items in the same order. -/
theorem scanBack (test : α → σ → Bool × σ) {k k' : Nat} (hk : k' = k) {a b : Array (Entry α)}
    (h : Heap.Shifted c a b) (ha : k ≤ a.size) (hb : k' ≤ b.size) (s : σ) :
    Heap.Shifted c (scanBack test k a ha s).entries (scanBack test k' b hb s).entries ∧
      List.Forall₂ (Entry.Shifted c) (scanBack test k a ha s).removed
        (scanBack test k' b hb s).removed := by
  subst hk
  induction k' generalizing a b s with
  | zero => exact ⟨h, .nil⟩
  | succ k ih =>
    have last := h.entry k ha hb
    rw [Queue.scanBack, Queue.scanBack, last.item]
    cases test a[k].item s with
    | mk answer memory =>
      cases answer with
      | false => exact ih h _ memory _
      | true =>
        have removed := h.removeAt ha hb
        have hsize : k ≤ (Heap.removeAt a k ha).size := by
          rw [Heap.size_removeAt]
          omega
        have rest := ih removed (removed.size ▸ hsize) memory hsize
        exact ⟨rest.1, .cons last rest.2⟩

/-- A purge takes out as many entries, and leaves the same layout. -/
theorem purge (h : q.Shifted c q') (p : α → Bool) :
    (q'.purge p).1.length = (q.purge p).1.length ∧ (q.purge p).2.Shifted c (q'.purge p).2 := by
  let scan := Queue.scanBack (plainTest p) q.entries.size q.entries (Nat.le_refl _) ()
  let scan' := Queue.scanBack (plainTest p) q'.entries.size q'.entries (Nat.le_refl _) ()
  obtain ⟨left, removed⟩ : Heap.Shifted c scan.entries scan'.entries ∧
      List.Forall₂ (Entry.Shifted c) scan.removed scan'.removed :=
    scanBack (plainTest p) h.size h _ _ ()
  have hlength : scan'.removed.length = scan.removed.length := removed.length_eq.symm
  show scan'.removed.length = scan.removed.length ∧ Queue.Shifted c
    (if scan.removed.isEmpty then ⟨scan.entries⟩ else Queue.heapify ⟨scan.entries⟩)
    (if scan'.removed.isEmpty then ⟨scan'.entries⟩ else Queue.heapify ⟨scan'.entries⟩)
  constructor
  · exact hlength
  · simp only [List.isEmpty_iff_length_eq_zero, hlength]
    split
    · exact left
    · exact Heap.Shifted.heapify left

end Shifted

end Queue

end TaskTimer
