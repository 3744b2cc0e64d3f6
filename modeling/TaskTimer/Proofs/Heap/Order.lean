/-
TaskTimer.Proofs.Heap.Order — what the sifts do to the order of a store.

A store is `Ordered` when no entry is due before its parent. Sections:

  §1 Order      — `Ordered`, the same for one subtree (`OrderedWithin`), and for a subtree but for
                  the pairs at its top (`OrderedBelow`).
  §2 Sift down  — keeps every lower bound inside the subtree and repairs the pairs at its top
                  (`orderedWithin_siftDown`). On top is then an entry that is due first in it.
  §3 Heapify    — orders every store (`ordered_heapify`), and leaves it alone just if it was in
                  order (`heapify_eq_self_iff`).
  §4 Sift up    — repairs the one pair above an entry (`ordered_siftUp`). Behind the last entry of
                  a heap that is the only pair out of order (`Ordered.push`).
-/
import TaskTimer.Proofs.Heap.Subtree
import TaskTimer.Proofs.Time.Order

namespace TaskTimer.Heap

variable {α : Type}

/-! ## §1 Order -/

theorem parent_lt (a : Array (Entry α)) {i : Nat} (hi : i < a.size) : (i - 1) / 2 < a.size := by
  omega

/-- No entry is due before its parent. -/
def Ordered (a : Array (Entry α)) : Prop :=
  ∀ (i : Nat) (hi : i < a.size), 0 < i →
    (getElem a ((i - 1) / 2) (parent_lt a hi)).due ≤ a[i].due

/-- No entry in the subtree of `top` is due before its parent in that subtree. -/
def OrderedWithin (a : Array (Entry α)) (top : Nat) : Prop :=
  ∀ (i : Nat) (hi : i < a.size), 0 < i → Within top ((i - 1) / 2) →
    (getElem a ((i - 1) / 2) (parent_lt a hi)).due ≤ a[i].due

/-- As `OrderedWithin`, but nothing is said of the children of `top`. -/
def OrderedBelow (a : Array (Entry α)) (top : Nat) : Prop :=
  ∀ (i : Nat) (hi : i < a.size), 0 < i → Within top ((i - 1) / 2) → (i - 1) / 2 ≠ top →
    (getElem a ((i - 1) / 2) (parent_lt a hi)).due ≤ a[i].due

instance (a : Array (Entry α)) (top : Nat) : Decidable (OrderedBelow a top) :=
  inferInstanceAs (Decidable (∀ (i : Nat) (_ : i < a.size), 0 < i → Within top ((i - 1) / 2) →
    (i - 1) / 2 ≠ top → _ ≤ _))

theorem orderedWithin_zero {a : Array (Entry α)} : OrderedWithin a 0 ↔ Ordered a :=
  ⟨fun h i hi h0 => h i hi h0 (within_zero _), fun h i hi h0 _ => h i hi h0⟩

/-- The root of an ordered subtree is due first in it. -/
theorem OrderedWithin.due_le {a : Array (Entry α)} {top : Nat} (h : OrderedWithin a top)
    (htop : top < a.size) {i : Nat} (hw : Within top i) (hi : i < a.size) :
    a[top].due ≤ a[i].due := by
  induction i using Nat.strongRecOn with
  | ind i ih =>
    by_cases hit : i = top
    · subst hit; exact Std.le_refl _
    · have hle := hw.le
      have hp := hw.parent hit
      exact Std.le_trans (ih _ (by omega) hp (by omega)) (h i hi (by omega) hp)

/-- The root of an ordered store is due first. -/
theorem Ordered.due_le {a : Array (Entry α)} (h : Ordered a) {i : Nat} (hi : i < a.size) :
    a[0].due ≤ a[i].due :=
  (orderedWithin_zero.2 h).due_le (by omega) (within_zero i) hi

/-- A child's subtree is ordered when all is in order below the top. -/
theorem OrderedBelow.within {a : Array (Entry α)} {top c : Nat} (h : OrderedBelow a top)
    (hc : Within top c) (hlt : top < c) : OrderedWithin a c := by
  intro i hi h0 hw
  have := hw.le
  exact h i hi h0 (hc.trans hw) (by omega)

/-! ## §2 Sift down -/

/-- What bounds all entries of the subtree from below goes on doing so. -/
theorem le_due_siftDown (a : Array (Entry α)) (i : Nat) {x : Instant}
    (h : ∀ (j : Nat) (hj : j < a.size), Within i j → x ≤ a[j].due)
    {j : Nat} (hj : j < (siftDown a i).size) (hw : Within i j) : x ≤ (siftDown a i)[j].due := by
  have after : (siftDown a i)[j] ∈ subtree (siftDown a i) i :=
    mem_subtree.2 ⟨j, hw, Array.getElem?_eq_getElem hj⟩
  obtain ⟨k, hwk, hget⟩ := mem_subtree.1 ((subtree_siftDown_perm a i).mem_iff.1 after)
  obtain ⟨hk, hsame⟩ := Array.getElem?_eq_some_iff.1 hget
  rw [← hsame]
  exact h k hk hwk

theorem earlierChild_due_le (a : Array (Entry α)) (i : Nat) (h : 2 * i + 1 < a.size)
    {j : Nat} (hj : j < a.size) (h0 : 0 < j) (hp : (j - 1) / 2 = i) :
    (getElem a (earlierChild a i h) (earlierChild_lt a i h)).due ≤ a[j].due := by
  have hj' : j = 2 * i + 1 ∨ j = 2 * i + 2 := by omega
  unfold earlierChild
  split
  · next hr =>
    split
    · next hlt =>
      rcases hj' with rfl | rfl
      · exact Std.le_of_lt hlt
      · exact Std.le_refl _
    · next hlt =>
      rcases hj' with rfl | rfl
      · exact Std.le_refl _
      · exact Std.not_lt.1 hlt
  · next hr =>
    obtain rfl : j = 2 * i + 1 := by omega
    exact Std.le_refl _

/-- The entry that a step of `siftDown` lifts to `i` bounds the subtree it came from. -/
theorem due_le_swap_earlierChild {a : Array (Entry α)} {i : Nat} (h : OrderedBelow a i)
    (hlt : 2 * i + 1 < a.size) {hi : i < a.size} {hc : earlierChild a i hlt < a.size}
    (hle : ¬ a[i].due ≤ a[earlierChild a i hlt].due) {j : Nat}
    (hw : Within (earlierChild a i hlt) j) (hj : j < a.size) :
    a[earlierChild a i hlt].due ≤
      (getElem (a.swap i (earlierChild a i hlt) hi hc) j (by rwa [Array.size_swap])).due := by
  have hic := lt_earlierChild a i hlt
  have hcj := hw.le
  by_cases hjc : j = earlierChild a i hlt
  · subst hjc
    rw [Array.getElem_swap_right]
    exact Std.le_of_lt (Std.not_le.1 hle)
  · rw [Array.getElem_swap_of_ne (by omega) hjc]
    exact (h.within (within_earlierChild a i hlt) hic).due_le (earlierChild_lt a i hlt) hw hj

/-- Sifting down repairs the pairs at the top of a subtree that is in order below it. -/
theorem orderedWithin_siftDown {a : Array (Entry α)} {i : Nat} (h : OrderedBelow a i) :
    OrderedWithin (siftDown a i) i := by
  induction a, i using siftDown.induct with
  | case1 a i hlt c hc hle =>
    rw [siftDown_of_le hlt hle]
    intro j hj h0 hw
    by_cases hp : (j - 1) / 2 = i
    · subst hp
      exact Std.le_trans hle (earlierChild_due_le a _ hlt hj h0 rfl)
    · exact h j hj h0 hw hp
  | case2 a i hlt c hc hle ih =>
    have hic : i < c := lt_earlierChild a i hlt
    have hpc : (c - 1) / 2 = i := by
      have : c = 2 * i + 1 ∨ c = 2 * i + 2 := earlierChild_eq_or a i hlt
      omega
    have hwc : Within i c := within_earlierChild a i hlt
    have below : OrderedBelow (a.swap i c) c := by
      intro j hj h0 hw hp
      have hcp := hw.le
      rw [Array.size_swap] at hj
      rw [Array.getElem_swap_of_ne (by omega) hp, Array.getElem_swap_of_ne (by omega) (by omega)]
      exact h j hj h0 (hwc.trans hw) (by omega)
    rw [siftDown_of_not_le hlt hle]
    intro j hj h0 hw
    have hj' : j < (a.swap i c).size := by rwa [size_siftDown] at hj
    have hja : j < a.size := by rwa [Array.size_swap] at hj'
    by_cases hcp : Within c ((j - 1) / 2)
    · exact ih below j hj h0 hcp
    · -- The parent of `j` keeps its place from here on, and it may be `i` itself.
      rw [getElem_siftDown_of_not_within _ _ (Nat.lt_of_le_of_lt (by omega) hj') hcp]
      by_cases hp : (j - 1) / 2 = i
      · simp only [hp, Array.getElem_swap_left]
        by_cases hjc : j = c
        · subst hjc
          refine le_due_siftDown _ _ (fun k hk hwk => ?_) hj .top
          rw [Array.size_swap] at hk
          exact due_le_swap_earlierChild h hlt hle hwk hk
        · have hcj : ¬ Within c j := fun hw' => hcp (hw'.parent hjc)
          rw [getElem_siftDown_of_not_within _ _ hj' hcj,
            Array.getElem_swap_of_ne (by omega) hjc]
          exact earlierChild_due_le a i hlt hja h0 hp
      · have hjc : j ≠ c := fun hjc => hp (hjc ▸ hpc)
        have hcj : ¬ Within c j := fun hw' => hcp (hw'.parent hjc)
        have hpc' : (j - 1) / 2 ≠ c := fun hpc' => hcp (hpc' ▸ Within.top)
        have hip := hw.le
        rw [getElem_siftDown_of_not_within _ _ hj' hcj, Array.getElem_swap_of_ne hp hpc',
          Array.getElem_swap_of_ne (by omega) hjc]
        exact h j hja h0 hw hp
  | case3 a i hlt =>
    rw [siftDown_of_no_child hlt]
    intro j hj h0 hw
    have := hw.le
    omega

/-- Sifting down from the root orders a store in which only the root is out of order. -/
theorem ordered_siftDown_zero {a : Array (Entry α)}
    (h : ∀ (i : Nat) (hi : i < a.size), 0 < (i - 1) / 2 →
      (getElem a ((i - 1) / 2) (parent_lt a hi)).due ≤ a[i].due) :
    Ordered (siftDown a 0) :=
  orderedWithin_zero.1
    (orderedWithin_siftDown fun i hi _ _ hp => h i hi (Nat.pos_of_ne_zero hp))

theorem OrderedWithin.due_le_of_mem {a : Array (Entry α)} {top : Nat} (h : OrderedWithin a top)
    (htop : top < a.size) {e : Entry α} (he : e ∈ subtree a top) : a[top].due ≤ e.due := by
  obtain ⟨i, hw, hget⟩ := mem_subtree.1 he
  obtain ⟨hi, rfl⟩ := Array.getElem?_eq_some_iff.1 hget
  exact h.due_le htop hw hi

/-- **Sifting down mends one subtree and touches nothing else.** Whatever the store, if the subtree
of `top` is in order but for the pairs of `top` and its children, it is in order afterwards. It has
the same entries, in another order, and outside of it every entry is where it was. On top is one of
its entries that is due first. -/
theorem siftDown_mends_subtree {a : Array (Entry α)} {top : Nat} (h : OrderedBelow a top) :
    OrderedWithin (siftDown a top) top ∧
      (subtree (siftDown a top) top).Perm (subtree a top) ∧
      (siftDown a top).size = a.size ∧
      (∀ i, ¬ Within top i → (siftDown a top)[i]? = a[i]?) ∧
      (top < a.size → ∃ first ∈ subtree a top, (siftDown a top)[top]? = some first ∧
        ∀ e ∈ subtree a top, first.due ≤ e.due) := by
  have ordered : OrderedWithin (siftDown a top) top := orderedWithin_siftDown h
  have content : (subtree (siftDown a top) top).Perm (subtree a top) := subtree_siftDown_perm a top
  refine ⟨ordered, content, size_siftDown a top,
    fun i => getElem?_siftDown_of_not_within a, fun htop => ?_⟩
  have htop' : top < (siftDown a top).size := by rwa [size_siftDown]
  have first : (siftDown a top)[top]? = some (siftDown a top)[top] :=
    Array.getElem?_eq_getElem htop'
  refine ⟨_, content.mem_iff.1 (mem_subtree.2 ⟨top, .top, first⟩), first, fun e he => ?_⟩
  exact ordered.due_le_of_mem htop' (content.mem_iff.2 he)

/-- Index 1 has two children, and its right one, which is the earlier, has a left child only. The
entry `b` goes all the way down, past `e` and `j`, while what is out of order elsewhere stays so. -/
theorem siftDown_mends_subtree_loneLeftChild :
    let entry (due : Fin 10) (item : Char) : Entry Char := ⟨⟨due, by omega, by omega⟩, item⟩
    let store := #[entry 8 'a', entry 9 'b', entry 1 'c', entry 5 'd', entry 4 'e', entry 0 'f',
      entry 3 'g', entry 6 'h', entry 5 'i', entry 7 'j']
    OrderedBelow store 1 ∧
      (siftDown store 1).toList.map Entry.item =
        ['a', 'e', 'c', 'd', 'j', 'f', 'g', 'h', 'i', 'b'] ∧
      OrderedWithin (siftDown store 1) 1 ∧
      (subtree (siftDown store 1) 1).Perm (subtree store 1) ∧
      (siftDown store 1).size = store.size ∧
      (∀ i, ¬ Within 1 i → (siftDown store 1)[i]? = store[i]?) ∧
      (1 < store.size → ∃ first ∈ subtree store 1, (siftDown store 1)[1]? = some first ∧
        ∀ e ∈ subtree store 1, first.due ≤ e.due) := by
  intro entry store
  have h : OrderedBelow store 1 := by decide
  exact ⟨h, by decide +kernel, siftDown_mends_subtree h⟩

/-! ## §3 Heapify -/

/-- No entry is due before its parent, where the parent's index is at least `k`. -/
def OrderedFrom (a : Array (Entry α)) (k : Nat) : Prop :=
  ∀ (i : Nat) (hi : i < a.size), 0 < i → k ≤ (i - 1) / 2 →
    (getElem a ((i - 1) / 2) (parent_lt a hi)).due ≤ a[i].due

theorem orderedFrom_zero {a : Array (Entry α)} : OrderedFrom a 0 ↔ Ordered a :=
  ⟨fun h i hi h0 => h i hi h0 (Nat.zero_le _), fun h i hi h0 _ => h i hi h0⟩

theorem orderedFrom_siftDown {a : Array (Entry α)} {k : Nat} (h : OrderedFrom a (k + 1)) :
    OrderedFrom (siftDown a k) k := by
  have below : OrderedBelow a k := by
    intro i hi h0 hw hp
    have := hw.le
    exact h i hi h0 (by omega)
  intro i hi h0 hk
  rw [size_siftDown] at hi
  by_cases hw : Within k ((i - 1) / 2)
  · exact orderedWithin_siftDown below i (by rwa [size_siftDown]) h0 hw
  · have hp : (i - 1) / 2 ≠ k := fun hp => hw (hp ▸ Within.top)
    have hwi : ¬ Within k i := fun hwi => hw (hwi.parent (by omega))
    rw [getElem_siftDown_of_not_within _ _ (by omega) hw,
      getElem_siftDown_of_not_within _ _ hi hwi]
    exact h i hi h0 (by omega)

theorem ordered_siftDownFirst {k : Nat} {a : Array (Entry α)} (h : OrderedFrom a k) :
    Ordered (siftDownFirst k a) := by
  induction k generalizing a with
  | zero => exact orderedFrom_zero.1 h
  | succ k ih => exact ih (orderedFrom_siftDown h)

/-- Whatever the order of the store, there is a heap after `heapify`: the second half of it has
no children, so it is in order to begin with. -/
theorem ordered_heapify (a : Array (Entry α)) : Ordered (heapify a) :=
  ordered_siftDownFirst fun i hi h0 hk => by omega

/-- An entry stays where it is if no child of it is due before it. -/
theorem siftDown_of_forall_le {a : Array (Entry α)} {i : Nat} (hi : i < a.size)
    (h : ∀ (j : Nat) (hj : j < a.size), 0 < j → (j - 1) / 2 = i → a[i].due ≤ a[j].due) :
    siftDown a i = a := by
  by_cases hlt : 2 * i + 1 < a.size
  · have hchild := earlierChild_eq_or a i hlt
    exact siftDown_of_le hlt (h _ (earlierChild_lt a i hlt) (by omega) (by omega))
  · exact siftDown_of_no_child hlt

theorem Ordered.siftDown_eq {a : Array (Entry α)} (h : Ordered a) (i : Nat) :
    siftDown a i = a := by
  by_cases hi : i < a.size
  · refine siftDown_of_forall_le hi fun j hj h0 hp => ?_
    subst hp
    exact h j hj h0
  · exact siftDown_of_no_child (by omega)

theorem Ordered.siftDownFirst_eq {a : Array (Entry α)} (h : Ordered a) (k : Nat) :
    siftDownFirst k a = a := by
  induction k with
  | zero => rfl
  | succ k ih => rw [siftDownFirst, h.siftDown_eq, ih]

/-- `heapify` moves nothing just if there is nothing to mend. -/
theorem heapify_eq_self_iff {a : Array (Entry α)} : heapify a = a ↔ Ordered a := by
  constructor
  · intro h
    exact h ▸ ordered_heapify a
  · intro h
    exact h.siftDownFirst_eq _

/-! ## §4 Sift up -/

/-- In order but for the pair of `i` and its parent, and the parent of `i` not later than the
children of `i`. -/
structure OrderedBut (a : Array (Entry α)) (i : Nat) : Prop where
  others : ∀ (j : Nat) (hj : j < a.size), 0 < j → j ≠ i →
    (getElem a ((j - 1) / 2) (parent_lt a hj)).due ≤ a[j].due
  around : ∀ (j : Nat) (hj : j < a.size), 0 < j → 0 < i → (hp : (j - 1) / 2 = i) →
    a[(i - 1) / 2].due ≤ a[j].due

/-- Behind the last entry of an ordered store a new one has no children, so it is out of order with
its parent at most. -/
theorem Ordered.push {a : Array (Entry α)} (h : Ordered a) (e : Entry α) :
    OrderedBut (a.push e) a.size := by
  constructor
  · intro j hj hj0 hne
    rw [Array.size_push] at hj
    rw [Array.getElem_push_lt (by omega), Array.getElem_push_lt (by omega)]
    exact h j (by omega) hj0
  · intro j hj hj0 _ hp
    rw [Array.size_push] at hj
    omega

/-- Exchanging an entry with a later parent moves the fault one level up. -/
theorem OrderedBut.swap {a : Array (Entry α)} {i : Nat} (h : OrderedBut a i) (hi : i < a.size)
    (h0 : i ≠ 0) (hlt : ¬ (getElem a ((i - 1) / 2) (parent_lt a hi)).due ≤ a[i].due) :
    OrderedBut (a.swap ((i - 1) / 2) i (parent_lt a hi) hi) ((i - 1) / 2) := by
  have lt : a[i].due ≤ a[(i - 1) / 2].due := Std.le_of_lt (Std.not_le.1 hlt)
  constructor
  · intro j hj hj0 hjp
    rw [Array.size_swap] at hj
    by_cases hji : j = i
    · subst hji
      simpa only [Array.getElem_swap_left, Array.getElem_swap_right] using lt
    · rw [Array.getElem_swap_of_ne hjp hji]
      by_cases hpi : (j - 1) / 2 = i
      · simpa only [hpi, Array.getElem_swap_right] using h.around j hj hj0 (by omega) hpi
      · have old := h.others j hj hj0 hji
        by_cases hpp : (j - 1) / 2 = (i - 1) / 2
        · simp only [hpp, Array.getElem_swap_left] at old ⊢
          exact Std.le_trans lt old
        · rwa [Array.getElem_swap_of_ne hpp hpi]
  · intro j hj hj0 hp0 hjp
    rw [Array.size_swap] at hj
    have up := h.others ((i - 1) / 2) (by omega) hp0 (by omega)
    rw [Array.getElem_swap_of_ne (by omega) (by omega)]
    by_cases hji : j = i
    · subst hji
      simpa only [Array.getElem_swap_right] using up
    · rw [Array.getElem_swap_of_ne (by omega) hji]
      have old := h.others j hj hj0 hji
      simp only [hjp] at old
      exact Std.le_trans up old

/-- Sifting up repairs the one pair that was out of order. -/
theorem ordered_siftUp {a : Array (Entry α)} {i : Nat} (hi : i < a.size) (h : OrderedBut a i) :
    Ordered (siftUp a i hi) := by
  fun_induction siftUp a i hi with
  | case1 a hi => exact fun j hj hj0 => h.others j hj hj0 (by omega)
  | case2 a i hi h0 hle =>
    intro j hj hj0
    by_cases hji : j = i
    · subst hji; exact hle
    · exact h.others j hj hj0 hji
  | case3 a i hi h0 hlt ih => exact ih (h.swap hi h0 hlt)

end TaskTimer.Heap
