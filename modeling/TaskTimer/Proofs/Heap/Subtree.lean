/-
TaskTimer.Proofs.Heap.Subtree — the subtrees of a store, and which of its entries a sift down moves.

Sections:

  §1 Subtrees   — `Within top i`: index `i` lies in the subtree of `top`, and `top` on the path from
                  `i` to the root.
  §2 Halving    — counted from 1, the parent of a position is half of it; so an index lies in a
                  subtree just if halving its position leads to the top (`within_iff`). That makes
                  it a question that can be decided.
  §3 Selection  — `entriesAt`: the entries at some of the indices. Those and the others are the
                  content of the store, so a permutation that leaves the others alone is one of
                  those (`entriesAt_perm`).
  §4 Sift down  — touches nothing outside the subtree, and keeps the entries inside
                  (`getElem_siftDown_of_not_within`, `subtree_siftDown_perm`). Nothing is assumed
                  about the order of the store.
-/
import Mathlib.Data.List.Basic
import TaskTimer.Proofs.Heap.Content

namespace TaskTimer.Heap

variable {α : Type}

/-! ## §1 Subtrees -/

/-- Index `i` lies in the subtree whose root is at `top`. -/
inductive Within (top : Nat) : Nat → Prop
  | top : Within top top
  | left {i : Nat} : Within top i → Within top (2 * i + 1)
  | right {i : Nat} : Within top i → Within top (2 * i + 2)

theorem Within.le {top i : Nat} (h : Within top i) : top ≤ i := by
  induction h with
  | top => exact Nat.le_refl top
  | left _ ih => omega
  | right _ ih => omega

theorem Within.parent {top i : Nat} (h : Within top i) (hi : i ≠ top) :
    Within top ((i - 1) / 2) := by
  cases h with
  | top => exact absurd rfl hi
  | @left j h => rwa [show (2 * j + 1 - 1) / 2 = j by omega]
  | @right j h => rwa [show (2 * j + 2 - 1) / 2 = j by omega]

theorem Within.of_parent {top i : Nat} (hi : 0 < i) (h : Within top ((i - 1) / 2)) :
    Within top i := by
  rcases Nat.mod_two_eq_zero_or_one i with h2 | h2
  · have := h.right
    rwa [show 2 * ((i - 1) / 2) + 2 = i by omega] at this
  · have := h.left
    rwa [show 2 * ((i - 1) / 2) + 1 = i by omega] at this

theorem Within.trans {i j k : Nat} (hij : Within i j) (hjk : Within j k) : Within i k := by
  induction hjk with
  | top => exact hij
  | left _ ih => exact ih.left
  | right _ ih => exact ih.right

/-- The whole tree is the subtree of its root. -/
theorem within_zero (i : Nat) : Within 0 i := by
  induction i using Nat.strongRecOn with
  | ind i ih =>
    by_cases hi : i = 0
    · subst hi; exact .top
    · exact .of_parent (by omega) (ih _ (by omega))

theorem within_earlierChild (a : Array (Entry α)) (i : Nat) (h : 2 * i + 1 < a.size) :
    Within i (earlierChild a i h) := by
  rcases earlierChild_eq_or a i h with hc | hc <;> rw [hc]
  · exact Within.top.left
  · exact Within.top.right

/-- Of two indices on one path to the root, the larger lies in the subtree of the smaller. -/
theorem Within.of_le {i j k : Nat} (hi : Within i k) (hj : Within j k) (hle : i ≤ j) :
    Within i j := by
  induction k using Nat.strongRecOn with
  | ind k ih =>
    by_cases hkj : k = j
    · subst hkj
      exact hi
    · have := hj.le
      exact ih _ (by omega) (hi.parent (by omega)) (hj.parent hkj)

theorem within_parent {i : Nat} (h : i ≠ 0) : Within ((i - 1) / 2) i :=
  .of_parent (by omega) .top

/-! ## §2 Halving -/

theorem Within.exists_halvings {top i : Nat} (h : Within top i) :
    ∃ n < i + 1, (i + 1) >>> n = top + 1 := by
  induction h with
  | top => exact ⟨0, by omega, rfl⟩
  | @left i _ ih =>
    obtain ⟨n, hle, hn⟩ := ih
    refine ⟨n + 1, by omega, ?_⟩
    rw [Nat.shiftRight_succ_inside, show (2 * i + 1 + 1) / 2 = i + 1 by omega, hn]
  | @right i _ ih =>
    obtain ⟨n, hle, hn⟩ := ih
    refine ⟨n + 1, by omega, ?_⟩
    rw [Nat.shiftRight_succ_inside, show (2 * i + 2 + 1) / 2 = i + 1 by omega, hn]

theorem within_of_halvings {top i n : Nat} (h : (i + 1) >>> n = top + 1) : Within top i := by
  induction n generalizing i with
  | zero =>
    obtain rfl : i = top := Nat.succ.inj h
    exact .top
  | succ n ih =>
    rw [Nat.shiftRight_succ_inside] at h
    have hi : 0 < i := by
      rcases Nat.eq_zero_or_pos i with rfl | hi
      · simp at h
      · exact hi
    rw [show (i + 1) / 2 = (i - 1) / 2 + 1 by omega] at h
    exact .of_parent hi (ih h)

/-- Halving the position of `i` some number of times leads to the position of `top`. -/
theorem within_iff {top i : Nat} : Within top i ↔ ∃ n < i + 1, (i + 1) >>> n = top + 1 :=
  ⟨Within.exists_halvings, fun ⟨_, _, hn⟩ => within_of_halvings hn⟩

instance (top i : Nat) : Decidable (Within top i) := decidable_of_iff _ within_iff.symm

/-! ## §3 Selection -/

/-- The entries at the indices that `p` is true of. -/
def entriesAt (a : Array (Entry α)) (p : Nat → Bool) : List (Entry α) :=
  ((List.range a.size).filter p).filterMap (a[·]?)

/-- The entries of the subtree of `top`. -/
def subtree (a : Array (Entry α)) (top : Nat) : List (Entry α) :=
  entriesAt a fun i => Within top i

theorem mem_entriesAt {a : Array (Entry α)} {p : Nat → Bool} {e : Entry α} :
    e ∈ entriesAt a p ↔ ∃ i, p i ∧ a[i]? = some e := by
  simp only [entriesAt, List.mem_filterMap, List.mem_filter, List.mem_range]
  constructor
  · rintro ⟨i, ⟨-, hp⟩, he⟩
    exact ⟨i, hp, he⟩
  · rintro ⟨i, hp, he⟩
    exact ⟨i, ⟨(Array.getElem?_eq_some_iff.1 he).1, hp⟩, he⟩

theorem mem_subtree {a : Array (Entry α)} {top : Nat} {e : Entry α} :
    e ∈ subtree a top ↔ ∃ i, Within top i ∧ a[i]? = some e := by
  simp [subtree, mem_entriesAt]

theorem filterMap_range_getElem? (l : List (Entry α)) :
    (List.range l.length).filterMap (l[·]?) = l := by
  induction l with
  | nil => rfl
  | cons e l ih => simp [List.range_succ_eq_map, List.filterMap_map, ih]

/-- Some entries and the others are all there are. -/
theorem entriesAt_append_perm (a : Array (Entry α)) (p : Nat → Bool) :
    (entriesAt a p ++ entriesAt a fun i => !p i).Perm a.toList := by
  have split := (List.filter_append_perm p (List.range a.size)).filterMap (a[·]?)
  have whole : (List.range a.size).filterMap (a[·]?) = a.toList := by
    simpa using filterMap_range_getElem? a.toList
  rwa [List.filterMap_append, whole] at split

theorem entriesAt_congr {a b : Array (Entry α)} {p : Nat → Bool} (size : b.size = a.size)
    (h : ∀ i, p i → b[i]? = a[i]?) : entriesAt b p = entriesAt a p := by
  rw [entriesAt, entriesAt, size]
  exact List.filterMap_congr fun i hi => h i (List.mem_filter.1 hi).2

/-- A permutation of the whole store that leaves the entries outside `p` alone is a permutation of
those inside. -/
theorem entriesAt_perm {a b : Array (Entry α)} {p : Nat → Bool} (size : b.size = a.size)
    (content : b.toList.Perm a.toList) (outside : ∀ i, ¬ p i → b[i]? = a[i]?) :
    (entriesAt b p).Perm (entriesAt a p) := by
  have others : (entriesAt b fun i => !p i) = entriesAt a fun i => !p i :=
    entriesAt_congr size fun i hi => outside i (by simpa using hi)
  have parts : (entriesAt b p ++ entriesAt b fun i => !p i).Perm
      (entriesAt a p ++ entriesAt a fun i => !p i) :=
    (entriesAt_append_perm b p).trans (content.trans (entriesAt_append_perm a p).symm)
  rw [others] at parts
  exact (List.perm_append_right_iff _).1 parts

/-! ## §4 Sift down -/

/-! The three ways a step of `siftDown` can go, as equations. -/

theorem siftDown_of_no_child {a : Array (Entry α)} {i : Nat} (h : ¬ 2 * i + 1 < a.size) :
    siftDown a i = a := by
  rw [siftDown, dif_neg h]

theorem siftDown_of_le {a : Array (Entry α)} {i : Nat} (h : 2 * i + 1 < a.size)
    {hi : i < a.size} {hc : earlierChild a i h < a.size}
    (hle : a[i].due ≤ a[earlierChild a i h].due) :
    siftDown a i = a := by
  rw [siftDown, dif_pos h]
  exact if_pos hle

theorem siftDown_of_not_le {a : Array (Entry α)} {i : Nat} (h : 2 * i + 1 < a.size)
    {hi : i < a.size} {hc : earlierChild a i h < a.size}
    (hle : ¬ a[i].due ≤ a[earlierChild a i h].due) :
    siftDown a i = siftDown (a.swap i (earlierChild a i h) hi hc) (earlierChild a i h) := by
  rw [siftDown, dif_pos h]
  exact if_neg hle

theorem getElem_siftDown_of_not_within (a : Array (Entry α)) (i : Nat) {j : Nat}
    (hj : j < a.size) (h : ¬ Within i j) :
    getElem (siftDown a i) j (by rwa [size_siftDown]) = a[j] := by
  induction a, i using siftDown.induct with
  | case1 a i hlt c hc hle => simp only [siftDown_of_le hlt hle]
  | case2 a i hlt c hc hle ih =>
    have hwc : Within i c := within_earlierChild a i hlt
    simp only [siftDown_of_not_le hlt hle]
    rw [ih (by rwa [Array.size_swap]) (fun hw => h (hwc.trans hw))]
    refine Array.getElem_swap_of_ne (fun hji => h ?_) (fun hjc => h ?_)
    · exact hji ▸ Within.top
    · exact hjc ▸ hwc
  | case3 a i hlt => simp only [siftDown_of_no_child hlt]

theorem getElem?_siftDown_of_not_within (a : Array (Entry α)) {top i : Nat}
    (h : ¬ Within top i) : (siftDown a top)[i]? = a[i]? := by
  by_cases hi : i < a.size
  · rw [Array.getElem?_eq_getElem (by rwa [size_siftDown]), Array.getElem?_eq_getElem hi,
      getElem_siftDown_of_not_within a top hi h]
  · rw [Array.getElem?_eq_none (by rw [size_siftDown]; omega),
      Array.getElem?_eq_none (by omega)]

theorem subtree_siftDown_perm (a : Array (Entry α)) (top : Nat) :
    (subtree (siftDown a top) top).Perm (subtree a top) :=
  entriesAt_perm (size_siftDown a top) (siftDown_perm a top) fun i hi =>
    getElem?_siftDown_of_not_within a (by simpa using hi)

end TaskTimer.Heap
