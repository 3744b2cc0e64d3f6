/-
TaskTimer.Proofs.Heap.Path — what sifting up does along the path to the root.

The indices on the path from `i` to the root are those whose subtree `i` lies in. Sections:

  §1 The path   — where only the pair above `i` may be out of order, deadlines do not fall on the
                  way from the root down to the parent of `i` (`OrderedBut.due_le`).
  §2 Sift up    — in any store the entry moves to an index on the path, past strictly later
                  entries, each of which goes down by one step, and up to one that is not later; no
                  other entry moves (`Risen`, `exists_risen`).
  §3 The repair — where only the pair above `i` may be out of order, the entries passed are all the
                  later ones on the path (`Risen.within_iff_lt`), and there is a heap afterwards.
-/
import TaskTimer.Proofs.Heap.Order

namespace TaskTimer.Heap

variable {α : Type}

/-! ## §1 The path -/

/-- Above the pair that may be out of order, deadlines do not fall on the way down. -/
theorem OrderedBut.due_le {a : Array (Entry α)} {i : Nat} (h : OrderedBut a i) {j k : Nat}
    (hjk : Within j k) (hk : k < a.size) (hki : k < i) :
    (getElem a j (Nat.lt_of_le_of_lt hjk.le hk)).due ≤ a[k].due := by
  induction k using Nat.strongRecOn with
  | ind k ih =>
    by_cases hkj : k = j
    · subst hkj
      exact Std.le_refl _
    · have hle := hjk.le
      have above := ih ((k - 1) / 2) (by omega) (hjk.parent hkj) (parent_lt a hk) (by omega)
      exact Std.le_trans above (h.others k hk (by omega) (by omega))

/-! ## §2 Sift up -/

/-- What the store `a` has become when its entry at `i` has gone up to `rest`. -/
structure Risen (a : Array (Entry α)) (i : Nat) (hi : i < a.size) (b : Array (Entry α))
    (rest : Nat) : Prop where
  /-- It is on the path to the root. -/
  within : Within rest i
  moved : b[rest]? = some a[i]
  /-- The entries on the way have gone down by one step. -/
  lowered : ∀ j, Within rest j → j ≠ rest → Within j i → b[j]? = a[(j - 1) / 2]?
  /-- All others are where they were. -/
  untouched : ∀ j, ¬ (Within rest j ∧ Within j i) → b[j]? = a[j]?
  /-- Only later entries were passed. -/
  passed : ∀ (j : Nat) (hj : j < a.size), Within rest j → Within j i → j ≠ i →
    a[i].due < a[j].due
  /-- The entry above is not later. -/
  stopped : ∀ hp : (rest - 1) / 2 < a.size, rest ≠ 0 → a[(rest - 1) / 2].due ≤ a[i].due

theorem risen_self {a : Array (Entry α)} {i : Nat} (hi : i < a.size)
    (h : ∀ hp : (i - 1) / 2 < a.size, i ≠ 0 → a[(i - 1) / 2].due ≤ a[i].due) :
    Risen a i hi a i where
  within := .top
  moved := Array.getElem?_eq_getElem hi
  lowered _ hij hne hji := absurd (Nat.le_antisymm hji.le hij.le) hne
  untouched _ _ := rfl
  passed _ _ hij hji hne := absurd (Nat.le_antisymm hji.le hij.le) hne
  stopped := h

/-- After an exchange with its later parent, the entry goes on from there. -/
theorem Risen.of_swap {a b : Array (Entry α)} {i p rest : Nat} {hi : i < a.size}
    {hp : p < a.size} (h0 : i ≠ 0) (hpi : (i - 1) / 2 = p) (hlt : a[i].due < a[p].due)
    (h : Risen (a.swap p i hp hi) p (by rwa [Array.size_swap]) b rest) : Risen a i hi b rest := by
  have hup : Within p i := hpi ▸ within_parent h0
  have hrest : rest ≤ p := h.within.le
  have here : getElem (a.swap p i hp hi) p (by rwa [Array.size_swap]) = a[i] :=
    Array.getElem_swap_left
  have below : (a.swap p i hp hi)[i]? = some a[p] := by
    rw [Array.getElem?_swap, if_pos rfl]
  have elsewhere : ∀ j, j ≠ p → j ≠ i → (a.swap p i hp hi)[j]? = a[j]? := by
    intro j hjp hji
    rw [Array.getElem?_swap, if_neg (Ne.symm hji), if_neg (Ne.symm hjp)]
  constructor
  case within => exact h.within.trans hup
  case moved => rw [h.moved, here]
  case lowered =>
    -- The exchange has brought the parent down to `i`; further up the two stores are alike.
    intro j hrj hne hji
    by_cases hj : j = i
    · subst hj
      rw [h.untouched j fun hboth => ?_, below, hpi, Array.getElem?_eq_getElem hp]
      have := hboth.2.le
      omega
    · have hjp := hji.parent (Ne.symm hj)
      rw [hpi] at hjp
      have := hjp.le
      have := hrj.le
      rw [h.lowered j hrj hne hjp, elsewhere _ (by omega) (by omega)]
  case untouched =>
    intro j hnot
    have hji : j ≠ i := by
      rintro rfl
      exact hnot ⟨h.within.trans hup, .top⟩
    have hjp : j ≠ p := by
      rintro rfl
      exact hnot ⟨h.within, hup⟩
    rw [h.untouched j fun hboth => hnot ⟨hboth.1, hboth.2.trans hup⟩, elsewhere j hjp hji]
  case passed =>
    intro j hj hrj hji hne
    by_cases hjp : j = p
    · subst hjp
      exact hlt
    · have hpath := hji.parent (Ne.symm hne)
      rw [hpi] at hpath
      have later := h.passed j (by rwa [Array.size_swap]) hrj hpath hjp
      rwa [here, Array.getElem_swap_of_ne hjp hne] at later
  case stopped =>
    intro hup hne
    have above := h.stopped (by rwa [Array.size_swap]) hne
    rwa [here, Array.getElem_swap_of_ne (by omega) (by omega)] at above

/-- In any store the entry goes up past later entries to one that is not later. -/
theorem exists_risen (a : Array (Entry α)) (i : Nat) (hi : i < a.size) :
    ∃ rest, Risen a i hi (siftUp a i hi) rest := by
  fun_induction siftUp a i hi with
  | case1 a hi => exact ⟨0, risen_self hi fun _ hne => absurd rfl hne⟩
  | case2 a i hi h0 hle => exact ⟨i, risen_self hi fun _ _ => hle⟩
  | case3 a i hi h0 hlt ih =>
    obtain ⟨rest, hrisen⟩ := ih
    exact ⟨rest, hrisen.of_swap h0 rfl (Std.not_le.1 hlt)⟩

/-- What is not earlier than the root stays below it, since on its way up it passes only entries
that are later. -/
theorem getElem?_zero_siftUp {a : Array (Entry α)} {i : Nat} (hi : i < a.size) (h0 : i ≠ 0)
    (hle : (getElem a 0 (Nat.zero_lt_of_lt hi)).due ≤ a[i].due) :
    (siftUp a i hi)[0]? = a[0]? := by
  obtain ⟨rest, hrisen⟩ := exists_risen a i hi
  refine hrisen.untouched 0 fun hboth => ?_
  exact Std.not_lt.2 hle (hrisen.passed 0 _ hboth.1 hboth.2 (Ne.symm h0))

/-! ## §3 The repair -/

/-- Where only the pair above `i` may be out of order, the entries passed are all the later ones on
the path. -/
theorem Risen.within_iff_lt {a b : Array (Entry α)} {i rest : Nat} {hi : i < a.size}
    (hrisen : Risen a i hi b rest) (h : OrderedBut a i) {j : Nat} (hj : j < a.size)
    (hji : Within j i) (hne : j ≠ i) : Within rest j ↔ a[i].due < a[j].due := by
  constructor
  · intro hrj
    exact hrisen.passed j hj hrj hji hne
  · intro hlater
    by_cases hle : rest ≤ j
    · exact hrisen.within.of_le hji hle
    · -- Above `rest` no entry is later than the one that was not passed.
      have hjr : Within j rest := hji.of_le hrisen.within (by omega)
      have hrest := hrisen.within.le
      have hp : (rest - 1) / 2 < a.size := by omega
      have up : a[j].due ≤ a[(rest - 1) / 2].due :=
        h.due_le (hjr.parent (by omega)) hp (by omega)
      exact absurd (Std.le_trans up (hrisen.stopped hp (by omega))) (Std.not_le.2 hlater)

/-- **Sifting up mends a store along one path.** If a store is a heap but for the pair of `i` and
its parent, and that parent is not later than the children of `i`, there is a heap afterwards.
Nothing has changed outside the path from `i` to the root. On it, each entry that is strictly later
has gone down by one step, and each that is not, so also one with an equal deadline, is where it
was. The entry itself is right below the nearest entry on the path that is not later, and at the
root if there is none. -/
theorem siftUp_mends_path {a : Array (Entry α)} {i : Nat} (hi : i < a.size) (h : OrderedBut a i) :
    Ordered (siftUp a i hi) ∧
      (∀ j, ¬ Within j i → (siftUp a i hi)[j]? = a[j]?) ∧
      (∀ (j : Nat) (hj : j < a.size), Within j i → j ≠ 0 →
        a[i].due < (getElem a ((j - 1) / 2) (parent_lt a hj)).due →
        (siftUp a i hi)[j]? = a[(j - 1) / 2]?) ∧
      (∀ (j : Nat) (hj : j < a.size), Within j i → j ≠ i → a[j].due ≤ a[i].due →
        (siftUp a i hi)[j]? = a[j]?) ∧
      ∃ rest, Within rest i ∧ (siftUp a i hi)[rest]? = some a[i] ∧
        (∀ (j : Nat) (hj : j < a.size), Within rest j → Within j i → j ≠ i →
          a[i].due < a[j].due) ∧
        (rest ≠ 0 → ∃ above, a[(rest - 1) / 2]? = some above ∧ above.due ≤ a[i].due) := by
  obtain ⟨rest, hrisen⟩ := exists_risen a i hi
  refine ⟨ordered_siftUp hi h, ?_, ?_, ?_, rest, hrisen.within, hrisen.moved, hrisen.passed, ?_⟩
  · intro j hj
    exact hrisen.untouched j fun hboth => hj hboth.2
  · intro j hj hji h0 hlater
    have hle := hji.le
    have hpath : Within ((j - 1) / 2) i := (within_parent h0).trans hji
    have hup : Within rest ((j - 1) / 2) :=
      (hrisen.within_iff_lt h (parent_lt a hj) hpath (by omega)).2 hlater
    have := hup.le
    exact hrisen.lowered j (hup.trans (within_parent h0)) (by omega) hji
  · intro j hj hji hne hle
    refine hrisen.untouched j fun hboth => ?_
    exact Std.not_lt.2 hle ((hrisen.within_iff_lt h hj hji hne).1 hboth.1)
  · intro hne
    have hrest := hrisen.within.le
    have hp : (rest - 1) / 2 < a.size := by omega
    exact ⟨_, Array.getElem?_eq_getElem hp, hrisen.stopped hp hne⟩

/-- The entry `j` passes `e` and `b`, which go down to indices 9 and 4, and stays below `a`, which
is due at the same instant. -/
theorem siftUp_mends_path_belowAnEqual :
    let entry (due : Fin 16) (item : Char) : Entry Char := ⟨⟨due, by omega, by omega⟩, item⟩
    let store := #[entry 2 'a', entry 4 'b', entry 2 'c', entry 4 'd', entry 5 'e', entry 3 'f',
      entry 9 'g', entry 6 'h', entry 4 'i', entry 2 'j', entry 8 'k', entry 3 'l', entry 5 'm',
      entry 9 'n', entry 9 'o', entry 7 'p', entry 6 'q', entry 4 'r', entry 9 's', entry 5 't']
    ∃ hi : 9 < store.size, OrderedBut store 9 ∧
      (siftUp store 9 hi).toList.map Entry.item =
        ['a', 'j', 'c', 'd', 'b', 'f', 'g', 'h', 'i', 'e', 'k', 'l', 'm', 'n', 'o', 'p', 'q', 'r',
          's', 't'] ∧
      Ordered (siftUp store 9 hi) ∧
      (∀ j, ¬ Within j 9 → (siftUp store 9 hi)[j]? = store[j]?) ∧
      (∀ (j : Nat) (hj : j < store.size), Within j 9 → j ≠ 0 →
        store[9].due < (getElem store ((j - 1) / 2) (parent_lt store hj)).due →
        (siftUp store 9 hi)[j]? = store[(j - 1) / 2]?) ∧
      (∀ (j : Nat) (hj : j < store.size), Within j 9 → j ≠ 9 → store[j].due ≤ store[9].due →
        (siftUp store 9 hi)[j]? = store[j]?) ∧
      ∃ rest, Within rest 9 ∧ (siftUp store 9 hi)[rest]? = some store[9] ∧
        (∀ (j : Nat) (hj : j < store.size), Within rest j → Within j 9 → j ≠ 9 →
          store[9].due < store[j].due) ∧
        (rest ≠ 0 → ∃ above, store[(rest - 1) / 2]? = some above ∧ above.due ≤ store[9].due) := by
  intro entry store
  have h : OrderedBut store 9 := by
    constructor
    case others => decide
    case around =>
      intro j hj _ _ hp
      have hj : j < 20 := hj
      obtain rfl : j = 19 := by omega
      exact Int.le_refl 5
  exact ⟨by decide, h, by decide +kernel, siftUp_mends_path _ h⟩

end TaskTimer.Heap
