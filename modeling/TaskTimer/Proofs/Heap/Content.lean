/-
TaskTimer.Proofs.Heap.Content — the sifts move entries about and lose none.

`siftUp`, `siftDown` and `heapify` give a permutation of the store; `removeAt` takes out one entry
and keeps the others. A scan for unwanted entries splits the store in two: what it removed and
what it left are together what there was (`scanBack_perm`). It removes what the test is true of
when it is asked from the last entry back (`removed_scanBack`); for a test without a memory that
is a filter (`sieve_plainTest`).
-/
import TaskTimer.Queue.Basic

namespace TaskTimer

namespace Heap

variable {α : Type}

theorem siftUp_perm (a : Array (Entry α)) (i : Nat) (h : i < a.size) :
    (siftUp a i h).toList.Perm a.toList := by
  fun_induction siftUp a i h with
  | case1 => exact List.Perm.refl _
  | case2 => exact List.Perm.refl _
  | case3 a i h h0 hlt ih => exact ih.trans (Array.swap_perm _ _).toList

theorem siftDown_perm (a : Array (Entry α)) (i : Nat) :
    (siftDown a i).toList.Perm a.toList := by
  fun_induction siftDown a i with
  | case1 => exact List.Perm.refl _
  | case2 a i h c hc hlt ih => exact ih.trans (Array.swap_perm _ _).toList
  | case3 => exact List.Perm.refl _

theorem siftDownFirst_perm (k : Nat) (a : Array (Entry α)) :
    (siftDownFirst k a).toList.Perm a.toList := by
  induction k generalizing a with
  | zero => exact List.Perm.refl _
  | succ k ih => exact (ih _).trans (siftDown_perm a k)

theorem heapify_perm (a : Array (Entry α)) : (heapify a).toList.Perm a.toList :=
  siftDownFirst_perm _ a

/-- The entry taken out and those that stay are the former ones. -/
theorem removeAt_perm (a : Array (Entry α)) (i : Nat) (h : i < a.size) :
    (a[i] :: (removeAt a i h).toList).Perm a.toList := by
  have hlast : a.size - 1 < a.size := by omega
  have swapped : (a.swap i (a.size - 1)).toList.Perm a.toList :=
    (Array.swap_perm h hlast).toList
  have hne : (a.swap i (a.size - 1)).toList ≠ [] := by
    intro hnil
    have := congrArg List.length hnil
    simp only [Array.length_toList, Array.size_swap, List.length_nil] at this
    omega
  have last : (a.swap i (a.size - 1)).toList.getLast hne = a[i] := by
    rw [List.getLast_eq_getElem]
    simp only [Array.getElem_toList, Array.length_toList, Array.size_swap,
      Array.getElem_swap_right]
  have split := List.dropLast_concat_getLast hne
  rw [last] at split
  have joined : (a[i] :: (removeAt a i h).toList).Perm ((a.swap i (a.size - 1)).toList) := by
    rw [← split, removeAt, Array.toList_pop]
    exact (List.perm_append_singleton _ _).symm
  exact joined.trans swapped

end Heap

namespace Queue

variable {α σ : Type}

/-- What a scan removed and what it left are together the former entries. -/
theorem scanBack_perm (test : α → σ → Bool × σ) (k : Nat) (a : Array (Entry α)) (h : k ≤ a.size)
    (s : σ) :
    ((scanBack test k a h s).removed ++ (scanBack test k a h s).entries.toList).Perm
      a.toList := by
  induction k generalizing a s with
  | zero => exact List.Perm.refl _
  | succ k ih =>
    rw [scanBack]
    split
    · next s' _ =>
      have rest := ih (Heap.removeAt a k h) (by rw [Heap.size_removeAt]; omega) s'
      exact (rest.cons a[k]).trans (Heap.removeAt_perm a k h)
    · next s' _ => exact ih a (by omega) s'

/-- A scan that removes nothing changes nothing. -/
theorem entries_scanBack_of_removed_eq_nil (test : α → σ → Bool × σ) (k : Nat)
    (a : Array (Entry α)) (h : k ≤ a.size) (s : σ)
    (hnil : (scanBack test k a h s).removed = []) : (scanBack test k a h s).entries = a := by
  induction k generalizing a s with
  | zero => rfl
  | succ k ih =>
    rw [scanBack] at hnil ⊢
    split
    · next heq => simp [heq] at hnil
    · next s' heq =>
      simp only [heq] at hnil
      exact ih a (by omega) s' hnil

/-- The test of `purge`, which remembers nothing. -/
abbrev plainTest (p : α → Bool) : α → Unit → Bool × Unit := fun item _ => (p item, ())

/-- The entries a test is true of and the others, when it is asked about them in this order. -/
def sieve (test : α → σ → Bool × σ) : List (Entry α) → σ → List (Entry α) × List (Entry α)
  | [], _ => ([], [])
  | e :: es, s =>
    match test e.item s with
    | (true, s') => (e :: (sieve test es s').1, (sieve test es s').2)
    | (false, s') => ((sieve test es s').1, e :: (sieve test es s').2)

theorem sieve_perm (test : α → σ → Bool × σ) (es : List (Entry α)) (s : σ) :
    ((sieve test es s).1 ++ (sieve test es s).2).Perm es := by
  induction es generalizing s with
  | nil => exact List.Perm.refl _
  | cons e es ih =>
    rw [sieve]
    split
    · next s' _ => exact (ih s').cons e
    · next s' _ => exact List.perm_middle.trans ((ih s').cons e)

/-- Without a memory the order does not matter. -/
theorem sieve_plainTest (p : α → Bool) (es : List (Entry α)) :
    sieve (plainTest p) es () = (es.filter fun e => p e.item, es.filter fun e => !p e.item) := by
  induction es with
  | nil => rfl
  | cons e es ih =>
    cases h : p e.item <;> simp [sieve, plainTest, h] <;> simp [ih]

/-- The entries in front of the one taken out stay where they are. -/
theorem take_removeAt (a : Array (Entry α)) (k : Nat) (h : k < a.size) :
    (Heap.removeAt a k h).toList.take k = a.toList.take k := by
  refine List.ext_getElem (by simp [Heap.size_removeAt]; omega) fun i hi _ => ?_
  have hik : i < k := by
    rw [List.length_take] at hi
    omega
  simp only [List.getElem_take, Array.getElem_toList, Heap.removeAt, Array.getElem_pop]
  rw [Array.getElem_swap_of_ne (by omega) (by omega)]

/-- The first entries from the last of them back. -/
theorem reverse_take_succ (a : Array (Entry α)) {k : Nat} (h : k < a.size) :
    (a.toList.take (k + 1)).reverse = a[k] :: (a.toList.take k).reverse := by
  rw [List.take_succ_eq_append_getElem (by rwa [Array.length_toList]), Array.getElem_toList,
    List.reverse_append, List.reverse_singleton, List.singleton_append]

/-- A scan takes out what the test is true of when it is asked from the last entry back. -/
theorem removed_scanBack (test : α → σ → Bool × σ) (k : Nat) (a : Array (Entry α))
    (h : k ≤ a.size) (s : σ) :
    (scanBack test k a h s).removed = (sieve test (a.toList.take k).reverse s).1 := by
  induction k generalizing a s with
  | zero => rfl
  | succ k ih =>
    rw [scanBack, reverse_take_succ a h, sieve]
    cases test a[k].item s with
    | mk answer s' =>
      cases answer with
      | true => simp only [ih, take_removeAt]
      | false => simp only [ih]

end Queue

end TaskTimer
