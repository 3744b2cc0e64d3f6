/-
TaskTimer.Proofs.Queue.Purge — mending a store, and taking out what a test is true of.

Sections:

  §1 Mending    — `heapify` puts the content of any store in the order of a heap, and moves nothing
                  in a heap.
  §2 Questions  — a scan asks its test about each entry once, the last one first. `questions` lists
                  the entries with the answers they get. `noting` is the test that keeps this list
                  itself, and it shows that a scan asks these questions and no others.
  §3 Purging    — a purge takes out the entries that the answer was yes for, and leaves the others;
                  for a timer these are the tasks that were called off.

The test may answer the same question differently the next time, so nothing is said of what it
would answer to an entry; only its answers count.
-/
import TaskTimer.Proofs.Queue.Bag
import TaskTimer.Proofs.Run.Coupling

namespace TaskTimer

namespace Queue

variable {α σ : Type}

/-! ## §1 Mending -/

theorem heapify_eq_self_iff {q : Queue α} : q.heapify = q ↔ q.IsHeap := by
  rw [isHeap_iff, ← Heap.heapify_eq_self_iff]
  constructor
  · intro h
    exact congrArg entries h
  · intro h
    exact congrArg Queue.mk h

/-- **`heapify` mends every store and disturbs no heap.** Whatever the order of the store, its
content is the same afterwards, no entry is due before the one at half its position, and popping
until nothing is left hands out the content in the order of its deadlines. No entry moves exactly
if there was a heap before, so mending a second time changes nothing. -/
theorem heapify_mends_any_store (q : Queue α) :
    q.heapify.toList.Perm q.toList ∧
      (∀ (k : Nat) (above below : Entry α), 2 ≤ k → q.heapify.get? (k / 2) = some above →
        q.heapify.get? k = some below → above.due ≤ below.due) ∧
      q.heapify.drain.Perm q.toList ∧
      (q.heapify.drain.Pairwise fun e f => e.due ≤ f.due) ∧
      (q.heapify = q ↔ q.IsHeap) ∧
      q.heapify.heapify = q.heapify := by
  have content : q.heapify.toList.Perm q.toList := Heap.heapify_perm q.entries
  have heap : q.heapify.IsHeap := isHeap_heapify q
  refine ⟨content, heap, ?_, sorted_drain heap, heapify_eq_self_iff, heapify_eq_self_iff.2 heap⟩
  exact (drain_perm q.heapify).trans content

/-! ## §2 Questions -/

/-- The entries a test is asked about in this order, each with its answer. -/
def questions (test : α → σ → Bool × σ) : List (Entry α) → σ → List (Entry α × Bool)
  | [], _ => []
  | e :: es, s => (e, (test e.item s).1) :: questions test es (test e.item s).2

/-- The test that also keeps a note of each question and its answer, the latest one last. -/
def noting (test : α → σ → Bool × σ) :
    α → σ × List (α × Bool) → Bool × (σ × List (α × Bool)) :=
  fun item memory =>
    let (answer, s) := test item memory.1
    (answer, s, memory.2 ++ [(item, answer)])

/-- The note of a question. -/
def note (question : Entry α × Bool) : α × Bool := (question.1.item, question.2)

theorem map_fst_questions (test : α → σ → Bool × σ) (es : List (Entry α)) (s : σ) :
    (questions test es s).map Prod.fst = es := by
  induction es generalizing s with
  | nil => rfl
  | cons e es ih => rw [questions, List.map_cons, ih]

/-- The entries that the answer was yes for, and those that it was no for. -/
theorem sieve_eq (test : α → σ → Bool × σ) (es : List (Entry α)) (s : σ) :
    sieve test es s =
      (((questions test es s).filter fun x => x.2).map Prod.fst,
        ((questions test es s).filter fun x => !x.2).map Prod.fst) := by
  induction es generalizing s with
  | nil => rfl
  | cons e es ih =>
    rw [sieve, questions]
    cases h : test e.item s with
    | mk answer s' => cases answer <;> simp [ih]

/-- A scan asks the questions from the last entry back, and taking notes of them makes no other
difference. -/
theorem scanBack_noting (test : α → σ → Bool × σ) (k : Nat) (a : Array (Entry α))
    (h : k ≤ a.size) (s : σ) (notes : List (α × Bool)) :
    scanBack (noting test) k a h (s, notes) =
      { entries := (scanBack test k a h s).entries
        removed := (scanBack test k a h s).removed
        memory := ((scanBack test k a h s).memory,
          notes ++ (questions test (a.toList.take k).reverse s).map note) } := by
  induction k generalizing a s notes with
  | zero => simp [scanBack, questions]
  | succ k ih =>
    rw [reverse_take_succ a h, scanBack, scanBack, questions, noting]
    cases test a[k].item s with
    | mk answer s' =>
      cases answer with
      | true => simp [ih, take_removeAt, note]
      | false => simp [ih, note]

theorem purgeWith_noting (test : α → σ → Bool × σ) (s : σ) (q : Queue α) :
    q.purgeWith (noting test) (s, []) =
      ((q.purgeWith test s).1, (q.purgeWith test s).2.1, (q.purgeWith test s).2.2,
        (questions test q.toList.reverse s).map note) := by
  have whole : q.entries.toList.take q.entries.size = q.toList :=
    List.take_of_length_le (Nat.le_of_eq Array.length_toList)
  simp only [purgeWith, scanBack_noting, whole, List.nil_append]

/-! ## §3 Purging -/

theorem purgeWith_of_removed_eq_nil {test : α → σ → Bool × σ} {s : σ} {q : Queue α}
    (h : (q.purgeWith test s).1 = []) : (q.purgeWith test s).2.1 = q := by
  let scan := scanBack test q.entries.size q.entries (Nat.le_refl _) s
  have hnil : scan.removed = [] := h
  have same : scan.entries = q.entries := entries_scanBack_of_removed_eq_nil _ _ _ _ _ hnil
  show (if scan.removed.isEmpty then ⟨scan.entries⟩ else _) = q
  rw [hnil, same]
  rfl

/-- Where a purge takes something out, it leaves a heap behind, heap or not before. -/
theorem isHeap_purgeWith_of_removed_ne_nil {test : α → σ → Bool × σ} {s : σ} {q : Queue α}
    (h : (q.purgeWith test s).1 ≠ []) : (q.purgeWith test s).2.1.IsHeap := by
  let scan := scanBack test q.entries.size q.entries (Nat.le_refl _) s
  have hsome : ¬ scan.removed.isEmpty := fun hempty => h (List.isEmpty_iff.1 hempty)
  show (if scan.removed.isEmpty then ⟨scan.entries⟩ else heapify ⟨scan.entries⟩).IsHeap
  rw [if_neg hsome]
  exact isHeap_heapify _

end Queue

namespace World

/-- What a timer's purge takes out of its queue and what it leaves there. -/
theorem purge_cancelled (w : World) (t : TimerRef) :
    (w.purge t).result = (w.queued t).countP (fun e => (w.task e.item).state = .cancelled) ∧
      ((w.purge t).world.queued t).Perm
        ((w.queued t).filter fun e => (w.task e.item).state ≠ .cancelled) := by
  obtain ⟨removed, left⟩ := Queue.purge_perm w.isCancelled (w.timer t).queue
  constructor
  · rw [List.countP_eq_length_filter]
    exact removed.length_eq
  · simp only [queued, purge, timer_setTimer_same]
    simpa [isCancelled] using left

end World

namespace Queue

variable {α σ : Type}

/-- **A purge is an exact filter.** On any store, heap or not, and for any test, also one that
answers differently each time, a purge asks about every entry exactly once, from the last position
back to the first; a test that takes notes has noted these questions and no others. The entries
with the answer yes are handed out in this order, and the others stay. If any were handed out there
is a heap, and else the store is as it was. So a timer's purge tells how many of its queued tasks
were called off, leaves the others in a heap, and does nothing to the tasks. -/
theorem purge_filters_exactly (q : Queue α) (test : α → σ → Bool × σ) (s : σ) :
    let asked := questions test q.toList.reverse s
    let removed := (q.purgeWith test s).1
    let left := (q.purgeWith test s).2.1
    asked.map Prod.fst = q.toList.reverse ∧
      q.purgeWith (noting test) (s, []) =
        (removed, left, (q.purgeWith test s).2.2, asked.map note) ∧
      removed = (asked.filter fun x => x.2).map Prod.fst ∧
      left.toList.Perm ((asked.filter fun x => !x.2).map Prod.fst) ∧
      (removed ≠ [] → left.IsHeap) ∧
      (removed = [] → left = q) ∧
      ∀ (acts : List Action) (t : TimerRef),
        let w := (System.after acts).world
        let purged := w.purge t
        purged.result = (w.queued t).countP (fun e => (w.task e.item).state = .cancelled) ∧
          (purged.world.queued t).Perm
            ((w.queued t).filter fun e => (w.task e.item).state ≠ .cancelled) ∧
          (purged.world.timer t).queue.IsHeap ∧
          ∀ k, purged.world.task k = w.task k := by
  intro asked removed left
  obtain ⟨hremoved, hleft⟩ := purgeWith_sieve test s q
  rw [sieve_eq] at hremoved hleft
  refine ⟨map_fst_questions _ _ _, purgeWith_noting test s q, hremoved, hleft,
    isHeap_purgeWith_of_removed_ne_nil, purgeWith_of_removed_eq_nil, fun acts t => ?_⟩
  intro w purged
  obtain ⟨hcount, hothers⟩ := w.purge_cancelled t
  refine ⟨hcount, hothers, ?_, fun k => rfl⟩
  exact ((coupled_after acts).purge t).isHeap t

end Queue

end TaskTimer
