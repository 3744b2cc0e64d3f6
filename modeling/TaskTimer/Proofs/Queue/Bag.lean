/-
TaskTimer.Proofs.Queue.Bag — a queue is a bag with a minimum.

A `Bag` has entries without a layout, and one of the earliest of them in front. `Bag.Serves` says
which answers it can give to a request and what follows; which of several equals is in front, and
in which order a purge asks, is left open there. A queue that is a heap is such a bag
(`IsHeap.toBag`), every request finds it in front of what the bag could have done (`serves`), and
so does every list of requests (`runs_toBag`). Raw extractions count only together with the
`heapify` that follows them.

Sections:

  §1 Order      — every request but a raw extraction leaves a heap a heap.
  §2 Bags       — the bag, its requests, and the queue as one.
  §3 Draining   — popping until nothing is left sorts the content.
-/
import TaskTimer.Proofs.Queue.Ledger

namespace TaskTimer

namespace Queue

variable {α : Type}

/-! ## §1 Order -/

/-- All but the raw extraction leave the store in order. -/
def Request.Mends : Request α → Prop
  | .extractRaw _ => False
  | _ => True

theorem pop_eq_some {q rest : Queue α} {e : Entry α} (h : q.pop = some (e, rest)) :
    q.peek = some e ∧ rest = q.dropMin := by
  constructor
  · unfold pop at h
    split at h
    · obtain ⟨rfl, -⟩ := Prod.mk.inj (Option.some.inj h)
      exact Array.getElem?_eq_getElem _
    · cases h
  · rw [dropMin, h]

theorem pop_eq_none {q : Queue α} (h : q.pop = none) : q.toList = [] := by
  unfold pop at h
  split at h
  · cases h
  · next h0 => exact List.eq_nil_of_length_eq_zero (by rw [toList, Array.length_toList]; omega)

theorem isHeap_perform {q : Queue α} (hq : q.IsHeap) {r : Request α} (mends : r.Mends) :
    (q.perform r).2.IsHeap := by
  cases r with
  | push due item => exact isHeap_push hq due item
  | pop =>
    cases h : q.pop with
    | none => simpa [perform, h, handOut] using hq
    | some out =>
      obtain ⟨e, rest⟩ := out
      simpa [perform, h, handOut, (pop_eq_some h).2] using isHeap_dropMin hq
  | peek => exact hq
  | postponeMin due =>
    cases h : q.postponeMin due with
    | ok later => simpa [perform, h] using isHeap_postponeMin hq h
    | error error => simpa [perform, h] using hq
  | extractRaw k => exact mends.elim
  | heapify => exact isHeap_heapify q
  | purge test memory => exact isHeap_purgeWith hq test memory
  | clear => exact isHeap_empty
  | takeAll => exact isHeap_empty

/-! ## §2 Bags -/

end Queue

/-- Entries without a layout, and one of the earliest of them. -/
structure Bag (α : Type) where
  entries : Multiset (Entry α)
  front : Option (Entry α)
  front_eq_none_iff : front = none ↔ entries = 0
  front_mem : ∀ e, front = some e → e ∈ entries
  front_due_le : ∀ e, front = some e → ∀ x ∈ entries, e.due ≤ x.due

namespace Bag

open Queue (Request Answer sieve)

variable {α : Type}

/-- The bag that holds nothing. -/
def empty : Bag α where
  entries := 0
  front := none
  front_eq_none_iff := by simp
  front_mem := by simp
  front_due_le := by simp

/-- An answer that a bag can give to a request, and the bag that may follow. -/
inductive Serves (b : Bag α) : Request α → Answer α → Bag α → Prop
  | push {due : Instant} {item : α} {b' : Bag α} :
      b'.entries = ⟨due, item⟩ ::ₘ b.entries → Serves b (.push due item) .done b'
  | pop {b' : Bag α} :
      b.entries = b.front.toList + b'.entries → Serves b .pop (.taken b.front) b'
  | peek : Serves b .peek (.shown b.front) b
  | postpone {due : Instant} {front : Entry α} {others : Multiset (Entry α)} {b' : Bag α} :
      b.front = some front → front.due ≤ due → b.entries = front ::ₘ others →
      b'.entries = { front with due := due } ::ₘ others → Serves b (.postponeMin due) .done b'
  | refuse {due : Instant} {front : Entry α} :
      b.front = some front → due < front.due →
      Serves b (.postponeMin due) (.refused .movedEarlier) b
  | postponeNothing {due : Instant} :
      b.front = none → Serves b (.postponeMin due) .done b
  | heapify {b' : Bag α} : b'.entries = b.entries → Serves b .heapify .done b'
  | purge {σ : Type} {test : α → σ → Bool × σ} {s : σ} {asked : List (Entry α)} {b' : Bag α} :
      asked = b.entries → b'.entries = (sieve test asked s).2 →
      Serves b (.purge test s) (.takenAll (sieve test asked s).1) b'
  | clear : Serves b .clear .done empty
  | takeAll {es : List (Entry α)} : es = b.entries → Serves b .takeAll (.takenAll es) empty

/-- Entries taken out by position: whether there is one at a position is told by how many there
are, which one it is stays open. -/
inductive Extracts : Multiset (Entry α) → List Nat → List (Answer α) → Multiset (Entry α) → Prop
  | nil {entries : Multiset (Entry α)} : Extracts entries [] [] entries
  | cons {entries others rest : Multiset (Entry α)} {k : Nat} {ks : List Nat}
      {e : Option (Entry α)} {answers : List (Answer α)} :
      (e = none ↔ k = 0 ∨ entries.card < k) → entries = e.toList + others →
      Extracts others ks answers rest → Extracts entries (k :: ks) (.taken e :: answers) rest

end Bag

/-- A request that leaves the store in order: a single one, or any number of raw extractions and a
`heapify`. -/
inductive Queue.Operation (α : Type) : Type 1 where
  | single (r : Queue.Request α) (mends : r.Mends)
  | extraction (positions : List Nat)

/-- The requests of an operation. -/
def Queue.Operation.requests {α : Type} : Queue.Operation α → List (Queue.Request α)
  | .single r _ => [r]
  | .extraction positions => positions.map .extractRaw ++ [.heapify]

namespace Bag

open Queue (Operation Answer)

variable {α : Type}

/-- The answers of a bag to a list of operations, and the bag that may follow. -/
inductive Runs : Bag α → List (Operation α) → List (Answer α) → Bag α → Prop
  | nil {b : Bag α} : Runs b [] [] b
  | single {b b' b'' : Bag α} {r : Queue.Request α} {mends : r.Mends} {answer : Answer α}
      {operations : List (Operation α)} {answers : List (Answer α)} :
      b.Serves r answer b' → Runs b' operations answers b'' →
      Runs b (.single r mends :: operations) (answer :: answers) b''
  | extraction {b b' b'' : Bag α} {positions : List Nat} {taken : List (Answer α)}
      {operations : List (Operation α)} {answers : List (Answer α)} :
      Extracts b.entries positions taken b'.entries → Runs b' operations answers b'' →
      Runs b (.extraction positions :: operations) (taken ++ .done :: answers) b''

end Bag

namespace Queue

variable {α : Type}

/-- The queue after a list of operations. -/
def operate (q : Queue α) (operations : List (Operation α)) : Queue α :=
  q.after (operations.flatMap Operation.requests)

/-- The answers to a list of requests. -/
def answers (q : Queue α) : List (Request α) → List (Answer α)
  | [] => []
  | r :: rs => (q.perform r).1 :: (q.perform r).2.answers rs

theorem answers_append (q : Queue α) (rs ss : List (Request α)) :
    q.answers (rs ++ ss) = q.answers rs ++ (q.after rs).answers ss := by
  induction rs generalizing q with
  | nil => rfl
  | cons r rs ih => simp [answers, ih]

theorem bag_eq_zero_iff (q : Queue α) : q.bag = 0 ↔ q.peek = none := by
  rw [peek_eq_none_iff, bag, Multiset.coe_eq_zero]

/-- The bag that a heap is. -/
def IsHeap.toBag {q : Queue α} (hq : q.IsHeap) : Bag α where
  entries := q.bag
  front := q.peek
  front_eq_none_iff := (bag_eq_zero_iff q).symm
  front_mem _ h := mem_of_peek h
  front_due_le _ h _ hx := hq.due_le h hx

theorem serves_postponeMin {q later : Queue α} (hq : q.IsHeap) (hlater : later.IsHeap)
    {due : Instant} {answer : Answer α} (h : q.perform (.postponeMin due) = (answer, later)) :
    hq.toBag.Serves (.postponeMin due) answer hlater.toBag := by
  cases hroot : q.get? 1 with
  | none =>
    obtain ⟨rfl, rfl⟩ := Prod.mk.inj ((perform_postponeMin_of_none hroot due).symm.trans h)
    exact .postponeNothing hroot
  | some root =>
    by_cases hlt : due < root.due
    · obtain ⟨rfl, rfl⟩ := Prod.mk.inj ((perform_postponeMin_of_lt hroot hlt).symm.trans h)
      exact .refuse hroot hlt
    · have hle : root.due ≤ due := Std.not_lt.1 hlt
      obtain ⟨done, others, before, after⟩ := perform_postponeMin_of_le hroot hle
      rw [h] at done after
      obtain rfl : answer = .done := done
      exact .postpone hroot hle before after

/-- What a heap answers to a request is what the bag may answer, and leads to a bag that may
follow. -/
theorem serves {q : Queue α} (hq : q.IsHeap) {r : Request α} (mends : r.Mends) :
    hq.toBag.Serves r (q.perform r).1 (isHeap_perform hq mends).toBag := by
  cases r with
  | push due item => exact .push (bag_push q due item)
  | pop =>
    have out := takesOut_pop q
    rw [out.answer_eq]
    exact .pop out.bag_eq
  | peek => exact .peek
  | postponeMin due => exact serves_postponeMin hq _ rfl
  | extractRaw k => exact mends.elim
  | heapify => exact .heapify (bag_heapify q)
  | purge test memory =>
    obtain ⟨removed, left⟩ := purgeWith_sieve test memory q
    show hq.toBag.Serves _ (.takenAll (q.purgeWith test memory).1) _
    rw [removed]
    exact .purge (Multiset.coe_eq_coe.2 (List.reverse_perm q.toList)) (Multiset.coe_eq_coe.2 left)
  | clear => exact .clear
  | takeAll => exact .takeAll rfl

/-- A raw extraction takes what stands at its position from the content. -/
theorem extracts (q : Queue α) (positions : List Nat) :
    Bag.Extracts q.bag positions (q.answers (positions.map .extractRaw))
      (q.after (positions.map .extractRaw)).bag := by
  induction positions generalizing q with
  | nil => exact .nil
  | cons k ks ih =>
    have out := takesOut_extractRaw q k
    simp only [List.map_cons, answers, after_cons, out.answer_eq]
    refine .cons ?_ out.bag_eq (ih _)
    rw [card_bag]
    exact get?_eq_none_iff q k

theorem isHeap_after_requests {q : Queue α} (hq : q.IsHeap) (operation : Operation α) :
    (q.after operation.requests).IsHeap := by
  cases operation with
  | single r mends => exact isHeap_perform hq mends
  | extraction positions =>
    rw [Operation.requests, after_append]
    exact isHeap_heapify _

/-- Operations leave a heap a heap, and its answers are answers of the bag it is. -/
theorem runs_toBag {q : Queue α} (hq : q.IsHeap) (operations : List (Operation α)) :
    ∃ hq' : (q.operate operations).IsHeap,
      hq.toBag.Runs operations (q.answers (operations.flatMap Operation.requests)) hq'.toBag := by
  induction operations generalizing q with
  | nil => exact ⟨hq, .nil⟩
  | cons operation operations ih =>
    have next := isHeap_after_requests hq operation
    obtain ⟨hq', run⟩ := ih next
    simp only [operate, List.flatMap_cons, after_append, answers_append]
    refine ⟨hq', ?_⟩
    cases operation with
    | single r mends => exact .single (serves hq mends) run
    | extraction positions =>
      simp only [Operation.requests, answers_append, answers, List.append_assoc,
        List.singleton_append]
      refine .extraction ?_ run
      have taken := extracts q positions
      have mended : next.toBag.entries = (q.after (positions.map .extractRaw)).bag := by
        show (q.after (positions.map .extractRaw ++ [.heapify])).bag = _
        rw [after_append]
        exact bag_heapify _
      rwa [mended]

/-! ## §3 Draining -/

theorem drain_perm (q : Queue α) : q.drain.Perm q.toList := by
  fun_induction drain q with
  | case1 q e rest h ih =>
    obtain ⟨hpeek, rfl⟩ := pop_eq_some h
    exact (ih.cons e).trans (toList_dropMin hpeek).symm
  | case2 q h =>
    rw [pop_eq_none h]

/-- Popping until nothing is left hands out the entries in the order of their deadlines. -/
theorem sorted_drain {q : Queue α} (hq : q.IsHeap) :
    q.drain.Pairwise fun e f => e.due ≤ f.due := by
  fun_induction drain q with
  | case1 q e rest h ih =>
    obtain ⟨hpeek, rfl⟩ := pop_eq_some h
    refine List.Pairwise.cons (fun f hf => hq.due_le hpeek ?_) (ih (isHeap_dropMin hq))
    have later : f ∈ q.dropMin.toList := (drain_perm q.dropMin).mem_iff.1 hf
    exact (toList_dropMin hpeek).mem_iff.2 (List.mem_cons_of_mem e later)
  | case2 q h => exact List.Pairwise.nil

/-- **A queue is a bag with a minimum.** Whatever operations an empty queue is asked for, be they
single requests or raw extractions with the `heapify` that follows, it is a heap afterwards, and
its answers are answers that a bag can give which ends with the same content and the same entry in
front: requests add, take out and re-date the entries they name, and what is looked at, handed
out or re-dated is one of the earliest. A raw extraction names the entry at its position. The
queue is as large as the bag, and shows no entry exactly when the bag is empty. Popping until
nothing is left hands out the content in the order of its deadlines. -/
theorem queue_refines_bag (operations : List (Operation α)) :
    let q : Queue α := empty.operate operations
    ∃ hq : q.IsHeap,
      Bag.empty.Runs operations (empty.answers (operations.flatMap Operation.requests))
          hq.toBag ∧
        (∀ (positions : List Nat) (k : Nat),
          let hollow := q.after (positions.map .extractRaw)
          (hollow.perform (.extractRaw k)).1 = .taken (hollow.get? k)) ∧
        q.size = hq.toBag.entries.card ∧
        (q.isEmpty ↔ hq.toBag.entries = 0) ∧
        (q.peek = none ↔ hq.toBag.entries = 0) ∧
        q.drain.Perm q.toList ∧ q.drain.Pairwise fun e f => e.due ≤ f.due := by
  intro q
  obtain ⟨hq, run⟩ := runs_toBag (isHeap_empty (α := α)) operations
  refine ⟨hq, run, fun positions k => (takesOut_extractRaw _ k).answer_eq, (card_bag q).symm, ?_,
    (bag_eq_zero_iff q).symm, drain_perm q, sorted_drain hq⟩
  show q.entries.isEmpty ↔ q.bag = 0
  simp [bag, toList]

end Queue

end TaskTimer
