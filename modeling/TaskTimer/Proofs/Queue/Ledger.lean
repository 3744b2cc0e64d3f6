/-
TaskTimer.Proofs.Queue.Ledger — what comes into a queue, and what leaves it, on any store.

`Request` is what a caller can ask of a queue, `perform` answers one request, and `after` a list
of them. Nothing here asks for a heap: a store that `extractRaw` has left out of order is served
as it is. Sections:

  §1 Requests   — requests, answers, and the queue after a list of them.
  §2 Positions  — `pop` and `extractRaw` take the entry at a position, `postponeMin` re-dates the
                  one at position 1, whatever the order of the store.
  §3 Ledger     — what arrives, what leaves and what is re-dated, for one request (`bag_perform`)
                  and for a list of them (`bag_after`).
-/
import Mathlib.Algebra.Order.Group.Multiset
import TaskTimer.Proofs.Heap.Bounds
import TaskTimer.Proofs.Queue.Operations

namespace TaskTimer.Queue

variable {α : Type}

/-! ## §1 Requests -/

/-- What a caller can ask of a queue. -/
inductive Request (α : Type) : Type 1 where
  | push (due : Instant) (item : α)
  | pop
  | peek
  | postponeMin (due : Instant)
  | extractRaw (k : Nat)
  | heapify
  | purge {σ : Type} (test : α → σ → Bool × σ) (memory : σ)
  | clear
  | takeAll

/-- What the queue has to say to a request. -/
inductive Answer (α : Type) where
  | done
  /-- An entry to look at, which stays in the queue. -/
  | shown (e : Option (Entry α))
  /-- An entry handed out. -/
  | taken (e : Option (Entry α))
  /-- Entries handed out, in this order. -/
  | takenAll (es : List (Entry α))
  | refused (error : PostponeError)
deriving DecidableEq

/-- An entry is handed out, if there is one to hand out. -/
def handOut (q : Queue α) : Option (Entry α × Queue α) → Answer α × Queue α
  | some (e, rest) => (.taken (some e), rest)
  | none => (.taken none, q)

/-- The answer to a request, and the queue it leaves behind. -/
def perform (q : Queue α) : Request α → Answer α × Queue α
  | .push due item => (.done, q.push due item)
  | .pop => q.handOut q.pop
  | .peek => (.shown q.peek, q)
  | .postponeMin due =>
    match q.postponeMin due with
    | .ok later => (.done, later)
    | .error error => (.refused error, q)
  | .extractRaw k => q.handOut (q.extractRaw k)
  | .heapify => (.done, q.heapify)
  | .purge test memory => (.takenAll (q.purgeWith test memory).1, (q.purgeWith test memory).2.1)
  | .clear => (.done, empty)
  | .takeAll => (.takenAll q.toList, empty)

/-- The queue after a list of requests. -/
def after (q : Queue α) (requests : List (Request α)) : Queue α :=
  requests.foldl (fun q r => (q.perform r).2) q

@[simp] theorem after_nil (q : Queue α) : q.after [] = q := rfl

@[simp] theorem after_cons (q : Queue α) (r : Request α) (rs : List (Request α)) :
    q.after (r :: rs) = (q.perform r).2.after rs := rfl

theorem after_append (q : Queue α) (rs ss : List (Request α)) :
    q.after (rs ++ ss) = (q.after rs).after ss :=
  List.foldl_append

/-- The content of a queue, without its layout. -/
def bag (q : Queue α) : Multiset (Entry α) := q.toList

@[simp] theorem bag_empty : (empty : Queue α).bag = 0 := rfl

@[simp] theorem card_bag (q : Queue α) : q.bag.card = q.size := Array.length_toList

/-! ## §2 Positions -/

theorem get?_one (q : Queue α) : q.get? 1 = q.peek := rfl

theorem get?_eq_none_iff (q : Queue α) (k : Nat) : q.get? k = none ↔ k = 0 ∨ q.size < k := by
  unfold get? size
  split
  · next h0 => simp [h0]
  · rw [Array.getElem?_eq_none_iff]
    omega

/-- The entry at position `k` is handed out, and no other is missing afterwards. Where there is
no such entry, nothing changes. -/
structure TakesOut (q : Queue α) (k : Nat) (answer : Answer α) (rest : Queue α) : Prop where
  answer_eq : answer = .taken (q.get? k)
  bag_eq : q.bag = (q.get? k).toList + rest.bag
  eq_iff : rest = q ↔ k = 0 ∨ q.size < k

theorem takesOut_handOut {q : Queue α} {k : Nat} {out : Option (Entry α × Queue α)}
    (missing : out = none → q.get? k = none)
    (found : ∀ e rest, out = some (e, rest) → q.get? k = some e ∧ q.bag = e ::ₘ rest.bag) :
    q.TakesOut k (q.handOut out).1 (q.handOut out).2 := by
  cases out with
  | none =>
    have hk := missing rfl
    exact ⟨by simp [handOut, hk], by simp [handOut, hk],
      by simp [handOut, (get?_eq_none_iff q k).1 hk]⟩
  | some out =>
    obtain ⟨e, rest⟩ := out
    obtain ⟨hk, hbag⟩ := found e rest rfl
    refine ⟨by simp [handOut, hk], by simp [handOut, hk, hbag], ?_⟩
    have some_at : ¬ (k = 0 ∨ q.size < k) := fun h => by
      rw [(get?_eq_none_iff q k).2 h] at hk
      cases hk
    have smaller : rest ≠ q := fun h => by
      have := congrArg Multiset.card hbag
      simp [h] at this
    exact iff_of_false smaller some_at

/-- `pop` takes out the entry at position 1. -/
theorem takesOut_pop (q : Queue α) :
    q.TakesOut 1 (q.perform .pop).1 (q.perform .pop).2 := by
  refine takesOut_handOut (fun h => ?_) (fun e rest h => ?_) <;> unfold pop at h <;> split at h
  · cases h
  · next h0 =>
    rw [get?_eq_none_iff, size]
    omega
  · next h0 =>
    obtain ⟨rfl, rfl⟩ := Prod.mk.inj (Option.some.inj h)
    have drop := (Heap.removeAt_perm q.entries 0 h0).symm.trans
      ((Heap.siftDown_perm _ 0).symm.cons _)
    exact ⟨by rw [get?_one, peek, Array.getElem?_eq_getElem], Multiset.coe_eq_coe.2 drop⟩
  · cases h

/-- `extractRaw` takes out the entry at the position named. -/
theorem takesOut_extractRaw (q : Queue α) (k : Nat) :
    q.TakesOut k (q.perform (.extractRaw k)).1 (q.perform (.extractRaw k)).2 := by
  refine takesOut_handOut (fun h => ?_) (fun e rest h => ?_) <;> unfold extractRaw at h <;>
    split at h
  · cases h
  · next hk =>
    rw [get?_eq_none_iff, size]
    omega
  · next hk =>
    obtain ⟨rfl, rfl⟩ := Prod.mk.inj (Option.some.inj h)
    have drop := (Heap.removeAt_perm q.entries (k - 1) (by omega)).symm
    refine ⟨?_, Multiset.coe_eq_coe.2 drop⟩
    rw [get?, if_neg (by omega), Array.getElem?_eq_getElem]
  · cases h

/-- `postponeMin` gives the entry at position 1 the deadline, if that is not earlier than its
own. -/
theorem perform_postponeMin_of_le {q : Queue α} {root : Entry α} (h : q.get? 1 = some root)
    {due : Instant} (hle : root.due ≤ due) :
    (q.perform (.postponeMin due)).1 = .done ∧
      ∃ others, q.bag = root ::ₘ others ∧
        (q.perform (.postponeMin due)).2.bag = { root with due := due } ::ₘ others := by
  obtain ⟨later, hlater⟩ := exists_postponeMin_of_le h hle
  obtain ⟨others, hothers, hperm⟩ := toList_postponeMin h hlater
  have performed : q.perform (.postponeMin due) = (.done, later) := by simp [perform, hlater]
  rw [performed]
  exact ⟨rfl, others, congrArg _ hothers, Multiset.coe_eq_coe.2 hperm⟩

theorem perform_postponeMin_of_lt {q : Queue α} {root : Entry α} (h : q.get? 1 = some root)
    {due : Instant} (hlt : due < root.due) :
    q.perform (.postponeMin due) = (.refused .movedEarlier, q) := by
  obtain ⟨h0, rfl⟩ := Array.getElem?_eq_some_iff.1 h
  simp [perform, postponeMin, h0, hlt]

theorem perform_postponeMin_of_none {q : Queue α} (h : q.get? 1 = none) (due : Instant) :
    q.perform (.postponeMin due) = (.done, q) := by
  have h0 : ¬ 0 < q.entries.size := by
    rw [get?_eq_none_iff, size] at h
    omega
  simp [perform, postponeMin, h0]

/-! ## §3 Ledger -/

/-- What an answer hands out. -/
def Answer.handedOut : Answer α → Multiset (Entry α)
  | .taken e => e.toList
  | .takenAll es => es
  | _ => 0

/-- What a request brings. -/
def Request.arrivals : Request α → Multiset (Entry α)
  | .push due item => {⟨due, item⟩}
  | _ => 0

/-- What leaves with a request: handed out with the answer, or dropped. -/
def departures (q : Queue α) (r : Request α) : Multiset (Entry α) :=
  match r with
  | .clear => q.bag
  | r => (q.perform r).1.handedOut

/-- What a request re-dates, with the new deadlines. -/
def redatings (q : Queue α) : Request α → Multiset (Entry α × Instant)
  | .postponeMin due =>
    match q.get? 1 with
    | some root => if due < root.due then 0 else {(root, due)}
    | none => 0
  | _ => 0

/-- Entries as they were before they were re-dated. -/
def former (changes : Multiset (Entry α × Instant)) : Multiset (Entry α) :=
  changes.map Prod.fst

/-- Entries as they are once they are re-dated. -/
def redated (changes : Multiset (Entry α × Instant)) : Multiset (Entry α) :=
  changes.map fun change => { change.1 with due := change.2 }

/-- The items of entries, without their deadlines. -/
def items (entries : Multiset (Entry α)) : Multiset α := entries.map Entry.item

@[simp] theorem former_zero : former (0 : Multiset (Entry α × Instant)) = 0 := rfl

@[simp] theorem redated_zero : redated (0 : Multiset (Entry α × Instant)) = 0 := rfl

@[simp] theorem former_add (changes others : Multiset (Entry α × Instant)) :
    former (changes + others) = former changes + former others :=
  Multiset.map_add _ _ _

@[simp] theorem redated_add (changes others : Multiset (Entry α × Instant)) :
    redated (changes + others) = redated changes + redated others :=
  Multiset.map_add _ _ _

@[simp] theorem items_add (entries others : Multiset (Entry α)) :
    items (entries + others) = items entries + items others :=
  Multiset.map_add _ _ _

/-- Re-dating leaves the items alone. -/
theorem items_redated (changes : Multiset (Entry α × Instant)) :
    items (redated changes) = items (former changes) := by
  simp [items, redated, former]

theorem bag_push (q : Queue α) (due : Instant) (item : α) :
    (q.push due item).bag = ⟨due, item⟩ ::ₘ q.bag :=
  Multiset.coe_eq_coe.2 (toList_push q due item)

theorem bag_heapify (q : Queue α) : q.heapify.bag = q.bag :=
  Multiset.coe_eq_coe.2 (Heap.heapify_perm q.entries)

theorem bag_purgeWith {σ : Type} (test : α → σ → Bool × σ) (s : σ) (q : Queue α) :
    (q.purgeWith test s).1 + (q.purgeWith test s).2.1.bag = q.bag :=
  Multiset.coe_eq_coe.2 (toList_purgeWith test s q)

/-- What leaves with the entry at a position. -/
theorem TakesOut.bag_add {q rest : Queue α} {k : Nat} {answer : Answer α}
    (h : q.TakesOut k answer rest) : rest.bag + answer.handedOut = q.bag := by
  rw [h.bag_eq, h.answer_eq, Multiset.add_comm]
  rfl

/-- What one request does to the content. -/
theorem bag_perform (q : Queue α) (r : Request α) :
    (q.perform r).2.bag + q.departures r + former (q.redatings r) =
      q.bag + r.arrivals + redated (q.redatings r) := by
  cases r with
  | push due item =>
    show (q.push due item).bag + 0 + 0 = q.bag + {⟨due, item⟩} + 0
    simp [bag_push, Multiset.add_comm]
  | pop =>
    show (q.perform .pop).2.bag + (q.perform .pop).1.handedOut + 0 = q.bag + 0 + 0
    simp [(takesOut_pop q).bag_add]
  | peek => rfl
  | postponeMin due =>
    have stays : q.departures (.postponeMin due) = 0 := by
      show (q.perform (.postponeMin due)).1.handedOut = 0
      simp only [perform]
      split <;> rfl
    cases h : q.get? 1 with
    | none => simp [stays, redatings, h, perform_postponeMin_of_none h, Request.arrivals]
    | some root =>
      by_cases hlt : due < root.due
      · simp [stays, redatings, h, hlt, perform_postponeMin_of_lt h hlt, Request.arrivals]
      · obtain ⟨-, others, before, later⟩ := perform_postponeMin_of_le h (Std.not_lt.1 hlt)
        simp only [stays, redatings, h, hlt, before, later, Request.arrivals, former, redated,
          if_false, Multiset.map_singleton, Multiset.add_zero, Multiset.cons_add,
          Multiset.add_comm others, Multiset.singleton_add]
        exact Multiset.cons_swap _ _ _
  | extractRaw k =>
    show (q.perform (.extractRaw k)).2.bag + (q.perform (.extractRaw k)).1.handedOut + 0 =
      q.bag + 0 + 0
    simp [(takesOut_extractRaw q k).bag_add]
  | heapify =>
    show q.heapify.bag + 0 + 0 = q.bag + 0 + 0
    rw [bag_heapify]
  | purge test memory =>
    show (q.purgeWith test memory).2.1.bag + (q.purgeWith test memory).1 + 0 = q.bag + 0 + 0
    simp [← bag_purgeWith test memory q, Multiset.add_comm]
  | clear =>
    show 0 + q.bag + 0 = q.bag + 0 + 0
    simp
  | takeAll =>
    show 0 + q.bag + 0 = q.bag + 0 + 0
    simp

/-- What a measure of single requests comes to over a list of them. -/
def total {β : Type} (measure : Queue α → Request α → Multiset β) (q : Queue α) :
    List (Request α) → Multiset β
  | [] => 0
  | r :: rs => measure q r + total measure (q.perform r).2 rs

/-- What a list of requests does to the content. -/
theorem bag_after (q : Queue α) (requests : List (Request α)) :
    (q.after requests).bag + total departures q requests + former (total redatings q requests) =
      q.bag + total (fun _ => Request.arrivals) q requests +
        redated (total redatings q requests) := by
  induction requests generalizing q with
  | nil => rfl
  | cons r rs ih =>
    have step := bag_perform q r
    have rest := ih (q.perform r).2
    simp only [after_cons, total, former_add, redated_add]
    calc
      _ = ((q.perform r).2.after rs).bag + total departures (q.perform r).2 rs +
            former (total redatings (q.perform r).2 rs) +
            (q.departures r + former (q.redatings r)) := by ac_rfl
      _ = (q.perform r).2.bag + q.departures r + former (q.redatings r) +
            (total (fun _ => Request.arrivals) (q.perform r).2 rs +
              redated (total redatings (q.perform r).2 rs)) := by rw [rest]; ac_rfl
      _ = _ := by rw [step]; ac_rfl

/-- The items are conserved. -/
theorem items_after (q : Queue α) (requests : List (Request α)) :
    items (q.after requests).bag + items (total departures q requests) =
      items q.bag + items (total (fun _ => Request.arrivals) q requests) := by
  have ledger := congrArg items (bag_after q requests)
  simpa only [items_add, items_redated, Multiset.add_right_inj, add_left_inj] using ledger

/-- **No entry is lost or made, and no access leaves the store, heap or not.** On any store the
two sifts come to an end within it, from every position they can be started at. `pop` takes out
the entry at position 1 and `extractRaw` the one at the position named, each of them and no other;
there is nothing to take, and nothing changes, exactly when there is no such position.
`postponeMin` re-dates the entry at position 1. After any requests, in any order and with no
repair after `extractRaw`, the content and what has left are together what there was to begin
with and what has arrived: entry by entry with each re-dated entry in its two versions, and item
by item without them. -/
theorem content_conserved_on_any_store (q : Queue α) :
    (∀ (a : Array (Entry α)) (i : Nat) (h : i < a.size),
        Heap.Ends Heap.roundUp a (i + 1) (Heap.siftUp a i h)) ∧
      (∀ (a : Array (Entry α)) (i : Nat),
        Heap.Ends Heap.roundDown a (i + 1) (Heap.siftDown a i)) ∧
      q.TakesOut 1 (q.perform .pop).1 (q.perform .pop).2 ∧
      (∀ k, q.TakesOut k (q.perform (.extractRaw k)).1 (q.perform (.extractRaw k)).2 ∧
        ((q.perform (.extractRaw k)).1 = .taken none ↔ k = 0 ∨ q.size < k)) ∧
      (∀ due, q.get? 1 = none → q.perform (.postponeMin due) = (.done, q)) ∧
      (∀ due root, q.get? 1 = some root → root.due ≤ due →
        (q.perform (.postponeMin due)).1 = .done ∧
          ∃ others, q.bag = root ::ₘ others ∧
            (q.perform (.postponeMin due)).2.bag = { root with due := due } ::ₘ others) ∧
      ∀ requests,
        (q.after requests).bag + total departures q requests +
            former (total redatings q requests) =
          q.bag + total (fun _ => Request.arrivals) q requests +
            redated (total redatings q requests) ∧
        items (q.after requests).bag + items (total departures q requests) =
          items q.bag + items (total (fun _ => Request.arrivals) q requests) := by
  refine ⟨Heap.ends_siftUp, Heap.ends_siftDown, takesOut_pop q,
    fun k => ⟨takesOut_extractRaw q k, ?_⟩, fun due h => perform_postponeMin_of_none h due,
    fun due root h hle => perform_postponeMin_of_le h hle,
    fun requests => ⟨bag_after q requests, items_after q requests⟩⟩
  rw [(takesOut_extractRaw q k).answer_eq, ← get?_eq_none_iff]
  simp

end TaskTimer.Queue
