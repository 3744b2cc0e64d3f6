/-
TaskTimer.Proofs.Settling.Purging — purging makes no difference.

A purge takes entries out of a queue whose tasks were called off, and lays out what stays anew.
Neither matters: an entry of such a task never fires and holds nothing up for longer than a turn.
A timer that is on its own has all that is to run in its queue, so worlds that differ in that
queue alone are akin (`Alike.akin`): calls keep them so, and threads settle alike in them
(`Alike.settles`). A purge leads to such a world. So a session in which the thread settles after
every call comes to the same with its purges and without them.
-/
import TaskTimer.Proofs.Settling.Alike

namespace TaskTimer

/-- Settling came to the same but for the queue, and ran the same but for the order of executions
with equal deadlines. -/
structure SettledAlike (t : TimerRef) (r r' : System) (fs gs : List (Firing TaskRef)) : Prop where
  alike : Alike t r.world r'.world
  perm : fs.Perm gs
  dues : fs.map (·.due) = gs.map (·.due)

namespace Alike

variable {t : TimerRef} {s s' r r' : System} {fs gs : List (Firing TaskRef)}

/-- All that is to run waits in the queue of the only timer, unless that is off. -/
theorem akin (h : Alike t s.world s'.world) (hs : s.Attended t) (hs' : s'.Attended t) :
    Akin t s.world s'.world := by
  obtain ⟨queue, htimer⟩ := h.timer
  refine ⟨h, fun k hk => ?_⟩
  by_cases hoff : (s.world.timer t).Off
  · have hoff' : (s'.world.timer t).Off := by rwa [htimer]
    rw [World.queuedTasks, World.queuedTasks, (hs.unoccupied.of_off hoff).1,
      (hs'.unoccupied.of_off hoff').1]
  · have hoff' : ¬ (s'.world.timer t).Off := by rwa [htimer]
    exact iff_of_true (hs'.allQueued hoff' k (h.task k ▸ hk)) (hs.allQueued hoff k hk)

/-- Threads that settle in worlds that are alike fire the same and come to what is alike. -/
theorem settles (h : Alike t s.world s'.world) (hs : s.Attended t) (hs' : s'.Attended t)
    (hr : System.Settles t s fs r) (hr' : System.Settles t s' gs r') :
    SettledAlike t r r' fs gs := by
  obtain ⟨hakin, hperm, hdues⟩ := (h.akin hs hs').settles hs.unoccupied hs'.unoccupied hr hr'
  exact ⟨hakin.toAlike, hperm, hdues⟩

end Alike

/-! ## Sessions -/

namespace System

/-- What has run on `t` between two moments. -/
def firedBetween (t : TimerRef) (before after : System) : List (Firing TaskRef) :=
  (firingsOn t after.log).drop (firingsOn t before.log).length

/-- A timer is started, and calls are made one after another; after each of them the thread
settles, and bodies do nothing. -/
def session (clock : Clock) (calls : List Action) : System :=
  calls.foldl (fun s a => (s.next a).settle ⟨0⟩) (after [.startTimer clock])

theorem session_concat (clock : Clock) (calls : List Action) (a : Action) :
    session clock (calls ++ [a]) = ((session clock calls).next a).settle ⟨0⟩ := by
  rw [session, List.foldl_append]
  rfl

variable {clock : Clock} {calls calls' : List Action} {a : Action}

theorem attended_startTimer (hclock : clock.HasRoom) :
    (after [.startTimer clock]).Attended ⟨0⟩ where
  reachable := ⟨_, rfl⟩
  hasTimer := Nat.zero_lt_one
  only u hu := by
    cases u
    exact congrArg TimerRef.mk (Nat.lt_one_iff.1 hu)
  free := rfl
  present := .inl rfl
  room := hclock

theorem attended_session (hclock : clock.HasRoom) (hcalls : ∀ a ∈ calls, a.IsCallOn ⟨0⟩) :
    (session clock calls).Attended ⟨0⟩ := by
  induction calls using List.reverseRecOn with
  | nil => exact attended_startTimer hclock
  | append_singleton calls a ih =>
    rw [session_concat]
    have hbefore := ih fun b hb => hcalls b (List.mem_append_left _ hb)
    obtain ⟨-, -, hattended, -⟩ := (hbefore.next_call (hcalls a (by simp))).settles
    exact hattended

/-- A call and what settles after it, in a session. -/
theorem settles_session_concat (hclock : clock.HasRoom)
    (hcalls : ∀ b ∈ calls ++ [a], b.IsCallOn ⟨0⟩) :
    ((session clock calls).next a).Attended ⟨0⟩ ∧
      Settles ⟨0⟩ ((session clock calls).next a)
        (firedBetween ⟨0⟩ (session clock calls) (session clock (calls ++ [a])))
        (session clock (calls ++ [a])) := by
  have hbefore : (session clock calls).Attended ⟨0⟩ :=
    attended_session hclock fun b hb => hcalls b (List.mem_append_left _ hb)
  have hcall : a.IsCallOn ⟨0⟩ := hcalls a (by simp)
  have hattended := hbefore.next_call hcall
  obtain ⟨fs, hsettles, -, hlog⟩ := hattended.settles
  rw [firingsOn_next_call hcall] at hlog
  refine ⟨hattended, ?_⟩
  rw [session_concat, firedBetween, hlog, List.drop_left]
  exact hsettles

theorem settled_session (hclock : clock.HasRoom) (hcalls : ∀ a ∈ calls, a.IsCallOn ⟨0⟩) :
    (session clock calls).Settled ⟨0⟩ := by
  rcases List.eq_nil_or_concat calls with rfl | ⟨before, a, rfl⟩
  · exact .inr ⟨rfl, rfl, none, rfl⟩
  · rw [List.concat_eq_append] at hcalls ⊢
    exact (settles_session_concat hclock hcalls).2.settled

end System

/-- The second list of calls is the first one without some of its purges of `t`. -/
inductive Thinned (t : TimerRef) : List Action → List Action → Prop
  | nil : Thinned t [] []
  | keep {calls calls' : List Action} (a : Action) (before : Thinned t calls calls') :
    Thinned t (calls ++ [a]) (calls' ++ [a])
  | drop {calls calls' : List Action} (before : Thinned t calls calls') :
    Thinned t (calls ++ [.purge t]) calls'

/-- Nothing has to be left out. -/
theorem Thinned.refl (t : TimerRef) (calls : List Action) : Thinned t calls calls := by
  induction calls using List.reverseRecOn with
  | nil => exact .nil
  | append_singleton calls a ih => exact .keep a ih

theorem Thinned.subset {t : TimerRef} {calls calls' : List Action} (h : Thinned t calls calls') :
    calls' ⊆ calls := by
  induction h with
  | nil => exact List.Subset.refl _
  | @keep calls calls' a before ih =>
    have hbefore : calls' ⊆ calls ++ [a] := List.subset_append_of_subset_left _ ih
    exact List.append_subset.2 ⟨hbefore, List.subset_append_right _ _⟩
  | drop before ih => exact List.subset_append_of_subset_left _ ih

namespace System

variable {t : TimerRef} {clock : Clock} {calls calls' : List Action} {a : Action}

theorem alike_next_purge (s : System) (t : TimerRef) :
    Alike t s.world (s.next (.purge t)).world := by
  rw [next]
  split
  · exact Alike.purge t s.world
  · exact Alike.refl t s.world

/-- A call, and what settles after it, keep sessions alike. -/
theorem session_concat_alike (hclock : clock.HasRoom) (hcalls : ∀ b ∈ calls ++ [a], b.IsCallOn ⟨0⟩)
    (hcalls' : ∀ b ∈ calls' ++ [a], b.IsCallOn ⟨0⟩)
    (h : Alike ⟨0⟩ (session clock calls).world (session clock calls').world) :
    SettledAlike ⟨0⟩ (session clock (calls ++ [a])) (session clock (calls' ++ [a]))
      (firedBetween ⟨0⟩ (session clock calls) (session clock (calls ++ [a])))
      (firedBetween ⟨0⟩ (session clock calls') (session clock (calls' ++ [a]))) := by
  obtain ⟨hattended, hsettles⟩ := settles_session_concat hclock hcalls
  obtain ⟨hattended', hsettles'⟩ := settles_session_concat hclock hcalls'
  have hakin := h.akin (attended_session hclock fun b hb => hcalls b (List.mem_append_left _ hb))
    (attended_session hclock fun b hb => hcalls' b (List.mem_append_left _ hb))
  exact (hakin.next (hcalls a (by simp))).toAlike.settles hattended hattended' hsettles hsettles'

/-- So does a purge that only one of them makes; and nothing runs after it. -/
theorem session_purge_alike (hclock : clock.HasRoom)
    (hcalls : ∀ b ∈ calls ++ [.purge ⟨0⟩], b.IsCallOn ⟨0⟩) (hcalls' : ∀ b ∈ calls', b.IsCallOn ⟨0⟩)
    (h : Alike ⟨0⟩ (session clock calls).world (session clock calls').world) :
    SettledAlike ⟨0⟩ (session clock (calls ++ [.purge ⟨0⟩])) (session clock calls')
      (firedBetween ⟨0⟩ (session clock calls) (session clock (calls ++ [.purge ⟨0⟩]))) [] := by
  obtain ⟨hattended, hsettles⟩ := settles_session_concat hclock hcalls
  have halike := (alike_next_purge (session clock calls) ⟨0⟩).symm.trans h
  exact halike.settles hattended (attended_session hclock hcalls') hsettles
    (.rest (settled_session hclock hcalls'))

end System

theorem Thinned.alike {clock : Clock} {calls calls' : List Action} (hclock : clock.HasRoom)
    (h : Thinned ⟨0⟩ calls calls') (hcalls : ∀ a ∈ calls, a.IsCallOn ⟨0⟩) :
    Alike ⟨0⟩ (System.session clock calls).world (System.session clock calls').world := by
  induction h with
  | nil => exact Alike.refl _ _
  | keep a before ih =>
    have hbefore := ih fun b hb => hcalls b (List.mem_append_left _ hb)
    have hcalls' := fun b hb => hcalls b ((before.keep a).subset hb)
    exact (System.session_concat_alike hclock hcalls hcalls' hbefore).alike
  | drop before ih =>
    have hbefore := ih fun b hb => hcalls b (List.mem_append_left _ hb)
    have hcalls' := fun b hb => hcalls b (before.drop.subset hb)
    exact (System.session_purge_alike hclock hcalls hcalls' hbefore).alike

/-- **Purging makes no difference.** A timer is started, and calls of all kinds are made on it, with
room ahead on its clock; after each call its thread settles, and bodies do nothing. Leave out any of
the purges. Then every other call is followed by the same: the thread comes to rest, and up to
there it runs the same executions, in the same order of deadlines; after that every task has the
same record, and the timer takes tasks, or has ended, as it does with all purges. And nothing runs
after a purge. -/
theorem purges_make_no_difference {clock : Clock} {calls calls' : List Action} {a : Action}
    (hclock : clock.HasRoom) (hcalls : ∀ b ∈ calls ++ [a], b.IsCallOn ⟨0⟩)
    (hthinned : Thinned ⟨0⟩ calls calls') :
    let s := System.session clock calls
    let s' := System.session clock calls'
    let r := System.session clock (calls ++ [a])
    let r' := System.session clock (calls' ++ [a])
    (r.Settled ⟨0⟩ ∧ r'.Settled ⟨0⟩) ∧
    (System.firedBetween ⟨0⟩ s r).Perm (System.firedBetween ⟨0⟩ s' r') ∧
    (System.firedBetween ⟨0⟩ s r).map (·.due) = (System.firedBetween ⟨0⟩ s' r').map (·.due) ∧
    (∀ k, r'.world.task k = r.world.task k) ∧
    (r'.world.timer ⟨0⟩).accepting = (r.world.timer ⟨0⟩).accepting ∧
    (r'.world.timer ⟨0⟩).shutdown = (r.world.timer ⟨0⟩).shutdown ∧
    (a = .purge ⟨0⟩ → System.firedBetween ⟨0⟩ s r = []) := by
  have hbefore : ∀ b ∈ calls, b.IsCallOn ⟨0⟩ := fun b hb => hcalls b (List.mem_append_left _ hb)
  have hcalls' : ∀ b ∈ calls' ++ [a], b.IsCallOn ⟨0⟩ := fun b hb =>
    hcalls b ((hthinned.keep a).subset hb)
  obtain ⟨halike, hperm, hdues⟩ :=
    System.session_concat_alike hclock hcalls hcalls' (hthinned.alike hclock hbefore)
  obtain ⟨queue, htimer⟩ := halike.timer
  refine ⟨⟨System.settled_session hclock hcalls, System.settled_session hclock hcalls'⟩, hperm,
    hdues, halike.task, by rw [htimer], by rw [htimer], ?_⟩
  rintro rfl
  exact (System.session_purge_alike hclock hcalls hbefore (Alike.refl _ _)).perm.eq_nil

/-- Three tasks of four are due at the same moment, and one of them is called off. -/
def oneOfThreeCalledOff : List Action :=
  [.newTask, .newTask, .newTask, .newTask, .submission ⟨0⟩ ⟨0⟩ (.once 3),
    .submission ⟨0⟩ ⟨1⟩ (.once 5), .submission ⟨0⟩ ⟨2⟩ (.once 5), .submission ⟨0⟩ ⟨3⟩ (.once 5),
    .cancelTask ⟨1⟩]

/-- The order of executions with equal deadlines is all that a purge may change, and it does. -/
theorem purges_make_no_difference_oneOfThreeCalledOff :
    let clock : Clock := { now := .origin, wall := .epoch }
    let purged := oneOfThreeCalledOff ++ [.purge ⟨0⟩]
    let due : Action := .setClock ⟨0⟩ { now := 6, wall := .epoch }
    let fs := System.firedBetween ⟨0⟩ (System.session clock purged)
      (System.session clock (purged ++ [due]))
    let gs := System.firedBetween ⟨0⟩ (System.session clock oneOfThreeCalledOff)
      (System.session clock (oneOfThreeCalledOff ++ [due]))
    fs.map (·.task.index) = [0, 2, 3] ∧ gs.map (·.task.index) = [0, 3, 2] ∧ fs.Perm gs := by
  intro clock purged due fs gs
  have hclock : clock.HasRoom := by decide +kernel
  have hcalls : ∀ b ∈ purged ++ [due], b.IsCallOn ⟨0⟩ := by decide +kernel
  have hthinned : Thinned ⟨0⟩ purged oneOfThreeCalledOff := .drop (.refl _ _)
  obtain ⟨-, hperm, -⟩ := purges_make_no_difference hclock hcalls hthinned
  exact ⟨by decide +kernel, by decide +kernel, hperm⟩

end TaskTimer
