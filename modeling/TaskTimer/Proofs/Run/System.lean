/-
TaskTimer.Proofs.Run.System — runs of any number of timers, their tasks and the bodies.

A run is a list of actions, taken one after another from a world without timers and tasks. An
action is

* a call of the kind that any thread can make at any time: making a task, starting a timer, the
  eight ways to submit, calling off, closing, purging. The main thread and a body that is running
  make the same calls, so nothing here tells them apart: what a body does is what happens between
  the turn that fires it and its end;
* a move of a timer's clock, forwards or backwards;
* a turn of a timer's thread, with the tasks that other threads call off between its two looks at
  the head. Nothing else that they do in between can touch its queue or the task at its head. A
  turn is possible as long as the thread is in its loop and no body keeps it busy;
* the end of a body;
* the end of a thread that has left its loop: it records why. To find out that it is to end and to
  record it are two actions, and anything may happen between them.

An action that is not possible (a thread's turn while it runs a body, a call on a timer that was
never started) changes nothing, so every list of actions is a run.

`insert` is a submission that worked out its deadline before: it read the clock, other threads
did what they did, and only now does it take its place in the queue.
-/
import Mathlib.Data.List.Induction
import Mathlib.Logic.Function.Basic
import TaskTimer.Proofs.World.Operations
import TaskTimer.Session.Operation

namespace TaskTimer

open Session (Submission)

namespace Session.Submission

/-- The deadline of the first execution, by the clocks of the timer. -/
def start (timer : Timer) : Submission → Except SubmissionError Instant
  | .once delay | .fixedDelay delay _ | .fixedRate delay _ => timer.dueAfter delay
  | .onceAt time | .fixedDelayFrom time _ | .fixedRateFrom time _ => timer.dueAt time

/-- How the task is to repeat. -/
def period : Submission → Except SubmissionError Period
  | .once _ | .onceAt _ => .ok .once
  | .fixedDelay _ period | .fixedDelayFrom _ period => RepeatMode.fixedDelay.every period
  | .fixedRate _ period | .fixedRateFrom _ period => RepeatMode.fixedRate.every period

theorem op_eq (way : Submission) (t : TimerRef) (k : TaskRef) (w : World) :
    way.op t k w = w.submitChecked t k (way.start (w.timer t)) way.period := by
  cases way <;> rfl

/-- When a submission is due depends on the clocks alone. -/
theorem start_of_clock (way : Submission) {x y : Timer} (h : x.clock = y.clock) :
    way.start x = way.start y := by
  cases way <;> simp only [start, Timer.dueAfter, Timer.dueAt, h]

end Session.Submission

/-- What can happen next. -/
inductive Action where
  | newTask
  | startTimer (clock : Clock)
  | setClock (t : TimerRef) (clock : Clock)
  | submission (t : TimerRef) (k : TaskRef) (way : Submission)
  /-- The second half of a submission whose deadline was worked out earlier. -/
  | insert (t : TimerRef) (k : TaskRef) (due : Instant) (way : Submission)
  | submitOnce (t : TimerRef) (delay : Delay)
  | submitRepeating (t : TimerRef) (delay period : Delay) (mode : RepeatMode)
  | cancelTask (k : TaskRef)
  | cancelAll (t : TimerRef)
  | close (t : TimerRef)
  | purge (t : TimerRef)
  /-- A turn of the timer's thread. -/
  | work (t : TimerRef) (interim : List TaskRef)
  /-- The body that the timer's thread runs ends. -/
  | finish (t : TimerRef) (ending : Ending)
  /-- The timer's thread, which has left its loop, records why; `bursts` if one of the tasks that it
  drops then panics. -/
  | record (t : TimerRef) (bursts : Bool)
deriving DecidableEq

/-- A world, the bodies that run in it, and what has been noted so far. -/
structure System where
  world : World := .empty
  /-- The execution whose body a timer's thread is in the middle of. -/
  running : TimerRef → Option (Firing TaskRef) := fun _ => none
  /-- All events, the first one first. -/
  log : List Event := []

namespace System

/-- Whether the action is possible. -/
def Admits (s : System) : Action → Prop
  | .newTask | .startTimer _ => True
  | .setClock t _ | .submitOnce t _ | .submitRepeating t _ _ _ | .cancelAll t | .close t
  | .purge t => s.world.HasTimer t
  | .submission t k _ | .insert t k _ _ => s.world.HasTimer t ∧ s.world.HasTask k
  | .cancelTask k => s.world.HasTask k
  | .work t interim =>
    s.world.HasTimer t ∧ (s.world.timer t).stage = .going ∧ s.running t = none ∧
      ∀ k ∈ interim, s.world.HasTask k
  | .finish t _ =>
    s.world.HasTimer t ∧ (s.world.timer t).stage = .going ∧ s.running t ≠ none
  | .record t bursts =>
    s.world.HasTimer t ∧ (s.world.timer t).stage.reason? ≠ none ∧
      (bursts = true → (s.world.timer t).queue.peek ≠ none)

instance (s : System) : (a : Action) → Decidable (s.Admits a)
  | .newTask | .startTimer _ => inferInstanceAs (Decidable True)
  | .setClock _ _ | .submitOnce _ _ | .submitRepeating _ _ _ _ | .cancelAll _ | .close _
  | .purge _ => inferInstanceAs (Decidable (World.HasTimer _ _))
  | .submission _ _ _ | .insert _ _ _ _ => inferInstanceAs (Decidable (_ ∧ _))
  | .cancelTask _ => inferInstanceAs (Decidable (World.HasTask _ _))
  | .work _ _ => inferInstanceAs (Decidable (_ ∧ _ ∧ _ ∧ _))
  | .finish _ _ => inferInstanceAs (Decidable (_ ∧ _ ∧ _))
  | .record _ _ => inferInstanceAs (Decidable (_ ∧ _ ∧ (_ → _)))

/-- Goes on with the world of an outcome, and keeps its events. -/
def record {ρ : Type} (s : System) (o : Outcome ρ) : System :=
  { s with world := o.world, log := s.log ++ o.events }

/-- The body that a timer's thread is in the middle of after a turn. -/
def runningAfter (s : System) (t : TimerRef) : Turn → TimerRef → Option (Firing TaskRef)
  | .fire f => Function.update s.running t (some f)
  | _ => s.running

/-- What a possible action leads to. -/
def take (s : System) : Action → System
  | .newTask => s.record s.world.newTask
  | .startTimer clock => s.record (s.world.startTimer clock)
  | .setClock t clock => { s with world := s.world.setClock t clock }
  | .submission t k way => s.record (way.op t k s.world)
  | .insert t k due way => s.record (s.world.submitChecked t k (.ok due) way.period)
  | .submitOnce t delay => s.record (s.world.submitOnce t delay)
  | .submitRepeating t delay period mode =>
    s.record (s.world.submitRepeating t delay period mode)
  | .cancelTask k => s.record (s.world.cancelTask k)
  | .cancelAll t => s.record (s.world.cancelAll t)
  | .close t => s.record (s.world.close t)
  | .purge t => s.record (s.world.purge t)
  | .work t interim =>
    let o := s.world.work t interim
    { s.record o with running := s.runningAfter t o.result }
  | .finish t ending =>
    match s.running t with
    | some f =>
      { s.record (s.world.finish t f.task ending) with
        running := Function.update s.running t none }
    | none => s
  | .record t bursts => s.record (s.world.record t bursts)

/-- The system after an action; one that is not possible changes nothing. -/
def next (s : System) (a : Action) : System := if s.Admits a then s.take a else s

/-- The system after one action after another. -/
def run (s : System) (acts : List Action) : System := acts.foldl next s

/-- The system after these actions, in which nothing had happened before. -/
def after (acts : List Action) : System := ({} : System).run acts

/-- `P` holds of every action, in the system that it finds. -/
def Along (P : System → Action → Prop) : System → List Action → Prop
  | _, [] => True
  | s, a :: acts => P s a ∧ Along P (s.next a) acts

instance decidableAlong {P : System → Action → Prop} [∀ s a, Decidable (P s a)] :
    (s : System) → (acts : List Action) → Decidable (Along P s acts)
  | _, [] => inferInstanceAs (Decidable True)
  | s, a :: acts =>
    have : Decidable (Along P (s.next a) acts) := decidableAlong (s.next a) acts
    inferInstanceAs (Decidable (_ ∧ _))

theorem run_append (s : System) (acts acts' : List Action) :
    s.run (acts ++ acts') = (s.run acts).run acts' :=
  List.foldl_append

theorem after_append (acts acts' : List Action) :
    after (acts ++ acts') = (after acts).run acts' :=
  run_append _ _ _

theorem after_concat (acts : List Action) (a : Action) :
    after (acts ++ [a]) = (after acts).next a :=
  run_append _ _ _

theorem along_append {P : System → Action → Prop} {s : System} {acts acts' : List Action} :
    Along P s (acts ++ acts') ↔ Along P s acts ∧ Along P (s.run acts) acts' := by
  induction acts generalizing s with
  | nil => simp [Along, run]
  | cons a acts ih =>
    simp only [List.cons_append, Along, ih, and_assoc]
    rfl

/-- Induction along a run: what holds at the start and is kept by each action. -/
theorem after_induction {P : List Action → System → Prop} (start : P [] {})
    (step : ∀ acts a, P acts (after acts) → P (acts ++ [a]) ((after acts).next a))
    (acts : List Action) : P acts (after acts) := by
  induction acts using List.reverseRecOn with
  | nil => exact start
  | append_singleton acts a ih => exact after_concat acts a ▸ step acts a ih

/-- Induction along what follows a run, which is a run with it. -/
theorem run_induction {acts : List Action} {P : List Action → System → Prop}
    (start : P [] (after acts))
    (step : ∀ more a, P more (after (acts ++ more)) →
      P (more ++ [a]) ((after (acts ++ more)).next a))
    (more : List Action) : P more ((after acts).run more) := by
  induction more using List.reverseRecOn with
  | nil => exact start
  | append_singleton more a ih =>
    rw [← after_append] at ih ⊢
    rw [← List.append_assoc, after_concat]
    exact step more a ih

end System

/-! ## Numerals

A single run is easier to write down with numerals for counts of nanoseconds. One that is beyond
the bounds stands for zero. -/

instance (n : Nat) : OfNat Instant n := ⟨(Nanos.ofInt? n).getD Instant.origin⟩

instance (n : Nat) : OfNat WallTime n := ⟨(Nanos.ofInt? n).getD WallTime.epoch⟩

instance (n : Nat) : OfNat Duration n := ⟨(Nanos.ofInt? n).getD Duration.zero⟩

instance (n : Nat) : OfNat Delay n := ⟨(Nanos.ofInt? n).getD ⟨0, by decide, by decide⟩⟩

end TaskTimer
