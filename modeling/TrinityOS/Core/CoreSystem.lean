import Mathlib.Data.Int.Notation
import TrinityOS.Dict

namespace TrinityOS.Core

variable {τ : Type}

inductive ProcessState where
  | new | ready | running | waiting | terminated
  deriving DecidableEq

/-- An empty `std::function` is `none`. -/
structure Process (τ : Type) where
  pid : ℤ
  priority : ℤ
  state : ProcessState
  name : String
  task : Option τ

/-- Where the thread of `schedulerLoop` is: waiting for the lock or on the condition variable,
on its way to the task it has taken, inside the task, or past the loop and not yet joined. -/
inductive SchedulerThread (τ : Type) where
  | notJoinable
  | waiting
  | selected (proc : Process τ)
  | executing (proc : Process τ)
  | finished

/-- Pids stay below the largest `int`, so that `nextPid_++` does not overflow. -/
structure CoreSystem (τ : Type) where
  readyQueue : List (Process τ)
  schedulerThread : SchedulerThread τ
  running : Bool
  nextPid : ℤ
  processStates : Dict ℤ ProcessState

/-- The steps that threads interleave: each critical section under `queueMutex_`, and what lies
between two of them. -/
inductive Action (τ : Type) where
  -- the two statements of `start`
  | setRunning
  | launch
  -- the two parts of `stop`
  | clearRunning
  | join
  | addProcess (task : Option τ) (priority : ℤ) (name : String)
  | schedulerLoop

inductive Event (τ : Type) where
  | added (proc : Process τ)
  | taken (proc : Process τ)
  | invoked (pid : ℤ) (task : τ)
  | terminated (pid : ℤ)
  | exited

namespace CoreSystem

def initial : CoreSystem τ := ⟨[], .notJoinable, false, 1, Dict.empty⟩

/-- The assignment to `schedulerThread_`, which ends the program when it holds a thread. -/
def launch (s : CoreSystem τ) : Option (CoreSystem τ) :=
  match s.schedulerThread with
  | .notJoinable => some { s with schedulerThread := .waiting }
  | _ => none

def join (s : CoreSystem τ) : Option (CoreSystem τ) :=
  match s.schedulerThread with
  | .notJoinable => some s
  | .finished => some { s with schedulerThread := .notJoinable }
  | _ => none

def addProcess (s : CoreSystem τ) (task : Option τ) (priority : ℤ) (name : String) :
    CoreSystem τ × Process τ :=
  let proc : Process τ := ⟨s.nextPid, priority, .ready, name, task⟩
  let it := s.readyQueue.findIdx (fun p => priority > p.priority)
  ({ s with
      nextPid := s.nextPid + 1
      readyQueue := s.readyQueue.insertIdx it proc
      processStates := s.processStates.set proc.pid .ready }, proc)

def schedulerLoop (s : CoreSystem τ) : Option (CoreSystem τ × List (Event τ)) :=
  match s.schedulerThread with
  | .notJoinable => none
  | .waiting =>
    match s.readyQueue with
    | [] =>
      -- `cv_.wait` returns with an empty queue only when the scheduler is stopped
      if s.running then none else some ({ s with schedulerThread := .finished }, [.exited])
    | front :: rest =>
      let proc := { front with state := .running }
      some ({ s with
        readyQueue := rest
        processStates := s.processStates.set proc.pid proc.state
        schedulerThread := .selected proc }, [.taken proc])
  | .selected proc =>
    some ({ s with schedulerThread := .executing proc }, (proc.task.map (.invoked proc.pid)).toList)
  | .executing proc =>
    let proc := { proc with state := .terminated }
    some ({ s with
      processStates := s.processStates.set proc.pid proc.state
      schedulerThread := .waiting }, [.terminated proc.pid])
  | .finished => none

/-- One step, if it is possible: a blocked one is not, nor is one that ends the program. -/
def step (s : CoreSystem τ) : Action τ → Option (CoreSystem τ × List (Event τ))
  | .setRunning => some ({ s with running := true }, [])
  | .launch => s.launch.map (·, [])
  | .clearRunning => some ({ s with running := false }, [])
  | .join => s.join.map (·, [])
  | .addProcess task priority name =>
    let (s, proc) := s.addProcess task priority name
    some (s, [.added proc])
  | .schedulerLoop => s.schedulerLoop

end CoreSystem

inductive Reaches : List (Event τ) → CoreSystem τ → Prop
  | initial : Reaches [] .initial
  | step {es s action s' new} (h : Reaches es s) (hs : s.step action = some (s', new)) : Reaches (es ++ new) s'

def added (es : List (Event τ)) : List (Process τ) :=
  es.filterMap fun
    | .added proc => some proc
    | _ => none

def takenPids (es : List (Event τ)) : List ℤ :=
  es.filterMap fun
    | .taken proc => some proc.pid
    | _ => none

def pending (es : List (Event τ)) : List (Process τ) :=
  (added es).filter fun proc => proc.pid ∉ takenPids es

def invocations (es : List (Event τ)) (pid : ℤ) : List τ :=
  es.filterMap fun
    | .invoked q task => if q = pid then some task else none
    | _ => none

inductive Transition (s : CoreSystem τ) : CoreSystem τ → List (Event τ) → Prop
  | flagged (running : Bool) : Transition s { s with running := running } []
  | launched (hthread : s.schedulerThread = .notJoinable) : Transition s { s with schedulerThread := .waiting } []
  | unjoined (hthread : s.schedulerThread = .notJoinable) : Transition s s []
  | joined (hthread : s.schedulerThread = .finished) : Transition s { s with schedulerThread := .notJoinable } []
  | added (task : Option τ) (priority : ℤ) (name : String) :
      Transition s (s.addProcess task priority name).1 [.added (s.addProcess task priority name).2]
  | exited (hthread : s.schedulerThread = .waiting) (hqueue : s.readyQueue = []) (hstopped : s.running = false) :
      Transition s { s with schedulerThread := .finished } [.exited]
  | taken (proc rest) (hthread : s.schedulerThread = .waiting) (hqueue : s.readyQueue = proc :: rest) :
      Transition s { s with
        readyQueue := rest
        processStates := s.processStates.set proc.pid .running
        schedulerThread := .selected { proc with state := .running } } [.taken { proc with state := .running }]
  | invoked (proc) (hthread : s.schedulerThread = .selected proc) :
      Transition s { s with schedulerThread := .executing proc } (proc.task.map (.invoked proc.pid)).toList
  | terminated (proc) (hthread : s.schedulerThread = .executing proc) :
      Transition s { s with
        processStates := s.processStates.set proc.pid .terminated
        schedulerThread := .waiting } [.terminated proc.pid]

variable {s s' : CoreSystem τ} {action : Action τ} {new : List (Event τ)}

theorem schedulerLoop_transition (h : s.schedulerLoop = some (s', new)) : Transition s s' new := by
  unfold CoreSystem.schedulerLoop at h
  cases hthread : s.schedulerThread with
  | notJoinable => simp [hthread] at h
  | finished => simp [hthread] at h
  | waiting =>
    simp only [hthread] at h
    cases hqueue : s.readyQueue with
    | nil =>
      simp only [hqueue] at h
      cases hrunning : s.running with
      | true => simp [hrunning] at h
      | false =>
        simp only [hrunning, Bool.false_eq_true, ↓reduceIte, Option.some.injEq, Prod.mk.injEq] at h
        obtain ⟨rfl, rfl⟩ := h
        simpa only [hqueue, hrunning] using Transition.exited hthread hqueue hrunning
    | cons proc rest =>
      simp only [hqueue, Option.some.injEq, Prod.mk.injEq] at h
      obtain ⟨rfl, rfl⟩ := h
      exact .taken proc rest hthread hqueue
  | selected proc =>
    simp only [hthread, Option.some.injEq, Prod.mk.injEq] at h
    obtain ⟨rfl, rfl⟩ := h
    exact .invoked proc hthread
  | executing proc =>
    simp only [hthread, Option.some.injEq, Prod.mk.injEq] at h
    obtain ⟨rfl, rfl⟩ := h
    exact .terminated proc hthread

theorem step_transition (h : s.step action = some (s', new)) : Transition s s' new := by
  cases action with
  | setRunning =>
    obtain ⟨rfl, rfl⟩ := Prod.mk.inj (Option.some.inj h)
    exact .flagged true
  | clearRunning =>
    obtain ⟨rfl, rfl⟩ := Prod.mk.inj (Option.some.inj h)
    exact .flagged false
  | launch =>
    obtain ⟨t, ht, heq⟩ := Option.map_eq_some_iff.mp h
    obtain ⟨rfl, rfl⟩ := Prod.mk.inj heq
    unfold CoreSystem.launch at ht
    split at ht
    · obtain rfl := Option.some.inj ht
      exact .launched (by assumption)
    · cases ht
  | join =>
    obtain ⟨t, ht, heq⟩ := Option.map_eq_some_iff.mp h
    obtain ⟨rfl, rfl⟩ := Prod.mk.inj heq
    unfold CoreSystem.join at ht
    split at ht
    · obtain rfl := Option.some.inj ht
      exact .unjoined (by assumption)
    · obtain rfl := Option.some.inj ht
      exact .joined (by assumption)
    · cases ht
  | addProcess task priority name =>
    obtain ⟨rfl, rfl⟩ := Prod.mk.inj (Option.some.inj h)
    exact .added task priority name
  | schedulerLoop => exact schedulerLoop_transition h

def CoreSystem.run (s : CoreSystem τ) : List (Action τ) → Option (CoreSystem τ × List (Event τ))
  | [] => some (s, [])
  | action :: actions => do
    let (s, first) ← s.step action
    let (s, rest) ← s.run actions
    return (s, first ++ rest)

theorem Reaches.run {es : List (Event τ)} {actions : List (Action τ)} (h : Reaches es s)
    (hr : s.run actions = some (s', new)) : Reaches (es ++ new) s' := by
  induction actions generalizing es s new with
  | nil =>
    obtain ⟨rfl, rfl⟩ := Prod.mk.inj (Option.some.inj hr)
    rw [List.append_nil]
    exact h
  | cons action actions ih =>
    obtain ⟨⟨t, first⟩, hs, hr⟩ := Option.bind_eq_some_iff.mp hr
    obtain ⟨⟨t', rest⟩, hrest, heq⟩ := Option.bind_eq_some_iff.mp hr
    obtain ⟨rfl, rfl⟩ := Prod.mk.inj (Option.some.inj heq)
    rw [← List.append_assoc]
    exact ih (.step h hs) hrest

def CoreSystem.outcome (actions : List (Action τ)) : CoreSystem τ × List (Event τ) :=
  (CoreSystem.initial.run actions).getD (.initial, [])

theorem Reaches.outcome (actions : List (Action τ)) :
    Reaches (CoreSystem.outcome actions).2 (CoreSystem.outcome actions).1 := by
  unfold CoreSystem.outcome
  cases hr : CoreSystem.initial.run actions with
  | none => exact .initial
  | some outcome => exact Reaches.initial.run hr

theorem Reaches.induct {P : List (Event τ) → CoreSystem τ → Prop} (hinit : P [] .initial)
    (hstep : ∀ es s s' new, P es s → Transition s s' new → P (es ++ new) s') {es : List (Event τ)}
    {s : CoreSystem τ} (h : Reaches es s) : P es s := by
  induction h with
  | initial => exact hinit
  | step _ hs ih => exact hstep _ _ _ _ ih (step_transition hs)

end TrinityOS.Core
