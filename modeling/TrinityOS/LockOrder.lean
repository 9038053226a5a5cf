import TrinityOS.Locks

namespace TrinityOS

open Locks (Op within)

inductive Lock where
  | syscallLock | procLock | memLock | ipcLock
  deriving DecidableEq, Repr

namespace LockTrace

/-! Each function of `CoreSystem` as the locks it takes and gives back. A parameter tells the
paths apart: a function that returns or raises inside a `with` block skips the blocks after it. -/

def initProcessMemory : List (Op Lock) := within .memLock []

def freeProcessMemory : List (Op Lock) := within .memLock []

def syscallProcessCreate (valid : Bool) : List (Op Lock) :=
  within .procLock (if valid then initProcessMemory ++ within .ipcLock [] else [])

def syscallProcessExit (found : Bool) : List (Op Lock) :=
  within .procLock (if found then freeProcessMemory ++ within .ipcLock [] else [])

def syscallProcessWait : List (Op Lock) := within .procLock []

def syscallMemoryAllocate : List (Op Lock) := within .memLock []

def syscallMemoryFree : List (Op Lock) := within .memLock []

def syscallMemoryMap : List (Op Lock) := within .memLock []

def syscallIpcSend (delivered : Bool) : List (Op Lock) :=
  within .ipcLock (if delivered then within .procLock [] else [])

def syscallIpcReceive (blocks : Bool) : List (Op Lock) :=
  within .ipcLock (if blocks then within .procLock [] else [])

end LockTrace

inductive Handler where
  | processCreate (valid : Bool)
  | processExit (found : Bool)
  | processWait
  | memoryAllocate
  | memoryFree
  | memoryMap
  | ipcSend (delivered : Bool)
  | ipcReceive (blocks : Bool)

open LockTrace in
def Handler.trace : Handler → List (Op Lock)
  | .processCreate valid => syscallProcessCreate valid
  | .processExit found => syscallProcessExit found
  | .processWait => syscallProcessWait
  | .memoryAllocate => syscallMemoryAllocate
  | .memoryFree => syscallMemoryFree
  | .memoryMap => syscallMemoryMap
  | .ipcSend delivered => syscallIpcSend delivered
  | .ipcReceive blocks => syscallIpcReceive blocks

namespace LockTrace

/-- No handler runs when the number is unknown or the arguments do not bind. -/
def invokeSyscall (handler : Option Handler) : List (Op Lock) :=
  within .syscallLock (match handler with
    | none => []
    | some handler => handler.trace)

def runScheduler : List (Op Lock) := within .procLock []

def getProcessInfo : List (Op Lock) := within .procLock []

def getMemoryInfo : List (Op Lock) := within .memLock []

def getSyscallStats : List (Op Lock) := within .syscallLock []

def getProcessList (processes : ℕ) : List (Op Lock) :=
  within .procLock (List.replicate processes getProcessInfo).flatten

def getMemoryMap (regions : ℕ) : List (Op Lock) :=
  within .memLock (List.replicate regions getMemoryInfo).flatten

def getSystemInfo : List (Op Lock) := within .procLock (within .memLock [])

end LockTrace

inductive EntryPoint where
  | invokeSyscall (handler : Option Handler)
  | runScheduler
  | getProcessInfo
  | getProcessList (processes : ℕ)
  | getMemoryInfo
  | getMemoryMap (regions : ℕ)
  | getSystemInfo
  | getSyscallStats

open LockTrace in
def EntryPoint.trace : EntryPoint → List (Op Lock)
  | .invokeSyscall handler => LockTrace.invokeSyscall handler
  | .runScheduler => LockTrace.runScheduler
  | .getProcessInfo => LockTrace.getProcessInfo
  | .getProcessList processes => LockTrace.getProcessList processes
  | .getMemoryInfo => LockTrace.getMemoryInfo
  | .getMemoryMap regions => LockTrace.getMemoryMap regions
  | .getSystemInfo => LockTrace.getSystemInfo
  | .getSyscallStats => LockTrace.getSyscallStats

/-- `_syscall_lock` before `_proc_lock` before `_mem_lock`; `_ipc_lock`, which is taken on either
side of `_proc_lock`, is taken under `_syscall_lock` only. -/
def lockOrder : Locks.Order Lock where
  rank
    | .syscallLock => 2
    | .procLock => 1
    | .memLock => 0
    | .ipcLock => 0
  gate
    | .ipcLock => some .syscallLock
    | _ => none

namespace LockTrace

open Locks.Order

variable {held : List Lock}

theorem balanced_leaf {lock : Lock} (h : lockOrder.Allows held lock) :
    lockOrder.Balanced held (within lock []) := Balanced.within h balanced_nil

theorem handler_balanced (handler : Handler) : lockOrder.Balanced [.syscallLock] handler.trace := by
  cases handler with
  | processCreate valid =>
    apply Balanced.within (by simp [Allows, lockOrder])
    split
    · apply (balanced_leaf (by simp [Allows, lockOrder])).append
      exact balanced_leaf (by simp [Allows, lockOrder])
    · exact balanced_nil
  | processExit found =>
    apply Balanced.within (by simp [Allows, lockOrder])
    split
    · apply (balanced_leaf (by simp [Allows, lockOrder])).append
      exact balanced_leaf (by simp [Allows, lockOrder])
    · exact balanced_nil
  | ipcSend delivered =>
    apply Balanced.within (by simp [Allows, lockOrder])
    split
    · exact balanced_leaf (by simp [Allows, lockOrder])
    · exact balanced_nil
  | ipcReceive blocks =>
    apply Balanced.within (by simp [Allows, lockOrder])
    split
    · exact balanced_leaf (by simp [Allows, lockOrder])
    · exact balanced_nil
  | _ => exact balanced_leaf (by simp [Allows, lockOrder])

theorem replicate_balanced {ops : List (Op Lock)} (h : lockOrder.Balanced held ops) (n : ℕ) :
    lockOrder.Balanced held (List.replicate n ops).flatten := by
  apply balanced_flatten
  intro ops' hops'
  rw [List.eq_of_mem_replicate hops']
  exact h

theorem entryPoint_balanced (entry : EntryPoint) : lockOrder.Balanced [] entry.trace := by
  cases entry with
  | invokeSyscall handler =>
    apply Balanced.within (by simp [Allows, lockOrder])
    cases handler with
    | none => exact balanced_nil
    | some handler => exact handler_balanced handler
  | getProcessList processes =>
    apply Balanced.within (by simp [Allows, lockOrder])
    -- the lock is taken again by its holder
    apply replicate_balanced
    exact balanced_leaf (.inl List.mem_cons_self)
  | getMemoryMap regions =>
    apply Balanced.within (by simp [Allows, lockOrder])
    apply replicate_balanced
    exact balanced_leaf (.inl List.mem_cons_self)
  | getSystemInfo =>
    apply Balanced.within (by simp [Allows, lockOrder])
    exact balanced_leaf (by simp [Allows, lockOrder])
  | _ => exact balanced_leaf (by simp [Allows, lockOrder])

def program (entries : List EntryPoint) : List (Op Lock) := (entries.map EntryPoint.trace).flatten

theorem program_follows (entries : List EntryPoint) : lockOrder.Follows [] (program entries) := by
  apply Balanced.follows
  apply balanced_flatten
  intro ops hops
  obtain ⟨entry, -, rfl⟩ := List.mem_map.mp hops
  exact entryPoint_balanced entry

variable {ι : Type} [DecidableEq ι]

theorem no_deadlock (entries : ι → List EntryPoint) {s : Locks.State ι Lock}
    (h : Relation.ReflTransGen Locks.Step (Locks.start fun i => program (entries i)) s)
    (hunfinished : ∃ i, s.todo i ≠ []) : ∃ s', Locks.Step s s' := by
  obtain ⟨i, hi⟩ := hunfinished
  exact Locks.Order.deadlock_free (fun i => program_follows (entries i)) h hi

def sender (sending : Bool) : List EntryPoint :=
  if sending then [.invokeSyscall (some (.ipcSend true))] else [.runScheduler]

theorem no_deadlock_sender : ∃ s', Locks.Step
    ((((Locks.start fun i => program (sender i)).acquire true .syscallLock).acquire true .ipcLock).acquire
      false .procLock) s' := by
  apply no_deadlock sender
  · apply Relation.ReflTransGen.tail
    · apply Relation.ReflTransGen.tail
      · apply Relation.ReflTransGen.single
        exact .acquire true .syscallLock _ rfl (.inl rfl)
      · exact .acquire true .ipcLock _ rfl (.inl rfl)
    · exact .acquire false Lock.procLock _ rfl (.inl rfl)
  · refine ⟨true, ?_⟩
    simp [Locks.State.acquire, Locks.start, program, sender, EntryPoint.trace, invokeSyscall, Handler.trace,
      syscallIpcSend, within]

end LockTrace

end TrinityOS
