import TrinityOS.SchedulerConsistency

namespace TrinityOS

open ReadyTable (Consistent)

namespace SystemTables

structure Intact (t t' : SystemTables) : Prop where
  processes : t'.processes = t.processes
  readyQueue : t'.readyQueue = t.readyQueue
  blockedProcesses : t'.blockedProcesses = t.blockedProcesses
  memoryRegions : t'.memoryRegions = t.memoryRegions
  processMemory : t'.processMemory = t.processMemory
  messageQueues : t'.messageQueues = t.messageQueues

theorem Intact.refl (t : SystemTables) : t.Intact t := ⟨rfl, rfl, rfl, rfl, rfl, rfl⟩

end SystemTables

variable {uuid4 : ℕ → String} {t t' : SystemTables} {p : ℤ} {now : ℕ → Float} {call : Syscall}
  {r : Except PyException SyscallResult}

theorem Effect.intact (he : Effect uuid4 t p now call t' r) (hc : Consistent .ready .blocked t.readyTable)
    (hf : Failed r) : t.Intact t' := by
  cases he with
  | refused => exact ⟨rfl, rfl, rfl, rfl, rfl, rfl⟩
  | strayWait hp =>
    -- the exception comes after the removal from the ready queue, which holds no stranger
    have hn : p ∉ t.readyQueue := by
      apply hc.not_mem_of_status
      rw [SystemTables.status_of_not_mem hp]
      simp
    have he : t.readyQueue.erase p = t.readyQueue := List.erase_of_not_mem hn
    exact ⟨rfl, he, rfl, rfl, rfl, rfl⟩
  | _ => cases hf

namespace CoreSystem

theorem failed_syscall_intact (uuid4 : ℕ → String) (now : ℕ → Float) (es : List Event) (p n : ℤ) (args : Kwargs)
    (timing : Timing) (hfail : ((run uuid4 now es).invokeSyscall uuid4 p n args timing).2.success = false) :
    (run uuid4 now es).tables.Intact ((run uuid4 now es).invokeSyscall uuid4 p n args timing).1.tables := by
  cases hbound : boundCall n args with
  | none =>
    rw [(invokeSyscall_unbound (run uuid4 now es) p timing hbound).1]
    exact .refl _
  | some call =>
    obtain ⟨htables, hresult⟩ := @invokeSyscall_bound uuid4 (run uuid4 now es) p n args timing call hbound
    rw [htables]
    apply (performSyscall_effect call).intact (run_consistent uuid4 now es)
    rw [hresult] at hfail
    exact Failed.ofOutcome.mpr hfail

theorem failed_syscall_intact_stray :
    (Sample.run []).tables.Intact
      ((Sample.run []).invokeSyscall Sample.uuid4 7 3 (.ofList [("wait_pid", .int 1)]) Sample.timing).1.tables :=
  failed_syscall_intact Sample.uuid4 Sample.timing.now [] 7 3 _ Sample.timing rfl

end CoreSystem

end TrinityOS
