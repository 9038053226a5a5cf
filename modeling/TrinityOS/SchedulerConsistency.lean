import TrinityOS.ReadyTable
import TrinityOS.SystemRuns

namespace TrinityOS

open ReadyTable (Consistent)

namespace SystemTables

def readyTable (t : SystemTables) : ReadyTable ℤ ProcessState String where
  status p := (t.processes.get? p).map (·.state)
  ready := t.readyQueue
  blocked := t.blockedProcesses.get?

def PidsBelow (t : SystemTables) : Prop := ∀ p ∈ t.processes, p < t.nextPid

structure SchedulerConsistent (t : SystemTables) : Prop where
  nodup : t.readyQueue.Nodup
  ready_mem : ∀ p ∈ t.readyQueue, p ∈ t.processes
  blocked_mem : ∀ p ∈ t.blockedProcesses, p ∈ t.processes
  ready_iff : ∀ p, p ∈ t.readyQueue ↔ ∃ process, t.processes.get? p = some process ∧ process.state = .ready
  blocked_iff : ∀ p, p ∈ t.blockedProcesses ↔
    ∃ process, t.processes.get? p = some process ∧ process.state = .blocked

variable {t : SystemTables} {p : ℤ}

theorem status_eq_some {state : ProcessState} :
    t.readyTable.status p = some state ↔
      ∃ process, t.processes.get? p = some process ∧ process.state = state := Option.map_eq_some_iff

theorem status_of_not_mem (h : p ∉ t.processes) : t.readyTable.status p = none := by
  simp [readyTable, Dict.not_mem_iff.mp h]

theorem mem_of_status {state : ProcessState} (h : t.readyTable.status p = some state) : p ∈ t.processes := by
  obtain ⟨process, hp, -⟩ := status_eq_some.mp h
  exact Dict.mem_of_get? hp

theorem schedulerConsistent_iff : t.SchedulerConsistent ↔ Consistent .ready .blocked t.readyTable := by
  constructor
  · intro h
    exact ⟨h.nodup, fun p => (h.ready_iff p).trans status_eq_some.symm,
      fun p => (h.blocked_iff p).trans status_eq_some.symm⟩
  · intro h
    have hready (p : ℤ) := (h.mem_ready p).trans status_eq_some
    have hblocked (p : ℤ) := (h.blocked_isSome p).trans status_eq_some
    refine ⟨h.nodup, fun p hp => mem_of_status ((h.mem_ready p).mp hp),
      fun p hp => mem_of_status ((h.blocked_isSome p).mp hp), hready, hblocked⟩

theorem PidsBelow.fresh (h : t.PidsBelow) : t.nextPid ∉ t.processes := fun hm => Int.lt_irrefl _ (h _ hm)

section

variable {reason : String} {exitCode : PyValue} {newProcess : ProcessInfo} {now : ℕ → Float}

theorem readyTable_admitProcess (hb : t.blockedProcesses.get? newProcess.processId = none) :
    (t.admitProcess newProcess now).readyTable = t.readyTable.enqueue .ready newProcess.processId := by
  apply ReadyTable.ext
  · funext q
    by_cases hq : q = newProcess.processId <;> simp [readyTable, ReadyTable.enqueue, hq]
  · rfl
  · funext q
    by_cases hq : q = newProcess.processId <;> simp [readyTable, ReadyTable.enqueue, hq, hb]

theorem readyTable_terminateProcess (hp : p ∈ t.processes) :
    (t.terminateProcess p exitCode).readyTable = t.readyTable.retire .terminated p := by
  obtain ⟨process, hp⟩ := Dict.mem_iff.mp hp
  apply ReadyTable.ext
  · funext q
    by_cases hq : q = p <;> simp [readyTable, ReadyTable.retire, hq, hp, terminated]
  · simp [readyTable, ReadyTable.retire]
  · funext q
    by_cases hq : q = p <;> simp [readyTable, ReadyTable.retire, Dict.get?_del, hq]

theorem readyTable_parkProcess (hp : p ∈ t.processes) :
    ({ t with readyQueue := t.readyQueue.erase p }.parkProcess p reason).readyTable =
      t.readyTable.park .blocked p reason := by
  obtain ⟨process, hp⟩ := Dict.mem_iff.mp hp
  apply ReadyTable.ext
  · funext q
    by_cases hq : q = p <;> simp [readyTable, ReadyTable.park, hq, hp]
  · rfl
  · funext q
    by_cases hq : q = p <;> simp [readyTable, ReadyTable.park, Dict.get?_set, hq]

theorem readyTable_wakeTarget (hp : p ∈ t.processes)
    (hl : t.blockedProcesses.get? p = some "ipc_receive") :
    (t.wakeTarget p).readyTable = t.readyTable.enqueue .ready p := by
  obtain ⟨process, hp⟩ := Dict.mem_iff.mp hp
  rw [wakeTarget_of_listening t p hl]
  apply ReadyTable.ext
  · funext q
    by_cases hq : q = p <;> simp [readyTable, ReadyTable.enqueue, hq, hp]
  · rfl
  · funext q
    by_cases hq : q = p <;> simp [readyTable, ReadyTable.enqueue, Dict.get?_del, hq]

theorem readyTable_addMemoryUsage (size : ℤ) : (t.addMemoryUsage p size).readyTable = t.readyTable := by
  apply ReadyTable.ext
  · funext q
    by_cases hq : q = p
    · subst hq; simp [readyTable, Function.comp_def]
    · simp [readyTable, hq]
  · rfl
  · rfl

end

theorem wakeTarget_step (h : Consistent .ready .blocked t.readyTable) :
    ReadyTable.Step .ready .blocked t.readyTable (t.wakeTarget p).readyTable := by
  by_cases hl : t.blockedProcesses.get? p = some "ipc_receive"
  · have hb : t.readyTable.status p = some .blocked :=
      (h.blocked_isSome p).mp (by simp [readyTable, hl])
    rw [readyTable_wakeTarget (mem_of_status hb) hl]
    exact .enqueue p (by simp [hb])
  · rw [wakeTarget_of_not_listening t p hl]
    exact .stay

theorem runScheduler_step (h : Consistent .ready .blocked t.readyTable) (now : Float) :
    ReadyTable.Step .ready .blocked t.readyTable (t.runScheduler now).readyTable := by
  cases hq : t.readyQueue with
  | nil => rw [runScheduler_nil t now hq]; exact .stay
  | cons p rest =>
    have hr : t.readyTable.status p = some .ready := (h.mem_ready p).mp (by simp [readyTable, hq])
    obtain ⟨process, hp, hready⟩ := status_eq_some.mp hr
    obtain ⟨processes, hs, hget⟩ := runScheduler_run t p now hq hp
    have he : (t.runScheduler now).readyTable = t.readyTable.cycle := by
      rw [hs]
      apply ReadyTable.ext
      · funext q
        by_cases hqp : q = p
        · subst hqp; simp [readyTable, ReadyTable.cycle, hget, hp, hready, scheduled]
        · simp [readyTable, ReadyTable.cycle, hget, hqp]
      · simp [readyTable, ReadyTable.cycle, hq]
      · rfl
    rw [he]
    exact .cycle

end SystemTables

open SystemTables

variable {uuid4 : ℕ → String} {t t' : SystemTables} {p : ℤ} {now : ℕ → Float} {call : Syscall}
  {r : Except PyException SyscallResult}

theorem Effect.readyTable_step (h : Effect uuid4 t p now call t' r)
    (hc : Consistent .ready .blocked t.readyTable) (hfresh : t.nextPid ∉ t.processes) :
    ReadyTable.Step .ready .blocked t.readyTable t'.readyTable := by
  cases h with
  | refused | reaped | received | noMessage => exact .stay
  | created =>
    have hs := status_of_not_mem hfresh
    have hb : t.blockedProcesses.get? t.nextPid = none := hc.blocked_eq_none (by simp [hs])
    rw [readyTable_admitProcess hb]
    exact .enqueue t.nextPid (by simp [hs])
  | exited hp =>
    rw [readyTable_terminateProcess hp]
    exact .retire p ProcessState.terminated (by decide) (by decide)
  | waiting _ _ _ _ _ hp => rw [readyTable_parkProcess hp]; exact .park p _
  | listening hp => rw [readyTable_parkProcess hp]; exact .park p _
  | strayWait hp =>
    have hn : p ∉ t.readyQueue := hc.not_mem_of_status (by simp [status_of_not_mem hp])
    have he : ({ t with readyQueue := t.readyQueue.erase p } : SystemTables).readyTable = t.readyTable := by
      simp only [readyTable, List.erase_of_not_mem hn]
    rw [he]
    exact .stay
  | allocated => rw [readyTable_addMemoryUsage]; exact .stay
  | freed id region =>
    have he : (t.deleteRegion p region id).readyTable = t.readyTable :=
      readyTable_addMemoryUsage (-region.size)
    rw [he]
    exact .stay
  | mapped => exact .stay
  | @sent _ subject _ payload q messageType =>
    let message := newMessage (uuid4 t.uuidCount) messageType p q.val subject payload (now 0)
    -- the appended message is not part of the view
    exact wakeTarget_step (t := t.drawUuid.appendMessage q.val message) hc

theorem Effect.nextPid_le (h : Effect uuid4 t p now call t' r) : t.nextPid ≤ t'.nextPid := by
  cases h with
  | refused n u hn => exact hn
  | created => simp only [admitProcess_nextPid]; omega
  | _ => simp

theorem Effect.mem_processes (h : Effect uuid4 t p now call t' r) {q : ℤ} (hq : q ∈ t'.processes) :
    q ∈ t.processes ∨ (q = t.nextPid ∧ t'.nextPid = t.nextPid + 1) := by
  cases h with
  | created => simpa [newProcessInfo, or_comm] using hq
  | _ => left; simpa using hq

theorem Effect.pidsBelow (h : Effect uuid4 t p now call t' r) (hb : t.PidsBelow) : t'.PidsBelow := by
  intro q hq
  have hle := h.nextPid_le
  rcases h.mem_processes hq with hm | ⟨rfl, hn⟩
  · have := hb q hm; omega
  · omega

theorem runScheduler_pidsBelow (hb : t.PidsBelow) (time : Float) : (t.runScheduler time).PidsBelow := by
  intro q hq
  rw [runScheduler_nextPid]
  exact hb q ((runScheduler_mem t q time).mp hq)

theorem initializeSystem_readyTable (now : ℕ → Float) :
    (CoreSystem.initializeSystem now).tables.readyTable =
      { status := Function.update (Function.update (fun _ => none) 0 (some .running)) 1 (some .ready)
        ready := [1]
        blocked := fun _ => none } := by
  apply ReadyTable.ext
  · funext q
    simp only [readyTable, CoreSystem.initializeSystem, CoreSystem.initMemory, registerRegion_processes,
      CoreSystem.registerSyscalls, Dict.get?_set, Function.update_apply]
    split_ifs <;> rfl
  · rfl
  · rfl

theorem initializeSystem_consistent (now : ℕ → Float) :
    Consistent .ready .blocked (CoreSystem.initializeSystem now).tables.readyTable := by
  rw [initializeSystem_readyTable]
  refine ⟨List.nodup_singleton 1, fun p => ?_, fun p => ?_⟩
  all_goals
    simp only [List.mem_singleton, Option.isSome_none, Function.update_apply]
    split_ifs <;> simp_all

theorem initializeSystem_pidsBelow (now : ℕ → Float) : (CoreSystem.initializeSystem now).tables.PidsBelow := by
  intro q hq
  simp only [CoreSystem.initializeSystem, CoreSystem.initMemory, registerRegion_processes, Dict.mem_set,
    CoreSystem.registerSyscalls, Dict.not_mem_empty, or_false] at hq
  change q < 1000
  omega

namespace CoreSystem

theorem run_pidsBelow (uuid4 : ℕ → String) (now : ℕ → Float) (es : List Event) :
    (run uuid4 now es).tables.PidsBelow :=
  run_tables initializeSystem_pidsBelow (fun _ _ _ _ _ _ hb h => h.pidsBelow hb)
    (fun _ time hb => runScheduler_pidsBelow hb time) now es

theorem run_consistent (uuid4 : ℕ → String) (now : ℕ → Float) (es : List Event) :
    Consistent .ready .blocked (run uuid4 now es).tables.readyTable := by
  suffices h : (run uuid4 now es).tables.PidsBelow ∧
      Consistent .ready .blocked (run uuid4 now es).tables.readyTable from h.2
  refine run_tables (P := fun t => t.PidsBelow ∧ Consistent .ready .blocked t.readyTable) ?_ ?_ ?_ now es
  · intro now
    exact ⟨initializeSystem_pidsBelow now, initializeSystem_consistent now⟩
  · rintro t p now call t' r ⟨hb, hc⟩ h
    exact ⟨h.pidsBelow hb, (h.readyTable_step hc hb.fresh).consistent (by decide) hc⟩
  · rintro t time ⟨hb, hc⟩
    exact ⟨runScheduler_pidsBelow hb time, (runScheduler_step hc time).consistent (by decide) hc⟩

end CoreSystem

end TrinityOS
