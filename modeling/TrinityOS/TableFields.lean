import TrinityOS.SyscallEffects

namespace TrinityOS.SystemTables

variable (t : SystemTables) (p q : ℤ)

section setState

variable (state : ProcessState)

@[simp] theorem setState_get? : (t.setState p state).processes.get? q =
    if q = p then (t.processes.get? p).map (fun x => { x with state }) else t.processes.get? q :=
  Dict.get?_modify _ _ _ _

@[simp] theorem setState_mem : q ∈ (t.setState p state).processes ↔ q ∈ t.processes := Dict.mem_modify

@[simp] theorem setState_readyQueue : (t.setState p state).readyQueue = t.readyQueue := rfl
@[simp] theorem setState_blockedProcesses : (t.setState p state).blockedProcesses = t.blockedProcesses := rfl
@[simp] theorem setState_memoryRegions : (t.setState p state).memoryRegions = t.memoryRegions := rfl
@[simp] theorem setState_processMemory : (t.setState p state).processMemory = t.processMemory := rfl
@[simp] theorem setState_messageQueues : (t.setState p state).messageQueues = t.messageQueues := rfl
@[simp] theorem setState_nextPid : (t.setState p state).nextPid = t.nextPid := rfl
@[simp] theorem setState_uuidCount : (t.setState p state).uuidCount = t.uuidCount := rfl

end setState

section parkProcess

variable (reason : String)

@[simp] theorem parkProcess_get? : (t.parkProcess p reason).processes.get? q =
    if q = p then (t.processes.get? p).map (fun x => { x with state := .blocked })
    else t.processes.get? q := setState_get? t p q .blocked

@[simp] theorem parkProcess_mem : q ∈ (t.parkProcess p reason).processes ↔ q ∈ t.processes := Dict.mem_modify

@[simp] theorem parkProcess_readyQueue : (t.parkProcess p reason).readyQueue = t.readyQueue := rfl
@[simp] theorem parkProcess_blockedProcesses :
    (t.parkProcess p reason).blockedProcesses = t.blockedProcesses.set p reason := rfl
@[simp] theorem parkProcess_memoryRegions : (t.parkProcess p reason).memoryRegions = t.memoryRegions := rfl
@[simp] theorem parkProcess_processMemory : (t.parkProcess p reason).processMemory = t.processMemory := rfl
@[simp] theorem parkProcess_messageQueues : (t.parkProcess p reason).messageQueues = t.messageQueues := rfl
@[simp] theorem parkProcess_nextPid : (t.parkProcess p reason).nextPid = t.nextPid := rfl
@[simp] theorem parkProcess_uuidCount : (t.parkProcess p reason).uuidCount = t.uuidCount := rfl

end parkProcess

section admitProcess

variable (newProcess : ProcessInfo) (now : ℕ → Float)

@[simp] theorem admitProcess_get? : (t.admitProcess newProcess now).processes.get? q =
    if q = newProcess.processId then
      some { newProcess with
        state := .ready
        memoryUsage := ((initialRegions newProcess.processId now).map (·.size)).sum }
    else t.processes.get? q := by
  by_cases h : q = newProcess.processId
  · subst h; simp [admitProcess, initProcessMemory, setState]
  · simp [admitProcess, initProcessMemory, setState, Dict.get?_modify_of_ne, Dict.get?_set_of_ne, h]

@[simp] theorem admitProcess_mem : q ∈ (t.admitProcess newProcess now).processes ↔
    q = newProcess.processId ∨ q ∈ t.processes := by
  simp only [Dict.mem_def, admitProcess_get?]
  split_ifs with h <;> simp [h]

@[simp] theorem admitProcess_readyQueue :
    (t.admitProcess newProcess now).readyQueue = t.readyQueue ++ [newProcess.processId] := rfl
@[simp] theorem admitProcess_blockedProcesses :
    (t.admitProcess newProcess now).blockedProcesses = t.blockedProcesses := rfl
@[simp] theorem admitProcess_memoryRegions : (t.admitProcess newProcess now).memoryRegions =
    (initialRegions newProcess.processId now).foldl (fun d r => d.set r.id r) t.memoryRegions := rfl
@[simp] theorem admitProcess_processMemory : (t.admitProcess newProcess now).processMemory =
    t.processMemory.set newProcess.processId ((initialRegions newProcess.processId now).map (·.id)) := rfl
@[simp] theorem admitProcess_messageQueues : (t.admitProcess newProcess now).messageQueues =
    t.messageQueues.set newProcess.processId [] := rfl
@[simp] theorem admitProcess_nextPid : (t.admitProcess newProcess now).nextPid = t.nextPid := rfl
@[simp] theorem admitProcess_uuidCount : (t.admitProcess newProcess now).uuidCount = t.uuidCount := rfl

end admitProcess

section terminateProcess

variable (exitCode : PyValue)

def terminated (process : ProcessInfo) : ProcessInfo :=
  { process with
    state := .terminated
    metadata := process.metadata.set "exit_code" exitCode
    memoryUsage := if p ∈ t.processMemory then 0 else process.memoryUsage }

@[simp] theorem terminateProcess_get? : (t.terminateProcess p exitCode).processes.get? q =
    if q = p then (t.processes.get? p).map (t.terminated p exitCode) else t.processes.get? q := by
  unfold terminateProcess freeProcessMemory
  by_cases hq : q = p
  · subst hq
    cases hm : t.processMemory.get? q <;> cases hx : t.processes.get? q <;>
      simp [hm, hx, setState, terminated, Dict.mem_def]
  · cases hm : t.processMemory.get? p <;> simp [hm, hq, setState, Dict.get?_modify_of_ne]

@[simp] theorem terminateProcess_mem : q ∈ (t.terminateProcess p exitCode).processes ↔ q ∈ t.processes := by
  simp only [Dict.mem_def, terminateProcess_get?]
  split_ifs with h <;> simp [h]

theorem freeProcessMemory_readyQueue : (t.freeProcessMemory p).readyQueue = t.readyQueue := by
  unfold freeProcessMemory
  split <;> rfl

theorem freeProcessMemory_blockedProcesses :
    (t.freeProcessMemory p).blockedProcesses = t.blockedProcesses := by
  unfold freeProcessMemory
  split <;> rfl

theorem freeProcessMemory_memoryRegions :
    (t.freeProcessMemory p).memoryRegions = t.memoryRegions.delAll (t.processMemory.getD p []) := by
  unfold freeProcessMemory Dict.getD
  cases h : t.processMemory.get? p <;> rfl

theorem freeProcessMemory_processMemory (j : ℤ) :
    (t.freeProcessMemory p).processMemory.get? j = if j = p then none else t.processMemory.get? j := by
  unfold freeProcessMemory
  cases h : t.processMemory.get? p with
  | none => by_cases hj : j = p <;> simp [hj, h]
  | some ids => exact Dict.get?_del _ _ _

theorem freeProcessMemory_messageQueues : (t.freeProcessMemory p).messageQueues = t.messageQueues := by
  unfold freeProcessMemory
  split <;> rfl

theorem freeProcessMemory_nextPid : (t.freeProcessMemory p).nextPid = t.nextPid := by
  unfold freeProcessMemory
  split <;> rfl

theorem freeProcessMemory_uuidCount : (t.freeProcessMemory p).uuidCount = t.uuidCount := by
  unfold freeProcessMemory
  split <;> rfl

@[simp] theorem terminateProcess_readyQueue :
    (t.terminateProcess p exitCode).readyQueue = t.readyQueue.erase p := freeProcessMemory_readyQueue _ p
@[simp] theorem terminateProcess_blockedProcesses :
    (t.terminateProcess p exitCode).blockedProcesses = t.blockedProcesses.del p :=
  freeProcessMemory_blockedProcesses _ p
@[simp] theorem terminateProcess_memoryRegions : (t.terminateProcess p exitCode).memoryRegions =
    t.memoryRegions.delAll (t.processMemory.getD p []) := freeProcessMemory_memoryRegions _ p
@[simp] theorem terminateProcess_processMemory_get? :
    (t.terminateProcess p exitCode).processMemory.get? q = if q = p then none else t.processMemory.get? q :=
  freeProcessMemory_processMemory _ p q
@[simp] theorem terminateProcess_messageQueues :
    (t.terminateProcess p exitCode).messageQueues = t.messageQueues.del p :=
  congrArg (Dict.del · p) (freeProcessMemory_messageQueues _ p)
@[simp] theorem terminateProcess_nextPid : (t.terminateProcess p exitCode).nextPid = t.nextPid :=
  freeProcessMemory_nextPid _ p
@[simp] theorem terminateProcess_uuidCount : (t.terminateProcess p exitCode).uuidCount = t.uuidCount :=
  freeProcessMemory_uuidCount _ p

end terminateProcess

section registerRegion

variable (region : MemoryRegion)

@[simp] theorem drawUuid_processes : t.drawUuid.processes = t.processes := rfl
@[simp] theorem drawUuid_readyQueue : t.drawUuid.readyQueue = t.readyQueue := rfl
@[simp] theorem drawUuid_blockedProcesses : t.drawUuid.blockedProcesses = t.blockedProcesses := rfl
@[simp] theorem drawUuid_memoryRegions : t.drawUuid.memoryRegions = t.memoryRegions := rfl
@[simp] theorem drawUuid_processMemory : t.drawUuid.processMemory = t.processMemory := rfl
@[simp] theorem drawUuid_messageQueues : t.drawUuid.messageQueues = t.messageQueues := rfl
@[simp] theorem drawUuid_nextPid : t.drawUuid.nextPid = t.nextPid := rfl
@[simp] theorem drawUuid_uuidCount : t.drawUuid.uuidCount = t.uuidCount + 1 := rfl

@[simp] theorem registerRegion_processes : (t.registerRegion p region).processes = t.processes := rfl
@[simp] theorem registerRegion_readyQueue : (t.registerRegion p region).readyQueue = t.readyQueue := rfl
@[simp] theorem registerRegion_blockedProcesses :
    (t.registerRegion p region).blockedProcesses = t.blockedProcesses := rfl
@[simp] theorem registerRegion_memoryRegions :
    (t.registerRegion p region).memoryRegions = t.memoryRegions.set region.id region := rfl
@[simp] theorem registerRegion_processMemory : (t.registerRegion p region).processMemory =
    t.processMemory.set p (t.processMemory.getD p [] ++ [region.id]) := rfl
@[simp] theorem registerRegion_messageQueues :
    (t.registerRegion p region).messageQueues = t.messageQueues := rfl
@[simp] theorem registerRegion_nextPid : (t.registerRegion p region).nextPid = t.nextPid := rfl
@[simp] theorem registerRegion_uuidCount : (t.registerRegion p region).uuidCount = t.uuidCount := rfl

end registerRegion

section addMemoryUsage

variable (size : ℤ)

@[simp] theorem addMemoryUsage_get? : (t.addMemoryUsage p size).processes.get? q =
    if q = p then (t.processes.get? p).map (fun x => { x with memoryUsage := x.memoryUsage + size })
    else t.processes.get? q := Dict.get?_modify _ _ _ _

@[simp] theorem addMemoryUsage_mem : q ∈ (t.addMemoryUsage p size).processes ↔ q ∈ t.processes :=
  Dict.mem_modify

@[simp] theorem addMemoryUsage_readyQueue : (t.addMemoryUsage p size).readyQueue = t.readyQueue := rfl
@[simp] theorem addMemoryUsage_blockedProcesses :
    (t.addMemoryUsage p size).blockedProcesses = t.blockedProcesses := rfl
@[simp] theorem addMemoryUsage_memoryRegions :
    (t.addMemoryUsage p size).memoryRegions = t.memoryRegions := rfl
@[simp] theorem addMemoryUsage_processMemory :
    (t.addMemoryUsage p size).processMemory = t.processMemory := rfl
@[simp] theorem addMemoryUsage_messageQueues :
    (t.addMemoryUsage p size).messageQueues = t.messageQueues := rfl
@[simp] theorem addMemoryUsage_nextPid : (t.addMemoryUsage p size).nextPid = t.nextPid := rfl
@[simp] theorem addMemoryUsage_uuidCount : (t.addMemoryUsage p size).uuidCount = t.uuidCount := rfl

end addMemoryUsage

section deleteRegion

variable (region : MemoryRegion) (regionId : String)

@[simp] theorem deleteRegion_get? : (t.deleteRegion p region regionId).processes.get? q =
    if q = p then (t.processes.get? p).map (fun x => { x with memoryUsage := x.memoryUsage + -region.size })
    else t.processes.get? q := Dict.get?_modify _ _ _ _

@[simp] theorem deleteRegion_mem : q ∈ (t.deleteRegion p region regionId).processes ↔ q ∈ t.processes :=
  Dict.mem_modify

@[simp] theorem deleteRegion_readyQueue : (t.deleteRegion p region regionId).readyQueue = t.readyQueue := rfl
@[simp] theorem deleteRegion_blockedProcesses :
    (t.deleteRegion p region regionId).blockedProcesses = t.blockedProcesses := rfl
@[simp] theorem deleteRegion_memoryRegions :
    (t.deleteRegion p region regionId).memoryRegions = t.memoryRegions.del regionId := rfl
@[simp] theorem deleteRegion_processMemory : (t.deleteRegion p region regionId).processMemory =
    t.processMemory.modify p (fun regionIds => regionIds.erase regionId) := rfl
@[simp] theorem deleteRegion_messageQueues :
    (t.deleteRegion p region regionId).messageQueues = t.messageQueues := rfl
@[simp] theorem deleteRegion_nextPid : (t.deleteRegion p region regionId).nextPid = t.nextPid := rfl
@[simp] theorem deleteRegion_uuidCount : (t.deleteRegion p region regionId).uuidCount = t.uuidCount := rfl

end deleteRegion

section appendMessage

variable (message : IPCMessage)

@[simp] theorem appendMessage_processes : (t.appendMessage p message).processes = t.processes := rfl
@[simp] theorem appendMessage_readyQueue : (t.appendMessage p message).readyQueue = t.readyQueue := rfl
@[simp] theorem appendMessage_blockedProcesses :
    (t.appendMessage p message).blockedProcesses = t.blockedProcesses := rfl
@[simp] theorem appendMessage_memoryRegions :
    (t.appendMessage p message).memoryRegions = t.memoryRegions := rfl
@[simp] theorem appendMessage_processMemory :
    (t.appendMessage p message).processMemory = t.processMemory := rfl
@[simp] theorem appendMessage_messageQueues : (t.appendMessage p message).messageQueues =
    t.messageQueues.set p (t.messageQueues.getD p [] ++ [message]) := rfl
@[simp] theorem appendMessage_nextPid : (t.appendMessage p message).nextPid = t.nextPid := rfl
@[simp] theorem appendMessage_uuidCount : (t.appendMessage p message).uuidCount = t.uuidCount := rfl

end appendMessage

section wakeTarget

theorem wakeTarget_of_listening (h : t.blockedProcesses.get? p = some "ipc_receive") :
    t.wakeTarget p = { t.setState p .ready with
      blockedProcesses := t.blockedProcesses.del p
      readyQueue := t.readyQueue ++ [p] } := if_pos h

theorem wakeTarget_of_not_listening (h : t.blockedProcesses.get? p ≠ some "ipc_receive") :
    t.wakeTarget p = t := if_neg h

theorem wakeTarget_not_listening : (t.wakeTarget p).blockedProcesses.get? p ≠ some "ipc_receive" := by
  by_cases h : t.blockedProcesses.get? p = some "ipc_receive"
  · rw [wakeTarget_of_listening t p h]
    simp
  · rwa [wakeTarget_of_not_listening t p h]

@[simp] theorem wakeTarget_mem : q ∈ (t.wakeTarget p).processes ↔ q ∈ t.processes := by
  unfold wakeTarget
  split
  · exact setState_mem t p q .ready
  · rfl

@[simp] theorem wakeTarget_memoryRegions : (t.wakeTarget p).memoryRegions = t.memoryRegions := by
  unfold wakeTarget
  split <;> rfl

@[simp] theorem wakeTarget_processMemory : (t.wakeTarget p).processMemory = t.processMemory := by
  unfold wakeTarget
  split <;> rfl

@[simp] theorem wakeTarget_messageQueues : (t.wakeTarget p).messageQueues = t.messageQueues := by
  unfold wakeTarget
  split <;> rfl

@[simp] theorem wakeTarget_nextPid : (t.wakeTarget p).nextPid = t.nextPid := by
  unfold wakeTarget
  split <;> rfl

@[simp] theorem wakeTarget_uuidCount : (t.wakeTarget p).uuidCount = t.uuidCount := by
  unfold wakeTarget
  split <;> rfl

end wakeTarget

section runScheduler

variable (now : Float)

def scheduled (process : ProcessInfo) (now : Float) : ProcessInfo :=
  { process with
    state := .ready
    lastRun := now
    runtime := process.runtime + process.timeSlice
    contextSwitches := process.contextSwitches + 1 }

theorem runScheduler_nil (h : t.readyQueue = []) : t.runScheduler now = t := by
  unfold runScheduler
  rw [h]

theorem runScheduler_stray {rest : List ℤ} (h : t.readyQueue = p :: rest) (hp : p ∉ t.processes) :
    t.runScheduler now = { t with readyQueue := rest } := by
  unfold runScheduler
  simp only [h, Dict.not_mem_iff.mp hp]

theorem runScheduler_run {rest : List ℤ} {process : ProcessInfo} (h : t.readyQueue = p :: rest)
    (hp : t.processes.get? p = some process) :
    ∃ processes : Dict ℤ ProcessInfo,
      t.runScheduler now = { t with processes, readyQueue := rest ++ [p] } ∧
        ∀ j, processes.get? j = if j = p then some (scheduled process now) else t.processes.get? j := by
  unfold runScheduler
  simp only [h, hp]
  simp only [setState, executeProcess, Dict.get?_modify_self, hp, Option.map_some, ↓reduceIte]
  refine ⟨_, rfl, fun j => ?_⟩
  by_cases hj : j = p
  · subst hj; simp [hp, scheduled]
  · simp [hj, Dict.get?_modify_of_ne]

variable {t} in
theorem runScheduler_congr {t' : SystemTables} (hprocesses : t'.processes = t.processes)
    (hready : t'.readyQueue = t.readyQueue) :
    t'.runScheduler now = { t' with
      processes := (t.runScheduler now).processes
      readyQueue := (t.runScheduler now).readyQueue } := by
  cases hq : t.readyQueue with
  | nil =>
    rw [runScheduler_nil t now hq, runScheduler_nil t' now (hready.trans hq), ← hprocesses, ← hready]
  | cons p rest =>
    unfold runScheduler
    simp only [hready, hq, hprocesses]
    cases hp : t.processes.get? p with
    | none => simp
    | some process =>
      simp only [setState, executeProcess, Dict.get?_modify_self, hp, Option.map_some, ↓reduceIte]

theorem runScheduler_eq : t.runScheduler now = { t with
    processes := (t.runScheduler now).processes
    readyQueue := (t.runScheduler now).readyQueue } := runScheduler_congr now rfl rfl

theorem runScheduler_appendMessage (message : IPCMessage) :
    (t.drawUuid.appendMessage p message).runScheduler now =
      (t.runScheduler now).drawUuid.appendMessage p message := by
  have h : (t.drawUuid.appendMessage p message).runScheduler now =
      { t.drawUuid.appendMessage p message with
        processes := (t.runScheduler now).processes
        readyQueue := (t.runScheduler now).readyQueue } := runScheduler_congr now rfl rfl
  rw [h, runScheduler_eq t]
  rfl

@[simp] theorem runScheduler_blockedProcesses :
    (t.runScheduler now).blockedProcesses = t.blockedProcesses := by rw [runScheduler_eq]
@[simp] theorem runScheduler_memoryRegions :
    (t.runScheduler now).memoryRegions = t.memoryRegions := by rw [runScheduler_eq]
@[simp] theorem runScheduler_processMemory :
    (t.runScheduler now).processMemory = t.processMemory := by rw [runScheduler_eq]
@[simp] theorem runScheduler_messageQueues :
    (t.runScheduler now).messageQueues = t.messageQueues := by rw [runScheduler_eq]
@[simp] theorem runScheduler_nextPid : (t.runScheduler now).nextPid = t.nextPid := by rw [runScheduler_eq]
@[simp] theorem runScheduler_uuidCount : (t.runScheduler now).uuidCount = t.uuidCount := by
  rw [runScheduler_eq]

theorem runScheduler_get? : (t.runScheduler now).processes.get? q = t.processes.get? q ∨
    ∃ process, t.readyQueue.head? = some q ∧ t.processes.get? q = some process ∧
      (t.runScheduler now).processes.get? q = some (scheduled process now) := by
  cases hq : t.readyQueue with
  | nil => left; rw [runScheduler_nil t now hq]
  | cons p rest =>
    cases hp : t.processes.get? p with
    | none => left; rw [runScheduler_stray t p now hq (Dict.not_mem_iff.mpr hp)]
    | some process =>
      obtain ⟨processes, hs, hget⟩ := runScheduler_run t p now hq hp
      rw [hs]
      by_cases hqp : q = p
      · subst hqp
        exact .inr ⟨process, rfl, hp, by simp [hget]⟩
      · left; simp [hget, hqp]

theorem mem_of_runScheduler_readyQueue (h : q ∈ (t.runScheduler now).readyQueue) : q ∈ t.readyQueue := by
  cases hq : t.readyQueue with
  | nil => rwa [runScheduler_nil t now hq, hq] at h
  | cons p rest =>
    cases hp : t.processes.get? p with
    | none =>
      rw [runScheduler_stray t p now hq (Dict.not_mem_iff.mpr hp)] at h
      exact List.mem_cons_of_mem p h
    | some process =>
      obtain ⟨processes, hs, -⟩ := runScheduler_run t p now hq hp
      rw [hs] at h
      simpa [or_comm] using h

@[simp] theorem runScheduler_mem : q ∈ (t.runScheduler now).processes ↔ q ∈ t.processes := by
  rcases runScheduler_get? t q now with h | ⟨process, -, hp, h⟩ <;> simp [Dict.mem_def, *]

end runScheduler

end TrinityOS.SystemTables
