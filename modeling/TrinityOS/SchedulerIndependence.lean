import TrinityOS.CpuTime

namespace TrinityOS

open SystemTables

def ProcessInfo.unscheduled (process : ProcessInfo) : ProcessInfo :=
  { process with runtime := 0, lastRun := 0, contextSwitches := 0 }

structure SameProcesses (d d' : Dict ℤ ProcessInfo) : Prop where
  keys : d.keys = d'.keys
  get? : ∀ q, (d.get? q).map ProcessInfo.unscheduled = (d'.get? q).map ProcessInfo.unscheduled

namespace SameProcesses

variable {d d' d'' : Dict ℤ ProcessInfo} {q : ℤ} {process : ProcessInfo}

theorem refl (d : Dict ℤ ProcessInfo) : SameProcesses d d := ⟨rfl, fun _ => rfl⟩

theorem symm (h : SameProcesses d d') : SameProcesses d' d := ⟨h.keys.symm, fun q => (h.get? q).symm⟩

theorem trans (h : SameProcesses d d') (h' : SameProcesses d' d'') : SameProcesses d d'' :=
  ⟨h.keys.trans h'.keys, fun q => (h.get? q).trans (h'.get? q)⟩

theorem of_some (h : SameProcesses d d') (hq : d.get? q = some process) :
    ∃ process', d'.get? q = some process' ∧ process'.state = process.state ∧ process'.metadata = process.metadata := by
  have hget := h.get? q
  rw [hq, Option.map_some] at hget
  obtain ⟨process', hq', hsame⟩ := Option.map_eq_some_iff.mp hget.symm
  have hstate : process'.unscheduled.state = process.unscheduled.state := by rw [hsame]
  have hmetadata : process'.unscheduled.metadata = process.unscheduled.metadata := by rw [hsame]
  exact ⟨process', hq', hstate, hmetadata⟩

theorem of_none (h : SameProcesses d d') (hq : d.get? q = none) : d'.get? q = none := by
  have hget := h.get? q
  rw [hq, Option.map_none] at hget
  exact Option.map_eq_none_iff.mp hget.symm

theorem mem (h : SameProcesses d d') : q ∈ d ↔ q ∈ d' := by
  rw [← Dict.mem_keys, h.keys, Dict.mem_keys]

theorem set (h : SameProcesses d d') (q : ℤ) (process : ProcessInfo) :
    SameProcesses (d.set q process) (d'.set q process) := by
  constructor
  · simp only [Dict.keys, Dict.set, Dict.keys_setEntries]
    change (if q ∈ d.keys then d.keys else d.keys ++ [q]) = if q ∈ d'.keys then d'.keys else d'.keys ++ [q]
    rw [h.keys]
  · intro j
    rw [Dict.get?_set, Dict.get?_set]
    split_ifs
    · rfl
    · exact h.get? j

theorem modify (h : SameProcesses d d') (q : ℤ) {f : ProcessInfo → ProcessInfo}
    (hf : ∀ process, (f process).unscheduled = f process.unscheduled) :
    SameProcesses (d.modify q f) (d'.modify q f) := by
  have hmap (o : Option ProcessInfo) :
      (o.map f).map ProcessInfo.unscheduled = (o.map ProcessInfo.unscheduled).map f := by
    rw [Option.map_map, Option.map_map]
    congr 1
    funext process
    exact hf process
  constructor
  · rw [Dict.keys_modify, Dict.keys_modify, h.keys]
  · intro j
    rw [Dict.get?_modify, Dict.get?_modify]
    split_ifs
    · rw [hmap, hmap, h.get? q]
    · exact h.get? j

end SameProcesses

inductive SystemTables.Alike (t : SystemTables) : SystemTables → Prop
  | mk (processes : Dict ℤ ProcessInfo) (readyQueue : List ℤ) (h : SameProcesses t.processes processes) :
      Alike t { t with processes, readyQueue }

namespace SystemTables.Alike

variable {t t' t'' : SystemTables} {p : ℤ}

theorem refl (t : SystemTables) : t.Alike t := .mk _ _ (.refl _)

theorem symm (h : t.Alike t') : t'.Alike t := by
  cases h with
  | mk processes readyQueue h => exact .mk _ _ h.symm

theorem trans (h : t.Alike t') (h' : t'.Alike t'') : t.Alike t'' := by
  cases h with
  | mk processes readyQueue h =>
    cases h' with
    | mk processes' readyQueue' h' => exact .mk _ _ (h.trans h')

theorem mem (h : t.Alike t') : p ∈ t.processes ↔ p ∈ t'.processes := by
  cases h with
  | mk processes readyQueue h => exact h.mem

theorem of_none (h : t.Alike t') (hp : t.processes.get? p = none) : t'.processes.get? p = none := by
  cases h with
  | mk processes readyQueue h => exact h.of_none hp

theorem of_some {process : ProcessInfo} (h : t.Alike t') (hp : t.processes.get? p = some process) :
    ∃ process', t'.processes.get? p = some process' ∧ process'.state = process.state ∧
      process'.metadata = process.metadata := by
  cases h with
  | mk processes readyQueue h => exact h.of_some hp

theorem status (h : t.Alike t') : t.readyTable.status p = t'.readyTable.status p := by
  cases h with
  | mk processes readyQueue h =>
    have hget := congrArg (Option.map fun process : ProcessInfo => process.state) (h.get? p)
    rw [Option.map_map, Option.map_map] at hget
    exact hget

theorem nextPid (h : t.Alike t') : t'.nextPid = t.nextPid := by cases h; rfl

theorem uuidCount (h : t.Alike t') : t'.uuidCount = t.uuidCount := by cases h; rfl

theorem memoryRegions (h : t.Alike t') : t'.memoryRegions = t.memoryRegions := by cases h; rfl

theorem processMemory (h : t.Alike t') : t'.processMemory = t.processMemory := by cases h; rfl

theorem messageQueues (h : t.Alike t') : t'.messageQueues = t.messageQueues := by cases h; rfl

theorem runScheduler (hc : ReadyTable.Consistent ProcessState.ready .blocked t.readyTable) (now : Float) :
    t.Alike (t.runScheduler now) := by
  rw [runScheduler_eq]
  apply mk
  constructor
  · exact (keys_runScheduler now).symm
  · intro q
    rcases runScheduler_get? t q now with h | ⟨process, hhead, hprocess, hscheduled⟩
    · rw [h]
    · have hready := (hc.mem_ready q).mp (List.mem_of_mem_head? hhead)
      obtain ⟨process', hprocess', hstate⟩ := status_eq_some.mp hready
      rw [hprocess] at hprocess'
      obtain rfl := Option.some.inj hprocess'
      rw [hprocess, hscheduled, Option.map_some, Option.map_some]
      simp only [ProcessInfo.unscheduled, scheduled, hstate]

theorem admitProcess (h : t.Alike t') (newProcess : ProcessInfo) (now : ℕ → Float) :
    (t.admitProcess newProcess now).Alike (t'.admitProcess newProcess now) := by
  cases h with
  | mk processes readyQueue h =>
    apply mk
    apply SameProcesses.modify
    · exact (h.set _ _).modify _ fun _ => rfl
    · exact fun _ => rfl

theorem terminateProcess (h : t.Alike t') (exitCode : PyValue) :
    (t.terminateProcess p exitCode).Alike (t'.terminateProcess p exitCode) := by
  cases h with
  | mk processes readyQueue h =>
    unfold SystemTables.terminateProcess SystemTables.freeProcessMemory
    cases hmemory : t.processMemory.get? p with
    | none =>
      simp only [setState, hmemory]
      apply mk
      refine SameProcesses.modify ?_ p fun _ => rfl
      exact h.modify p fun _ => rfl
    | some regionIds =>
      simp only [setState, hmemory]
      apply mk
      refine SameProcesses.modify ?_ p fun _ => rfl
      refine SameProcesses.modify ?_ p fun _ => rfl
      exact h.modify p fun _ => rfl

theorem addMemoryUsage (h : t.Alike t') (size : ℤ) : (t.addMemoryUsage p size).Alike (t'.addMemoryUsage p size) := by
  cases h with
  | mk processes readyQueue h => exact .mk _ _ (h.modify p fun _ => rfl)

theorem registerRegion (h : t.Alike t') (region : MemoryRegion) :
    (t.registerRegion p region).Alike (t'.registerRegion p region) := by
  cases h with
  | mk processes readyQueue h => exact .mk _ _ h

theorem drawUuid (h : t.Alike t') : t.drawUuid.Alike t'.drawUuid := by
  cases h with
  | mk processes readyQueue h => exact .mk _ _ h

theorem appendMessage (h : t.Alike t') (message : IPCMessage) :
    (t.appendMessage p message).Alike (t'.appendMessage p message) := by
  cases h with
  | mk processes readyQueue h => exact .mk _ _ h

theorem deleteRegion (h : t.Alike t') (region : MemoryRegion) (regionId : String) :
    (t.deleteRegion p region regionId).Alike (t'.deleteRegion p region regionId) := by
  cases h with
  | mk processes readyQueue h => exact .mk _ _ (h.modify p fun _ => rfl)

theorem wakeTarget (h : t.Alike t') : (t.wakeTarget p).Alike (t'.wakeTarget p) := by
  cases h with
  | mk processes readyQueue h =>
    unfold SystemTables.wakeTarget
    dsimp only
    split
    · exact .mk _ _ (h.modify p fun _ => rfl)
    · exact .mk _ _ h

end SystemTables.Alike

def HandledAlike (r r' : Handled) : Prop := r.1.Alike r'.1 ∧ r.2 = r'.2

section handlers

variable {t t' : SystemTables} {p : ℤ}

theorem blocked_alike (h : t.Alike t') (reason : String) :
    HandledAlike
      (match t.blockProcess p reason with
        | (t, .error e) => (t, .error e)
        | (t, .ok ()) => (t, .ok (.ok (.status "blocked"))))
      (match t'.blockProcess p reason with
        | (t, .error e) => (t, .error e)
        | (t, .ok ()) => (t, .ok (.ok (.status "blocked")))) := by
  unfold SystemTables.blockProcess
  cases h with
  | mk processes readyQueue h =>
    by_cases hp : p ∈ t.processes
    · simp only [if_pos hp, if_pos (h.mem.mp hp)]
      exact ⟨.mk _ _ (h.modify p fun _ => rfl), rfl⟩
    · simp only [if_neg hp, if_neg (mt h.mem.mpr hp)]
      exact ⟨.mk _ _ h, rfl⟩

theorem processCreate_alike (h : t.Alike t') (name priority policy : PyValue) (now : ℕ → Float) :
    HandledAlike (syscallProcessCreate t p name priority policy now)
      (syscallProcessCreate t' p name priority policy now) := by
  have hpid := h.nextPid
  have hdrawn : { t with nextPid := t.nextPid + 1 }.Alike { t' with nextPid := t'.nextPid + 1 } := by
    cases h with
    | mk processes readyQueue h => exact .mk _ _ h
  unfold syscallProcessCreate
  split
  · exact ⟨h, rfl⟩
  dsimp only
  cases clampPriority priority with
  | error e => exact ⟨hdrawn, rfl⟩
  | ok priority' =>
    dsimp only
    cases clampPolicy policy with
    | error e => exact ⟨hdrawn, rfl⟩
    | ok policy' =>
      dsimp only
      refine ⟨?_, by rw [hpid]⟩
      have hadmit := hdrawn.admitProcess (newProcessInfo t.nextPid p name priority' policy' (now 0)) fun i => now (i + 1)
      rwa [← hpid] at hadmit ⊢

theorem processExit_alike (h : t.Alike t') (exitCode : PyValue) :
    HandledAlike (syscallProcessExit t p exitCode) (syscallProcessExit t' p exitCode) := by
  unfold syscallProcessExit
  by_cases hp : p ∈ t.processes
  · rw [if_neg (not_not.mpr hp), if_neg (not_not.mpr (h.mem.mp hp))]
    exact ⟨h.terminateProcess exitCode, rfl⟩
  · rw [if_pos hp, if_pos (mt h.mem.mpr hp)]
    exact ⟨h, rfl⟩

theorem processWait_alike (h : t.Alike t') (waitPid : PyValue) :
    HandledAlike (syscallProcessWait t p waitPid) (syscallProcessWait t' p waitPid) := by
  unfold syscallProcessWait
  split
  · exact ⟨h, rfl⟩
  · exact ⟨h, rfl⟩
  case h_3 q _ =>
    cases hq : t.processes.get? q.val with
    | none =>
      rw [h.of_none hq]
      exact ⟨h, rfl⟩
    | some target =>
      obtain ⟨target', hq', hstate, hmetadata⟩ := h.of_some hq
      simp only [hq', hstate, hmetadata]
      split
      · exact ⟨h, rfl⟩
      · exact blocked_alike h (waitReason q)

theorem memoryAllocate_alike (uuid4 : ℕ → String) (h : t.Alike t') (size permissions : PyValue) (now : ℕ → Float) :
    HandledAlike (syscallMemoryAllocate uuid4 t p size permissions now)
      (syscallMemoryAllocate uuid4 t' p size permissions now) := by
  unfold syscallMemoryAllocate
  by_cases hp : p ∈ t.processes
  · rw [if_neg (not_not.mpr hp), if_neg (not_not.mpr (h.mem.mp hp))]
    split
    · exact ⟨h, rfl⟩
    split
    · exact ⟨h, rfl⟩
    simp only [drawUuid_memoryRegions, drawUuid_processMemory, h.memoryRegions, h.processMemory, h.uuidCount]
    split
    · exact ⟨h.drawUuid, rfl⟩
    split
    · exact ⟨h.drawUuid, rfl⟩
    · exact ⟨(h.drawUuid.registerRegion _).addMemoryUsage _, rfl⟩
  · rw [if_pos hp, if_pos (mt h.mem.mpr hp)]
    exact ⟨h, rfl⟩

theorem memoryFree_alike (h : t.Alike t') (regionId : PyValue) :
    HandledAlike (syscallMemoryFree t p regionId) (syscallMemoryFree t' p regionId) := by
  unfold syscallMemoryFree
  simp only [h.memoryRegions]
  split
  · exact ⟨h, rfl⟩
  · exact ⟨h, rfl⟩
  split
  · exact ⟨h, rfl⟩
  split
  · exact ⟨h, rfl⟩
  · exact ⟨h.deleteRegion _ _, rfl⟩

theorem memoryMap_alike (uuid4 : ℕ → String) (h : t.Alike t') (targetId localAddress permissions : PyValue)
    (now : ℕ → Float) : HandledAlike (syscallMemoryMap uuid4 t p targetId localAddress permissions now)
      (syscallMemoryMap uuid4 t' p targetId localAddress permissions now) := by
  unfold syscallMemoryMap
  simp only [h.memoryRegions, h.uuidCount]
  split
  · exact ⟨h, rfl⟩
  · exact ⟨h, rfl⟩
  split
  · exact ⟨h, rfl⟩
  split
  · exact ⟨h, rfl⟩
  split
  · exact ⟨h.drawUuid, rfl⟩
  split
  · exact ⟨h.drawUuid, rfl⟩
  · exact ⟨h.drawUuid.registerRegion _, rfl⟩

theorem ipcSend_alike (uuid4 : ℕ → String) (h : t.Alike t') (targetId subject messageType payload : PyValue)
    (now : ℕ → Float) : HandledAlike (syscallIpcSend uuid4 t p targetId subject messageType payload now)
      (syscallIpcSend uuid4 t' p targetId subject messageType payload now) := by
  unfold syscallIpcSend ipcSendLocked
  by_cases hp : p ∈ t.processes
  · rw [if_neg (not_not.mpr hp), if_neg (not_not.mpr (h.mem.mp hp))]
    split
    · exact ⟨h, rfl⟩
    · exact ⟨h, rfl⟩
    case h_3 q _ =>
      by_cases hq : q.val ∈ t.processes
      · rw [if_neg (not_not.mpr hq), if_neg (not_not.mpr (h.mem.mp hq))]
        simp only [h.uuidCount]
        split
        · exact ⟨h.drawUuid, rfl⟩
        · exact ⟨(h.drawUuid.appendMessage _).wakeTarget, rfl⟩
      · rw [if_pos hq, if_pos (mt h.mem.mpr hq)]
        exact ⟨h, rfl⟩
  · rw [if_pos hp, if_pos (mt h.mem.mpr hp)]
    exact ⟨h, rfl⟩

theorem ipcReceive_alike (h : t.Alike t') (wait : PyValue) :
    HandledAlike (syscallIpcReceive t p wait) (syscallIpcReceive t' p wait) := by
  unfold syscallIpcReceive ipcReceiveLocked
  by_cases hp : p ∈ t.processes
  · rw [if_neg (not_not.mpr hp), if_neg (not_not.mpr (h.mem.mp hp))]
    simp only [h.messageQueues]
    split
    case h_1 message messages _ =>
      refine ⟨?_, rfl⟩
      cases h with
      | mk processes readyQueue h => exact .mk _ _ h
    · split
      · exact ⟨h, rfl⟩
      · exact blocked_alike h "ipc_receive"
  · rw [if_pos hp, if_pos (mt h.mem.mpr hp)]
    exact ⟨h, rfl⟩

theorem performSyscall_alike (uuid4 : ℕ → String) (h : t.Alike t') (now : ℕ → Float) (call : Syscall) :
    HandledAlike (performSyscall uuid4 t p now call) (performSyscall uuid4 t' p now call) := by
  cases call with
  | processCreate name priority policy => exact processCreate_alike h name priority policy now
  | processExit exitCode => exact processExit_alike h exitCode
  | processWait waitPid => exact processWait_alike h waitPid
  | memoryAllocate size permissions => exact memoryAllocate_alike uuid4 h size permissions now
  | memoryFree regionId => exact memoryFree_alike h regionId
  | memoryMap targetId localAddress permissions =>
    exact memoryMap_alike uuid4 h targetId localAddress permissions now
  | ipcSend targetId subject messageType payload =>
    exact ipcSend_alike uuid4 h targetId subject messageType payload now
  | ipcReceive wait => exact ipcReceive_alike h wait

end handlers

namespace CoreSystem

structure Alike (s s' : CoreSystem) : Prop where
  tables : s.tables.Alike s'.tables
  stats : s'.syscallStats = s.syscallStats

variable {uuid4 : ℕ → String} {s s' : CoreSystem}

theorem Alike.invokeSyscall (h : s.Alike s') (p n : ℤ) (args : Kwargs) (timing : Timing) :
    (s.invokeSyscall uuid4 p n args timing).1.Alike (s'.invokeSyscall uuid4 p n args timing).1 ∧
      (s.invokeSyscall uuid4 p n args timing).2 = (s'.invokeSyscall uuid4 p n args timing).2 := by
  have hcounted : (s.countCall n).Alike (s'.countCall n) := ⟨h.tables, by simp only [countCall, h.stats]⟩
  have hsettle {u u' : CoreSystem} (hu : u.Alike u') (r : Except PyException SyscallResult) :
      (u.settle n timing r).1.Alike (u'.settle n timing r).1 := by
    cases r with
    | ok result => exact ⟨hu.tables, by simp only [settle, hu.stats]⟩
    | error e => exact ⟨hu.tables, by simp only [settle, hu.stats]⟩
  unfold CoreSystem.invokeSyscall
  cases findSyscall n with
  | none => exact ⟨h, rfl⟩
  | some entry =>
    dsimp only
    cases entry.bind args with
    | error e =>
      dsimp only
      exact ⟨hsettle hcounted _, by rw [settle_result, settle_result]⟩
    | ok call =>
      obtain ⟨htables, hresult⟩ := performSyscall_alike (p := p) uuid4 hcounted.tables timing.now call
      dsimp only
      rw [settle_result, settle_result, ← hresult]
      refine ⟨hsettle ?_ _, rfl⟩
      exact ⟨htables, hcounted.stats⟩

theorem trace_record (uuid4 : ℕ → String) (s : CoreSystem) (es : List Event) :
    (Run.trace (next uuid4) (record uuid4) s es).flatten = s.history uuid4 es := by
  induction es generalizing s with
  | nil => rfl
  | cons e es ih => rw [Run.trace, List.flatten_cons, ih, history]

theorem run_calls (uuid4 : ℕ → String) (now : ℕ → Float) (es : List Event) :
    (run uuid4 now (es.filter Event.isCall)).Alike (run uuid4 now es) ∧
      runHistory uuid4 now (es.filter Event.isCall) = runHistory uuid4 now es := by
  rw [runHistory, runHistory, ← trace_record, ← trace_record]
  apply Run.stuttering Alike
    (fun s => s.tables.PidsBelow ∧ ReadyTable.Consistent ProcessState.ready .blocked s.tables.readyTable)
  · apply tables_step (P := fun t => t.PidsBelow ∧ ReadyTable.Consistent ProcessState.ready .blocked t.readyTable)
    · rintro t p now call t' r ⟨hbelow, hconsistent⟩ heffect
      exact ⟨heffect.pidsBelow hbelow, (heffect.readyTable_step hconsistent hbelow.fresh).consistent (by decide) hconsistent⟩
    · rintro t time ⟨hbelow, hconsistent⟩
      exact ⟨runScheduler_pidsBelow hbelow time, (runScheduler_step hconsistent time).consistent (by decide) hconsistent⟩
  · rintro s t e h ⟨-, hconsistent⟩ hsilent
    cases e with
    | syscall => cases hsilent
    | scheduler time => exact ⟨⟨h.tables.trans (.runScheduler hconsistent time), h.stats⟩, rfl⟩
  · intro s t e h hloud
    cases e with
    | scheduler => cases hloud
    | syscall p n args timing =>
      obtain ⟨hnext, hresult⟩ := h.invokeSyscall p n args timing
      exact ⟨hnext, by rw [record, record, hresult]⟩
  · exact ⟨.refl _, rfl⟩
  · exact ⟨initializeSystem_pidsBelow now, initializeSystem_consistent now⟩

theorem scheduler_transparent (uuid4 : ℕ → String) (now : ℕ → Float) {es es' : List Event}
    (h : es.filter Event.isCall = es'.filter Event.isCall) :
    runHistory uuid4 now es = runHistory uuid4 now es' ∧
      (run uuid4 now es').syscallStats = (run uuid4 now es).syscallStats ∧
      (run uuid4 now es).tables.Alike (run uuid4 now es').tables ∧
      (run uuid4 now es).tables.readyQueue.Perm (run uuid4 now es').tables.readyQueue := by
  obtain ⟨hrun, hhistory⟩ := run_calls uuid4 now es
  obtain ⟨hrun', hhistory'⟩ := run_calls uuid4 now es'
  rw [← h] at hrun' hhistory'
  have halike := hrun.tables.symm.trans hrun'.tables
  refine ⟨hhistory.symm.trans hhistory', hrun'.stats.trans hrun.stats.symm, halike, ?_⟩
  have hconsistent := run_consistent uuid4 now es
  have hconsistent' := run_consistent uuid4 now es'
  apply (List.perm_ext_iff_of_nodup hconsistent.nodup hconsistent'.nodup).mpr
  intro p
  rw [hconsistent.mem_ready, hconsistent'.mem_ready, halike.status]

theorem scheduler_transparent_create :
    let create := Sample.call 0 1 [("name", .str "a"), ("policy", .int 1)]
    let passes := [.scheduler 1, create, .scheduler 2, .scheduler 3]
    runHistory Sample.uuid4 Sample.timing.now passes = runHistory Sample.uuid4 Sample.timing.now [create] ∧
      (Sample.run [create]).syscallStats = (Sample.run passes).syscallStats ∧
      (Sample.run passes).tables.Alike (Sample.run [create]).tables ∧
      (Sample.run passes).tables.readyQueue.Perm (Sample.run [create]).tables.readyQueue :=
  scheduler_transparent Sample.uuid4 Sample.timing.now rfl

end CoreSystem

end TrinityOS
