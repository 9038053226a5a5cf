import TrinityOS.Dispatch

namespace TrinityOS

open SystemTables

def Failed : Except PyException SyscallResult → Prop
  | .ok result => result.success = false
  | .error _ => True

inductive Effect (uuid4 : ℕ → String) (t : SystemTables) (p : ℤ) (now : ℕ → Float) :
    Syscall → SystemTables → Except PyException SyscallResult → Prop
  | refused {call r} (n : ℤ) (u : ℕ) (hn : t.nextPid ≤ n) (hu : t.uuidCount ≤ u) (hr : Failed r) :
      Effect uuid4 t p now call { t with nextPid := n, uuidCount := u } r
  | created {name priority policy} (priority' policy') (hname : name.truthy = true)
      (hpriority : clampPriority priority = .ok priority') (hpolicy : clampPolicy policy = .ok policy') :
      Effect uuid4 t p now (.processCreate name priority policy)
        ({ t with nextPid := t.nextPid + 1 }.admitProcess
          (newProcessInfo t.nextPid p name priority' policy' (now 0)) (fun i => now (i + 1)))
        (.ok (.ok (.pid t.nextPid)))
  | exited {exitCode} (hp : p ∈ t.processes) :
      Effect uuid4 t p now (.processExit exitCode) (t.terminateProcess p exitCode) (.ok (.ok .none))
  | reaped {waitPid} (q target) (hkey : waitPid.intKey = .ok (some q))
      (hq : t.processes.get? q.val = some target) (hdead : target.state = .terminated) :
      Effect uuid4 t p now (.processWait waitPid) t
        (.ok (.ok (.exitCode (target.metadata.getD "exit_code" (.int 0)))))
  | waiting {waitPid} (q target) (hkey : waitPid.intKey = .ok (some q))
      (hq : t.processes.get? q.val = some target) (hlive : target.state ≠ .terminated)
      (hp : p ∈ t.processes) :
      Effect uuid4 t p now (.processWait waitPid)
        ({ t with readyQueue := t.readyQueue.erase p }.parkProcess p (waitReason q))
        (.ok (.ok (.status "blocked")))
  | strayWait {waitPid e} (hp : p ∉ t.processes) :
      Effect uuid4 t p now (.processWait waitPid) { t with readyQueue := t.readyQueue.erase p } (.error e)
  | allocated {size permissions} (n start permissions') (hp : p ∈ t.processes)
      (hsize : size.operand = .ok n) (hpos : 0 < n.val)
      (hstart : findStart t.memoryRegions 0x20000000 (t.processMemory.getD p []) = .ok start)
      (hperm : PyValue.member "MemoryPermission" MemoryPermission.ofValue? permissions = .ok permissions') :
      Effect uuid4 t p now (.memoryAllocate size permissions)
        ((t.drawUuid.registerRegion p
          (allocatedRegion (uuid4 t.uuidCount) start n.val p permissions' (now 0))).addMemoryUsage p n.val)
        (.ok (.ok (.region (uuid4 t.uuidCount) start n.val)))
  | freed (regionId region) (hregion : t.memoryRegions.get? regionId = some region)
      (howner : region.ownerPid = p) :
      Effect uuid4 t p now (.memoryFree (.str regionId)) (t.deleteRegion p region regionId)
        (.ok (.ok .none))
  | mapped {localAddress permissions} (targetId targetRegion address permissions')
      (htarget : t.memoryRegions.get? targetId = some targetRegion)
      (hallowed : targetRegion.memoryType = .shared ∨ targetRegion.ownerPid = p)
      (haddress : localAddress.operand = .ok address)
      (hperm : PyValue.member "MemoryPermission" MemoryPermission.ofValue? permissions = .ok permissions') :
      Effect uuid4 t p now (.memoryMap (.str targetId) localAddress permissions)
        (t.drawUuid.registerRegion p (mappedRegion (uuid4 t.uuidCount)
          (if address.val > 0 then address.val else 0x30000000) targetRegion.size p permissions' targetId (now 0)))
        (.ok (.ok (.region (uuid4 t.uuidCount)
          (if address.val > 0 then address.val else 0x30000000) targetRegion.size)))
  | sent {targetId subject messageType payload} (q messageType') (hp : p ∈ t.processes)
      (hkey : targetId.intKey = .ok (some q)) (hq : q.val ∈ t.processes)
      (htype : PyValue.member "IPCMessageType" IPCMessageType.ofValue? messageType = .ok messageType') :
      Effect uuid4 t p now (.ipcSend targetId subject messageType payload)
        ((t.drawUuid.appendMessage q.val
          (newMessage (uuid4 t.uuidCount) messageType' p q.val subject payload (now 0))).wakeTarget q.val)
        (.ok (.ok (.messageId (uuid4 t.uuidCount))))
  | received {wait} (message messages) (hp : p ∈ t.processes)
      (hqueue : t.messageQueues.getD p [] = message :: messages) :
      Effect uuid4 t p now (.ipcReceive wait)
        { t with messageQueues := t.messageQueues.set p messages } (.ok (.ok message.received))
  | noMessage {wait} (hp : p ∈ t.processes) (hqueue : t.messageQueues.getD p [] = [])
      (hwait : wait.truthy = false) :
      Effect uuid4 t p now (.ipcReceive wait) t (.ok (.ok .none))
  | listening {wait} (hp : p ∈ t.processes) (hqueue : t.messageQueues.getD p [] = [])
      (hwait : wait.truthy = true) :
      Effect uuid4 t p now (.ipcReceive wait)
        ({ t with readyQueue := t.readyQueue.erase p }.parkProcess p "ipc_receive")
        (.ok (.ok (.status "blocked")))

section

variable {uuid4 : ℕ → String} {t : SystemTables} {p : ℤ} {now : ℕ → Float}

theorem Effect.refused_same {call : Syscall} {r : Except PyException SyscallResult} (hr : Failed r) :
    Effect uuid4 t p now call t r := .refused t.nextPid t.uuidCount (Int.le_refl _) (Nat.le_refl _) hr

theorem Effect.refused_draw {call : Syscall} {r : Except PyException SyscallResult} (hr : Failed r) :
    Effect uuid4 t p now call t.drawUuid r :=
  .refused t.nextPid (t.uuidCount + 1) (Int.le_refl _) (Nat.le_succ _) hr

theorem Effect.refused_pid {call : Syscall} {r : Except PyException SyscallResult} (hr : Failed r) :
    Effect uuid4 t p now call { t with nextPid := t.nextPid + 1 } r :=
  .refused (t.nextPid + 1) t.uuidCount (by omega) (Nat.le_refl _) hr

theorem blockProcess_of_mem (reason : String) (hp : p ∈ t.processes) :
    t.blockProcess p reason = ({ t with readyQueue := t.readyQueue.erase p }.parkProcess p reason, .ok ()) := by
  simp only [blockProcess, hp, ↓reduceIte]

theorem blockProcess_of_not_mem (reason : String) (hp : p ∉ t.processes) :
    t.blockProcess p reason =
      ({ t with readyQueue := t.readyQueue.erase p }, .error (.keyError (.int p))) := by
  simp only [blockProcess, hp, ↓reduceIte]

theorem processCreate_of_truthy {name priority policy : PyValue} {priority' : ProcessPriority}
    {policy' : SchedulingPolicy} (hname : name.truthy = true) (hpriority : clampPriority priority = .ok priority')
    (hpolicy : clampPolicy policy = .ok policy') :
    syscallProcessCreate t p name priority policy now =
      ({ t with nextPid := t.nextPid + 1 }.admitProcess
        (newProcessInfo t.nextPid p name priority' policy' (now 0)) (fun i => now (i + 1)),
        .ok (.ok (.pid t.nextPid))) := by
  simp only [syscallProcessCreate, hname, not_true_eq_false, ↓reduceIte, hpriority, hpolicy]

theorem processExit_of_mem (exitCode : PyValue) (hp : p ∈ t.processes) :
    syscallProcessExit t p exitCode = (t.terminateProcess p exitCode, .ok (.ok .none)) :=
  if_neg (not_not.mpr hp)

theorem processWait_of_terminated {waitPid : PyValue} {q : PyInt} {target : ProcessInfo}
    (hkey : waitPid.intKey = .ok (some q)) (hq : t.processes.get? q.val = some target)
    (hdead : target.state = .terminated) :
    syscallProcessWait t p waitPid =
      (t, .ok (.ok (.exitCode (target.metadata.getD "exit_code" (.int 0))))) := by
  simp only [syscallProcessWait, hkey, hq, hdead, ↓reduceIte]

theorem processWait_of_live {waitPid : PyValue} {q : PyInt} {target : ProcessInfo}
    (hkey : waitPid.intKey = .ok (some q)) (hq : t.processes.get? q.val = some target)
    (hlive : target.state ≠ .terminated) (hp : p ∈ t.processes) :
    syscallProcessWait t p waitPid =
      ({ t with readyQueue := t.readyQueue.erase p }.parkProcess p (waitReason q),
        .ok (.ok (.status "blocked"))) := by
  simp only [syscallProcessWait, hkey, hq, hlive, ↓reduceIte, blockProcess_of_mem _ hp]

theorem memoryFree_of_owned {id : String} {region : MemoryRegion} (hregion : t.memoryRegions.get? id = some region)
    (howner : region.ownerPid = p) :
    syscallMemoryFree t p (.str id) = (t.deleteRegion p region id, .ok (.ok .none)) := by
  simp only [syscallMemoryFree, PyValue.strKey, hregion, howner, ne_eq, not_true_eq_false, ↓reduceIte]

theorem memoryMap_of_allowed {id : String} {target : MemoryRegion} {localAddress permissions : PyValue}
    {address : PyInt} {permissions' : MemoryPermission} (htarget : t.memoryRegions.get? id = some target)
    (hallowed : target.memoryType = .shared ∨ target.ownerPid = p) (haddress : localAddress.operand = .ok address)
    (hperm : PyValue.member "MemoryPermission" MemoryPermission.ofValue? permissions = .ok permissions') :
    (syscallMemoryMap uuid4 t p (.str id) localAddress permissions now).1 =
      t.drawUuid.registerRegion p (mappedRegion (uuid4 t.uuidCount)
        (if address.val > 0 then address.val else 0x30000000) target.size p permissions' id (now 0)) := by
  have hdenied : ¬ (target.memoryType ≠ .shared ∧ target.ownerPid ≠ p) := by tauto
  simp only [syscallMemoryMap, PyValue.strKey, htarget, if_neg hdenied, haddress, hperm]

theorem ipcReceive_of_empty {wait : PyValue} (hp : p ∈ t.processes)
    (hqueue : t.messageQueues.getD p [] = []) (hwait : wait.truthy = true) :
    syscallIpcReceive t p wait =
      ({ t with readyQueue := t.readyQueue.erase p }.parkProcess p "ipc_receive",
        .ok (.ok (.status "blocked"))) := by
  simp only [syscallIpcReceive, ipcReceiveLocked, hp, not_true_eq_false, hqueue, hwait, ↓reduceIte,
    Progress.complete, Continuation.run, blockProcess_of_mem _ hp]

theorem strKey_some {v : PyValue} {s : String} (h : v.strKey = .ok (some s)) : v = .str s := by
  unfold PyValue.strKey at h
  split at h <;> simp_all

theorem processCreate_effect (name priority policy : PyValue) :
    Effect uuid4 t p now (.processCreate name priority policy)
      (syscallProcessCreate t p name priority policy now).1
      (syscallProcessCreate t p name priority policy now).2 := by
  unfold syscallProcessCreate
  split
  case isTrue => exact .refused_same rfl
  case isFalse hname =>
    dsimp only
    cases hpriority : clampPriority priority with
    | error e => exact .refused_pid trivial
    | ok priority' =>
      cases hpolicy : clampPolicy policy with
      | error e => exact .refused_pid trivial
      | ok policy' => exact .created priority' policy' (by simpa using hname) hpriority hpolicy

theorem processExit_effect (exitCode : PyValue) :
    Effect uuid4 t p now (.processExit exitCode) (syscallProcessExit t p exitCode).1
      (syscallProcessExit t p exitCode).2 := by
  unfold syscallProcessExit
  split
  case isTrue => exact .refused_same rfl
  case isFalse hp => exact .exited (by simpa using hp)

theorem processWait_effect (waitPid : PyValue) :
    Effect uuid4 t p now (.processWait waitPid) (syscallProcessWait t p waitPid).1
      (syscallProcessWait t p waitPid).2 := by
  unfold syscallProcessWait
  cases hkey : waitPid.intKey with
  | error e => exact .refused_same trivial
  | ok key =>
    cases key with
    | none => exact .refused_same rfl
    | some q =>
      dsimp only
      cases hq : t.processes.get? q.val with
      | none => exact .refused_same rfl
      | some target =>
        dsimp only
        split
        case isTrue hdead => exact .reaped q target hkey hq hdead
        case isFalse hlive =>
          by_cases hp : p ∈ t.processes
          · rw [blockProcess_of_mem _ hp]; exact .waiting q target hkey hq hlive hp
          · rw [blockProcess_of_not_mem _ hp]; exact .strayWait hp

theorem memoryAllocate_effect (size permissions : PyValue) :
    Effect uuid4 t p now (.memoryAllocate size permissions)
      (syscallMemoryAllocate uuid4 t p size permissions now).1
      (syscallMemoryAllocate uuid4 t p size permissions now).2 := by
  unfold syscallMemoryAllocate
  split
  case isTrue => exact .refused_same rfl
  case isFalse hp =>
    cases hsize : size.operand with
    | error e => exact .refused_same trivial
    | ok n =>
      dsimp only
      split
      case isTrue => exact .refused_same rfl
      case isFalse hpos =>
        cases hstart : findStart t.memoryRegions 0x20000000 (t.processMemory.getD p []) with
        | error e => simp only [drawUuid, hstart]; exact .refused_draw trivial
        | ok start =>
          simp only [drawUuid, hstart]
          cases hperm : PyValue.member "MemoryPermission" MemoryPermission.ofValue? permissions with
          | error e => exact .refused_draw trivial
          | ok permissions' =>
            exact .allocated n start permissions' (by simpa using hp) hsize (by omega) hstart hperm

theorem memoryFree_effect (regionId : PyValue) :
    Effect uuid4 t p now (.memoryFree regionId) (syscallMemoryFree t p regionId).1
      (syscallMemoryFree t p regionId).2 := by
  unfold syscallMemoryFree
  cases hkey : regionId.strKey with
  | error e => exact .refused_same trivial
  | ok key =>
    cases key with
    | none => exact .refused_same rfl
    | some id =>
      obtain rfl := strKey_some hkey
      dsimp only
      cases hregion : t.memoryRegions.get? id with
      | none => exact .refused_same rfl
      | some region =>
        dsimp only
        split
        case isTrue => exact .refused_same rfl
        case isFalse howner => exact .freed id region hregion (by simpa using howner)

theorem memoryMap_effect (targetId localAddress permissions : PyValue) :
    Effect uuid4 t p now (.memoryMap targetId localAddress permissions)
      (syscallMemoryMap uuid4 t p targetId localAddress permissions now).1
      (syscallMemoryMap uuid4 t p targetId localAddress permissions now).2 := by
  unfold syscallMemoryMap
  cases hkey : targetId.strKey with
  | error e => exact .refused_same trivial
  | ok key =>
    cases key with
    | none => exact .refused_same rfl
    | some id =>
      obtain rfl := strKey_some hkey
      dsimp only
      cases htarget : t.memoryRegions.get? id with
      | none => exact .refused_same rfl
      | some targetRegion =>
        dsimp only
        split
        case isTrue => exact .refused_same rfl
        case isFalse hdenied =>
          cases haddress : localAddress.operand with
          | error e => exact .refused_draw trivial
          | ok address =>
            dsimp only
            cases hperm : PyValue.member "MemoryPermission" MemoryPermission.ofValue? permissions with
            | error e => exact .refused_draw trivial
            | ok permissions' =>
              have hallowed : targetRegion.memoryType = .shared ∨ targetRegion.ownerPid = p := by
                by_contra h
                exact hdenied (not_or.mp h)
              exact .mapped id targetRegion address permissions' htarget hallowed haddress hperm

theorem ipcSend_effect (targetId subject messageType payload : PyValue) :
    Effect uuid4 t p now (.ipcSend targetId subject messageType payload)
      (syscallIpcSend uuid4 t p targetId subject messageType payload now).1
      (syscallIpcSend uuid4 t p targetId subject messageType payload now).2 := by
  unfold syscallIpcSend ipcSendLocked
  split
  case isTrue => exact .refused_same rfl
  case isFalse hp =>
    cases hkey : targetId.intKey with
    | error e => exact .refused_same trivial
    | ok key =>
      cases key with
      | none => exact .refused_same rfl
      | some q =>
        dsimp only
        split
        case isTrue => exact .refused_same rfl
        case isFalse hq =>
          cases htype : PyValue.member "IPCMessageType" IPCMessageType.ofValue? messageType with
          | error e => exact .refused_draw trivial
          | ok messageType' => exact .sent q messageType' (by simpa using hp) hkey (by simpa using hq) htype

theorem ipcReceive_effect (wait : PyValue) :
    Effect uuid4 t p now (.ipcReceive wait) (syscallIpcReceive t p wait).1
      (syscallIpcReceive t p wait).2 := by
  unfold syscallIpcReceive ipcReceiveLocked
  split
  case isTrue => exact .refused_same rfl
  case isFalse hp =>
    rw [not_not] at hp
    cases hqueue : t.messageQueues.getD p [] with
    | cons message messages => exact .received message messages hp hqueue
    | nil =>
      dsimp only
      split
      case isTrue hwait => exact .noMessage hp hqueue (by simpa using hwait)
      case isFalse hwait =>
        simp only [Progress.complete, Continuation.run, blockProcess_of_mem _ hp]
        exact .listening hp hqueue (by simpa using hwait)

theorem performSyscall_effect (call : Syscall) :
    Effect uuid4 t p now call (performSyscall uuid4 t p now call).1
      (performSyscall uuid4 t p now call).2 := by
  cases call with
  | processCreate name priority policy => exact processCreate_effect name priority policy
  | processExit exitCode => exact processExit_effect exitCode
  | processWait waitPid => exact processWait_effect waitPid
  | memoryAllocate size permissions => exact memoryAllocate_effect size permissions
  | memoryFree regionId => exact memoryFree_effect regionId
  | memoryMap targetId localAddress permissions => exact memoryMap_effect targetId localAddress permissions
  | ipcSend targetId subject messageType payload => exact ipcSend_effect targetId subject messageType payload
  | ipcReceive wait => exact ipcReceive_effect wait

end

end TrinityOS
