import TrinityOS.Orphans
import TrinityOS.Accounting

namespace TrinityOS

open SystemTables
open OwnedStore (Complete)

namespace SystemTables

def Holds (t : SystemTables) (q : ℤ) : Prop :=
  (∃ id region, t.memoryRegions.get? id = some region ∧ region.ownerPid = q) ∨
    q ∈ t.processMemory ∨ q ∈ t.messageQueues

def OnlyLiveHold (t : SystemTables) : Prop := ∀ q, t.Holds q → t.Live q

def AllocateAccepted (t : SystemTables) (p : ℤ) (size permissions : PyValue) : Prop :=
  p ∈ t.processes ∧ (∃ n, size.operand = .ok n ∧ 0 < n.val) ∧
    ∃ permissions', PyValue.member "MemoryPermission" MemoryPermission.ofValue? permissions = .ok permissions'

def SendAccepted (t : SystemTables) (p : ℤ) (targetId messageType : PyValue) (w : PyInt) : Prop :=
  p ∈ t.processes ∧ targetId.intKey = .ok (some w) ∧ w.val ∈ t.processes ∧
    ∃ messageType', PyValue.member "IPCMessageType" IPCMessageType.ofValue? messageType = .ok messageType'

end SystemTables

def AcquiresForLive (t : SystemTables) (p : ℤ) : Syscall → Prop
  | .memoryAllocate size permissions => t.AllocateAccepted p size permissions → t.Live p
  | .memoryMap targetId localAddress permissions => t.MapAccepted p targetId localAddress permissions → t.Live p
  | .ipcSend targetId _ messageType _ => ∀ w, t.SendAccepted p targetId messageType w → t.Live w.val
  | _ => True

variable {uuid4 : ℕ → String} {t t' : SystemTables} {p q : ℤ} {now : ℕ → Float} {call : Syscall}
  {r : Except PyException SyscallResult}

namespace SystemTables

theorem Live.mem (h : t.Live q) : q ∈ t.processes := by
  obtain ⟨process, hq, -⟩ := h
  exact Dict.mem_of_get? hq

theorem holds_congr (hregions : t'.memoryRegions = t.memoryRegions) (hindex : t'.processMemory = t.processMemory)
    (hqueues : t'.messageQueues = t.messageQueues) : t'.Holds q ↔ t.Holds q := by
  rw [Holds, hregions, hindex, hqueues, Holds]

theorem holds_register {region : MemoryRegion} (hp : region.ownerPid = p)
    (h : (t.registerRegion p region).Holds q) : q = p ∨ t.Holds q := by
  rcases h with ⟨id, x, hx, hq⟩ | h | h
  · rw [registerRegion_memoryRegions, Dict.get?_set] at hx
    split_ifs at hx
    · obtain rfl := Option.some.inj hx
      exact .inl (hq.symm.trans hp)
    · exact .inr (.inl ⟨id, x, hx, hq⟩)
  · rw [registerRegion_processMemory, Dict.mem_set] at h
    exact h.imp_right fun h => .inr (.inl h)
  · exact .inr (.inr (.inr h))

theorem holds_of_register {region : MemoryRegion} : (t.registerRegion p region).Holds p :=
  .inr (.inl (Dict.mem_set.mpr (.inl rfl)))

theorem holds_delete {region : MemoryRegion} {id : String} (h : (t.deleteRegion p region id).Holds q) :
    t.Holds q := by
  rcases h with ⟨j, x, hx, hq⟩ | h | h
  · rw [deleteRegion_memoryRegions, Dict.get?_del] at hx
    split_ifs at hx
    exact .inl ⟨j, x, hx, hq⟩
  · rw [deleteRegion_processMemory, Dict.mem_modify] at h
    exact .inr (.inl h)
  · exact .inr (.inr h)

theorem holds_admit {newProcess : ProcessInfo} (h : (t.admitProcess newProcess now).Holds q) :
    q = newProcess.processId ∨ t.Holds q := by
  rcases h with ⟨id, x, hx, hq⟩ | h | h
  · rcases admitProcess_memoryRegions_get? hx with ⟨hm, -⟩ | hx
    · exact .inl (hq.symm.trans (initialRegions_spec hm).1)
    · exact .inr (.inl ⟨id, x, hx, hq⟩)
  · rw [admitProcess_processMemory, Dict.mem_set] at h
    exact h.imp_right fun h => .inr (.inl h)
  · rw [admitProcess_messageQueues, Dict.mem_set] at h
    exact h.imp_right fun h => .inr (.inr h)

theorem holds_terminate {exitCode : PyValue} (hc : Complete MemoryRegion.ownerPid t.regionTable)
    (h : (t.terminateProcess p exitCode).Holds q) : q ≠ p ∧ t.Holds q := by
  rcases h with ⟨id, x, hx, hq⟩ | h | h
  · have hview : (t.regionTable.dispose p).items id = some x := by
      rw [← regionTable_terminateProcess t p exitCode]
      exact hx
    refine ⟨?_, .inl ⟨id, x, terminateProcess_memoryRegions_of_get? hx, hq⟩⟩
    rw [← hq]
    exact hc.owner_ne_of_dispose hview
  · rw [Dict.mem_def, terminateProcess_processMemory_get?] at h
    split_ifs at h with hqp
    · cases h
    · exact ⟨hqp, .inr (.inl h)⟩
  · rw [terminateProcess_messageQueues, Dict.mem_del] at h
    exact ⟨h.1, .inr (.inr h.2)⟩

theorem holds_send {message : IPCMessage} (h : ((t.appendMessage p message).wakeTarget p).Holds q) :
    q = p ∨ t.Holds q := by
  rw [holds_congr (wakeTarget_memoryRegions _ p) (wakeTarget_processMemory _ p)
    (wakeTarget_messageQueues _ p)] at h
  rcases h with h | h | h
  · exact .inr (.inl h)
  · exact .inr (.inr (.inl h))
  · rw [appendMessage_messageQueues, Dict.mem_set] at h
    exact h.imp_right fun h => .inr (.inr h)

theorem holds_of_send {message : IPCMessage} : ((t.appendMessage p message).wakeTarget p).Holds p := by
  right; right
  rw [wakeTarget_messageQueues, appendMessage_messageQueues, Dict.mem_set]
  exact .inl rfl

end SystemTables

theorem Effect.onlyLiveHold (he : Effect uuid4 t p now call t' r) (hfresh : t.nextPid ∉ t.processes)
    (hc : Complete MemoryRegion.ownerPid t.regionTable) (h : t.OnlyLiveHold) (hok : AcquiresForLive t p call) :
    t'.OnlyLiveHold := by
  intro q hq
  have hlive (hexit : ∀ exitCode, call = .processExit exitCode → Failed r ∨ q ≠ p) (hl : t.Live q) :
      t'.Live q := by
    apply he.live hfresh hl
    intro exitCode hcall hr
    exact (hexit exitCode hcall).resolve_left hr
  cases he with
  | refused _ _ _ _ hr => exact hlive (fun _ _ => .inl hr) (h q hq)
  | created =>
    rcases holds_admit hq with rfl | hq
    · exact ⟨_, by rw [admitProcess_get?, if_pos rfl], by simp⟩
    · exact hlive (by simp) (h q hq)
  | exited =>
    obtain ⟨hqp, hq⟩ := holds_terminate hc hq
    exact hlive (fun _ _ => .inr hqp) (h q hq)
  | allocated n start permissions hp hsize hpos _ hperm =>
    have hp : t.Live p := hok ⟨hp, ⟨n, hsize, hpos⟩, permissions, hperm⟩
    rcases holds_register rfl hq with rfl | hq
    · exact hlive (by simp) hp
    · exact hlive (by simp) (h q hq)
  | freed => exact hlive (by simp) (h q (holds_delete hq))
  | mapped targetId region address permissions htarget hallowed haddress hperm =>
    have hp : t.Live p := hok ⟨targetId, region, address, permissions, rfl, htarget, hallowed, haddress, hperm⟩
    rcases holds_register rfl hq with rfl | hq
    · exact hlive (by simp) hp
    · exact hlive (by simp) (h q hq)
  | sent w messageType hp hkey hw htype =>
    have hw : t.Live w.val := hok w ⟨hp, hkey, hw, messageType, htype⟩
    rcases holds_send hq with rfl | hq
    · exact hlive (by simp) hw
    · exact hlive (by simp) (h q hq)
  | received message messages _ hqueue =>
    have hq : t.Holds q := by
      rcases hq with hq | hq | hq
      · exact .inl hq
      · exact .inr (.inl hq)
      · -- the queue that was popped existed before
        rcases Dict.mem_set.mp hq with rfl | hq
        · right; right
          by_contra hn
          rw [Dict.getD_of_not_mem hn] at hqueue
          cases hqueue
        · exact .inr (.inr hq)
    exact hlive (by simp) (h q hq)
  | _ => exact hlive (by simp) (h q hq)

theorem memoryAllocate_of_accepted {size permissions : PyValue} (h : t.MemoryKept uuid4)
    (ha : t.AllocateAccepted p size permissions) :
    ∃ region n, (syscallMemoryAllocate uuid4 t p size permissions now).1 =
      (t.drawUuid.registerRegion p region).addMemoryUsage p n := by
  obtain ⟨hp, ⟨n, hsize, hpos⟩, permissions', hperm⟩ := ha
  obtain ⟨start, hstart⟩ := h.findStart_ok p 0x20000000
  have hle : ¬ n.val ≤ 0 := by omega
  refine ⟨allocatedRegion (uuid4 t.uuidCount) start n.val p permissions' (now 0), n.val, ?_⟩
  simp only [syscallMemoryAllocate, hp, not_true_eq_false, hsize, hle, drawUuid, hstart, hperm, ↓reduceIte]

theorem ipcSend_of_accepted {targetId subject messageType payload : PyValue} {w : PyInt}
    (hs : t.SendAccepted p targetId messageType w) :
    ∃ message, (syscallIpcSend uuid4 t p targetId subject messageType payload now).1 =
      (t.drawUuid.appendMessage w.val message).wakeTarget w.val := by
  obtain ⟨hp, hkey, hw, messageType', htype⟩ := hs
  refine ⟨newMessage (uuid4 t.uuidCount) messageType' p w.val subject payload (now 0), ?_⟩
  simp only [syscallIpcSend, ipcSendLocked, hp, hkey, hw, htype, not_true_eq_false, ↓reduceIte, Progress.complete,
    Continuation.run]

namespace SystemTables

theorem Live.of_addMemoryUsage {size : ℤ} (h : (t.addMemoryUsage p size).Live q) : t.Live q := by
  obtain ⟨process, hq, hstate⟩ := h
  rw [addMemoryUsage_get?] at hq
  split_ifs at hq with hqp
  · obtain ⟨process', hp, rfl⟩ := Option.map_eq_some_iff.mp hq
    exact ⟨process', by rw [hqp, hp], hstate⟩
  · exact ⟨process, hq, hstate⟩

theorem Live.of_wakeTarget (hc : ReadyTable.Consistent .ready .blocked t.readyTable)
    (h : (t.wakeTarget q).Live q) : t.Live q := by
  by_cases hl : t.blockedProcesses.get? q = some "ipc_receive"
  · have hb : t.readyTable.status q = some .blocked := (hc.blocked_isSome q).mp (by simp [readyTable, hl])
    obtain ⟨process, hq, hstate⟩ := status_eq_some.mp hb
    exact ⟨process, hq, by simp [hstate]⟩
  · rwa [wakeTarget_of_not_listening t q hl] at h

end SystemTables

theorem acquiresForLive_of_hold (h : t.MemoryKept uuid4)
    (hc : ReadyTable.Consistent .ready .blocked t.readyTable)
    (h' : (performSyscall uuid4 t p now call).1.OnlyLiveHold) : AcquiresForLive t p call := by
  cases call with
  | memoryAllocate size permissions =>
    intro ha
    obtain ⟨region, n, ht⟩ := @memoryAllocate_of_accepted uuid4 t p now _ _ h ha
    rw [performSyscall, ht] at h'
    have hholds : ((t.drawUuid.registerRegion p region).addMemoryUsage p n).Holds p := holds_of_register
    exact (h' p hholds).of_addMemoryUsage
  | memoryMap targetId localAddress permissions =>
    intro hmap
    obtain ⟨region, ht, -⟩ := @memoryMap_of_accepted uuid4 t p now _ _ _ h hmap
    rw [performSyscall, ht] at h'
    exact h' p holds_of_register
  | ipcSend targetId subject messageType payload =>
    intro w hs
    obtain ⟨message, ht⟩ := @ipcSend_of_accepted uuid4 t p now _ subject _ payload w hs
    rw [performSyscall, ht] at h'
    have hview : ReadyTable.Consistent .ready .blocked (t.drawUuid.appendMessage w.val message).readyTable := hc
    have hw : (t.drawUuid.appendMessage w.val message).Live w.val :=
      Live.of_wakeTarget hview (h' w.val holds_of_send)
    exact hw
  | _ => trivial

theorem SystemTables.OnlyLiveHold.createsUnmapped (h : t.OnlyLiveHold) (hfresh : t.nextPid ∉ t.processes) :
    CreatesUnmapped t p call := by
  intro _ _ _ _ _
  apply Dict.getD_of_not_mem
  intro hm
  exact hfresh (h t.nextPid (.inr (.inl hm))).mem

namespace CoreSystem

theorem initializeSystem_onlyLiveHold (now : ℕ → Float) : (initializeSystem now).tables.OnlyLiveHold := by
  intro q hq
  have hkernel : (initializeSystem now).tables.Live 0 := ⟨_, rfl, by simp⟩
  rcases hq with ⟨id, region, hr, rfl⟩ | hq | hq
  · rcases initializeSystem_memoryRegions hr with ⟨-, rfl⟩ | ⟨-, rfl⟩
    · exact hkernel
    · exact hkernel
  · have hzero : q = 0 := by
      simpa [initializeSystem, initMemory, registerSyscalls, Dict.mem_set] using hq
    rwa [hzero]
  · cases hq

theorem onlyLiveHold_always_iff (hu : UuidFresh uuid4) (now : ℕ → Float) (es : List Event) :
    Run.Always (next uuid4) (fun s => s.tables.OnlyLiveHold) (initializeSystem now) es ↔
      Run.Guarded (next uuid4) (Allows AcquiresForLive) (initializeSystem now) es := by
  apply always_iff_allows
    (J := fun t => (t.MemoryKept uuid4 ∧ ReadyTable.Consistent .ready .blocked t.readyTable) ∧
      Complete MemoryRegion.ownerPid t.regionTable ∧ t.OnlyLiveHold)
  · rintro t ⟨-, -, h⟩
    exact h
  · rintro t p now call t' r ⟨⟨hk, hview⟩, hc, h⟩ hok he
    have hfresh := hk.pids.fresh
    refine ⟨⟨hk.effect hu he, (he.readyTable_step hview hfresh).consistent (by decide) hview⟩, ?_, ?_⟩
    · exact he.complete hu hk hc (h.createsUnmapped hfresh)
    · exact he.onlyLiveHold hfresh hc h hok
  · rintro t time ⟨⟨hk, hview⟩, hc, h⟩
    refine ⟨⟨hk.runScheduler time, (runScheduler_step hview time).consistent (by decide) hview⟩, ?_, ?_⟩
    · rw [regionTable_runScheduler]
      exact hc
    · intro q hq
      rw [holds_congr (runScheduler_memoryRegions t time) (runScheduler_processMemory t time)
        (runScheduler_messageQueues t time)] at hq
      exact runScheduler_live (h q hq) time
  · rintro t p now call ⟨⟨hk, hview⟩, -⟩ h'
    exact acquiresForLive_of_hold hk hview h'
  · exact ⟨⟨initializeSystem_memoryKept now, initializeSystem_consistent now⟩, initializeSystem_complete now,
      initializeSystem_onlyLiveHold now⟩

theorem onlyLiveHold_always_iff_init :
    Run.Always (next Sample.uuid4) (fun s => s.tables.OnlyLiveHold) (initializeSystem Sample.timing.now)
        [Sample.call 1 10 [("size", .int 4096)], Sample.call 1 2 []] ↔
      Run.Guarded (next Sample.uuid4) (Allows AcquiresForLive) (initializeSystem Sample.timing.now)
        [Sample.call 1 10 [("size", .int 4096)], Sample.call 1 2 []] :=
  onlyLiveHold_always_iff Sample.uuid4_fresh Sample.timing.now _

theorem dead_process_allocates : ¬ Run.Always (next Sample.uuid4) (fun s => s.tables.OnlyLiveHold)
    (initializeSystem Sample.timing.now) [Sample.call 1 2 [], Sample.call 1 10 [("size", .int 4096)]] := by
  intro h
  have hholds : (Sample.run [Sample.call 1 2 [], Sample.call 1 10 [("size", .int 4096)]]).tables.Holds 1 :=
    .inr (.inl (by decide))
  have hlive : (Sample.run [Sample.call 1 2 [], Sample.call 1 10 [("size", .int 4096)]]).tables.Live 1 :=
    h.last 1 hholds
  exact not_live_of_terminated (by decide) hlive

end CoreSystem

end TrinityOS
