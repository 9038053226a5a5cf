import TrinityOS.RegionIndex

namespace TrinityOS

open SystemTables
open OwnedStore (Sound Complete)

namespace SystemTables

structure NoOrphan (t : SystemTables) : Prop where
  listed : ∀ id region, t.memoryRegions.get? id = some region →
    (t.processMemory.getD region.ownerPid []).count id = 1
  exit_frees : ∀ p exitCode, (syscallProcessExit t p exitCode).2 = .ok (.ok .none) →
    ∀ id region, (syscallProcessExit t p exitCode).1.memoryRegions.get? id = some region → region.ownerPid ≠ p

end SystemTables

def CreateAccepted (name priority policy : PyValue) : Prop :=
  name.truthy = true ∧ (∃ priority', clampPriority priority = .ok priority') ∧
    ∃ policy', clampPolicy policy = .ok policy'

def CreatesUnmapped (t : SystemTables) (_ : ℤ) (call : Syscall) : Prop :=
  ∀ name priority policy, call = .processCreate name priority policy → CreateAccepted name priority policy →
    t.processMemory.getD t.nextPid [] = []

variable {uuid4 : ℕ → String} {t t' : SystemTables} {p : ℤ} {now : ℕ → Float} {call : Syscall}
  {r : Except PyException SyscallResult}

theorem processCreate_of_accepted {name priority policy : PyValue} (h : CreateAccepted name priority policy) :
    ∃ priority' policy', syscallProcessCreate t p name priority policy now =
      ({ t with nextPid := t.nextPid + 1 }.admitProcess
        (newProcessInfo t.nextPid p name priority' policy' (now 0)) (fun i => now (i + 1)),
        .ok (.ok (.pid t.nextPid))) := by
  obtain ⟨hname, ⟨priority', hpriority⟩, policy', hpolicy⟩ := h
  exact ⟨priority', policy', processCreate_of_truthy hname hpriority hpolicy⟩

namespace SystemTables

theorem MemoryKept.noOrphan_iff (h : t.MemoryKept uuid4) :
    t.NoOrphan ↔ Complete MemoryRegion.ownerPid t.regionTable := by
  constructor
  · intro hn id region hr
    apply List.count_pos_iff.mp
    have hone : (t.regionTable.held region.ownerPid).count id = 1 := hn.listed id region hr
    omega
  · intro hc
    constructor
    · intro id region hr
      exact List.count_eq_one_of_mem (h.sound.nodup region.ownerPid) (hc id region hr)
    · intro p exitCode hsuccess id region hr
      by_cases hp : p ∈ t.processes
      · rw [processExit_of_mem exitCode hp] at hr
        apply Complete.owner_ne_of_dispose hc (k := id)
        rw [← regionTable_terminateProcess t p exitCode]
        exact hr
      · simp [syscallProcessExit, hp, SyscallResult.ok, SyscallResult.failure] at hsuccess

theorem MemoryKept.complete_admit_iff {newProcess : ProcessInfo} (h : t.MemoryKept uuid4) (hu : UuidFresh uuid4)
    (hc : Complete MemoryRegion.ownerPid t.regionTable) (hpid : newProcess.processId = t.nextPid) :
    Complete MemoryRegion.ownerPid
        ({ t with nextPid := t.nextPid + 1 }.admitProcess newProcess now).regionTable ↔
      t.processMemory.getD t.nextPid [] = [] := by
  rw [regionTable_admitProcess, hpid]
  -- the list of the new pid is overwritten, so whatever it held loses its only entry
  apply OwnedStore.complete_install_iff h.sound hc
  · exact initialItems_nodup t.nextPid _
  · intro kx hkx
    exact h.named.segments_fresh hu (List.mem_map_of_mem hkx)
  · intro kx hkx
    exact (initialRegions_spec (initialItems_spec hkx).1).1

end SystemTables

theorem Effect.complete (he : Effect uuid4 t p now call t' r) (hu : UuidFresh uuid4) (h : t.MemoryKept uuid4)
    (hc : Complete MemoryRegion.ownerPid t.regionTable) (hok : CreatesUnmapped t p call) :
    Complete MemoryRegion.ownerPid t'.regionTable := by
  cases he with
  | @created name priority policy priority' policy' hname hpriority hpolicy =>
    apply (h.complete_admit_iff hu hc rfl).mpr
    exact hok name priority policy rfl ⟨hname, ⟨priority', hpriority⟩, policy', hpolicy⟩
  | exited =>
    rw [regionTable_terminateProcess]
    exact hc.dispose
  | allocated =>
    rw [regionTable_addMemoryUsage, regionTable_registerRegion]
    exact hc.acquire rfl
  | freed =>
    rw [regionTable_deleteRegion]
    exact hc.release
  | mapped =>
    rw [regionTable_registerRegion]
    exact hc.acquire rfl
  | sent =>
    rw [regionTable_wakeTarget]
    exact hc
  | _ => exact hc

namespace CoreSystem

theorem noOrphan_always_iff (hu : UuidFresh uuid4) (now : ℕ → Float) (es : List Event) :
    Run.Always (next uuid4) (fun s => s.tables.NoOrphan) (initializeSystem now) es ↔
      Run.Guarded (next uuid4) (Allows CreatesUnmapped) (initializeSystem now) es := by
  apply always_iff_allows
    (J := fun t => t.MemoryKept uuid4 ∧ Complete MemoryRegion.ownerPid t.regionTable)
  · rintro t ⟨h, hc⟩
    exact h.noOrphan_iff.mpr hc
  · rintro t p now call t' r ⟨h, hc⟩ hok he
    exact ⟨h.effect hu he, he.complete hu h hc hok⟩
  · rintro t time ⟨h, hc⟩
    rw [regionTable_runScheduler]
    exact ⟨h.runScheduler time, hc⟩
  · rintro t p now call ⟨h, hc⟩ hn name priority policy rfl haccepted
    have he := @performSyscall_effect uuid4 t p now (.processCreate name priority policy)
    have hcomplete := (h.effect hu he).noOrphan_iff.mp hn
    obtain ⟨priority', policy', hcreate⟩ := @processCreate_of_accepted t p now _ _ _ haccepted
    rw [performSyscall, hcreate] at hcomplete
    exact (h.complete_admit_iff hu hc rfl).mp hcomplete
  · exact ⟨initializeSystem_memoryKept now, initializeSystem_complete now⟩

theorem noOrphan_always_iff_init :
    Run.Always (next Sample.uuid4) (fun s => s.tables.NoOrphan) (initializeSystem Sample.timing.now)
        [Sample.call 1 1 [("name", .str "worker"), ("policy", .int 1)]] ↔
      Run.Guarded (next Sample.uuid4) (Allows CreatesUnmapped) (initializeSystem Sample.timing.now)
        [Sample.call 1 1 [("name", .str "worker"), ("policy", .int 1)]] :=
  noOrphan_always_iff Sample.uuid4_fresh Sample.timing.now _

def mappedEarly : List Event :=
  [Sample.call 1000 12 [("target_id", .str "system_shared"), ("local_address", .int 0)],
    Sample.call 1 1 [("name", .str "worker"), ("policy", .int 1)]]

theorem mapped_region_orphaned : ¬ Run.Always (next Sample.uuid4) (fun s => s.tables.NoOrphan)
    (initializeSystem Sample.timing.now) mappedEarly := by
  intro h
  have howner : ((Sample.run mappedEarly).tables.memoryRegions.get? (Sample.uuid4 0)).map (·.ownerPid) =
      some 1000 := by decide
  have hunlisted : ((Sample.run mappedEarly).tables.processMemory.getD 1000 []).count (Sample.uuid4 0) = 0 := by
    decide
  obtain ⟨region, hr, hp⟩ := Option.map_eq_some_iff.mp howner
  have hlisted := h.last.listed (Sample.uuid4 0) region hr
  rw [hp] at hlisted
  exact absurd (hlisted.symm.trans hunlisted) (by decide)

end CoreSystem

end TrinityOS
