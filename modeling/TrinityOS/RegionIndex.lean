import TrinityOS.RegionTable

namespace TrinityOS

open SystemTables
open OwnedStore (Sound Complete)

namespace SystemTables

structure MemoryKept (uuid4 : ℕ → String) (t : SystemTables) : Prop where
  pids : t.PidsBelow
  named : t.RegionsNamed uuid4
  sound : Sound MemoryRegion.ownerPid t.regionTable

def RegionIndexSound (t : SystemTables) : Prop :=
  ∀ p ids, t.processMemory.get? p = some ids → ids.Nodup ∧
    ∀ id ∈ ids, ∃ region, t.memoryRegions.get? id = some region ∧ region.id = id ∧ region.ownerPid = p

variable {uuid4 : ℕ → String} {t t' : SystemTables} {p : ℤ} {now : ℕ → Float} {call : Syscall}
  {r : Except PyException SyscallResult}

theorem MemoryKept.effect (h : t.MemoryKept uuid4) (hu : UuidFresh uuid4)
    (he : Effect uuid4 t p now call t' r) : t'.MemoryKept uuid4 := by
  refine ⟨he.pidsBelow h.pids, he.regionsNamed h.named, ?_⟩
  apply h.sound.step
  exact he.regionTable_step hu h.named

theorem MemoryKept.runScheduler (h : t.MemoryKept uuid4) (time : Float) :
    (t.runScheduler time).MemoryKept uuid4 := by
  refine ⟨runScheduler_pidsBelow h.pids time, h.named.mono ?_ ?_ ?_, ?_⟩
  · intro id region hr
    rwa [runScheduler_memoryRegions] at hr
  · rw [runScheduler_nextPid]
  · rw [runScheduler_uuidCount]
  · rw [regionTable_runScheduler]
    exact h.sound

theorem initializeSystem_regionTable (now : ℕ → Float) :
    (CoreSystem.initializeSystem now).tables.regionTable =
      OwnedStore.acquire 0 "system_shared" (CoreSystem.sharedRegion (now 3))
        (OwnedStore.acquire 0 "kernel_main" (CoreSystem.kernelRegion (now 2)) .empty) := by
  rw [CoreSystem.initializeSystem, CoreSystem.initMemory, regionTable_registerRegion,
    regionTable_registerRegion]
  rfl

theorem initializeSystem_memoryRegions {id : String} {region : MemoryRegion}
    (h : (CoreSystem.initializeSystem now).tables.memoryRegions.get? id = some region) :
    (id = "kernel_main" ∧ region = CoreSystem.kernelRegion (now 2)) ∨
      (id = "system_shared" ∧ region = CoreSystem.sharedRegion (now 3)) := by
  have hitems := congrArg (fun s => OwnedStore.items s id) (initializeSystem_regionTable now)
  have hr : (OwnedStore.acquire 0 "system_shared" (CoreSystem.sharedRegion (now 3))
      (OwnedStore.acquire (0 : ℤ) "kernel_main" (CoreSystem.kernelRegion (now 2)) .empty)).items id = some region :=
    hitems.symm.trans h
  rw [OwnedStore.items_acquire, OwnedStore.items_acquire] at hr
  split_ifs at hr with hs hk
  · exact .inr ⟨hs, (Option.some.inj hr).symm⟩
  · exact .inl ⟨hk, (Option.some.inj hr).symm⟩
  · cases hr

theorem initializeSystem_sound (now : ℕ → Float) :
    Sound MemoryRegion.ownerPid (CoreSystem.initializeSystem now).tables.regionTable := by
  rw [initializeSystem_regionTable]
  apply Sound.step _ (.acquire "system_shared" _ rfl rfl)
  exact Sound.step .empty (.acquire "kernel_main" _ rfl rfl)

theorem initializeSystem_complete (now : ℕ → Float) :
    Complete MemoryRegion.ownerPid (CoreSystem.initializeSystem now).tables.regionTable := by
  rw [initializeSystem_regionTable]
  apply Complete.acquire _ rfl
  exact Complete.acquire .empty rfl

theorem initializeSystem_regionsNamed (now : ℕ → Float) :
    (CoreSystem.initializeSystem now).tables.RegionsNamed uuid4 where
  id_eq id region hr := by
    rcases initializeSystem_memoryRegions hr with ⟨rfl, rfl⟩ | ⟨rfl, rfl⟩ <;> rfl
  size_pos id region hr := by
    rcases initializeSystem_memoryRegions hr with ⟨-, rfl⟩ | ⟨-, rfl⟩
    · norm_num [CoreSystem.kernelRegion]
    · norm_num [CoreSystem.sharedRegion]
  known id hm := by
    obtain ⟨region, hr⟩ := Dict.mem_iff.mp hm
    rcases initializeSystem_memoryRegions hr with ⟨rfl, -⟩ | ⟨rfl, -⟩
    · exact .inr (.inl (by decide))
    · exact .inr (.inl (by decide))

theorem initializeSystem_memoryKept (now : ℕ → Float) :
    (CoreSystem.initializeSystem now).tables.MemoryKept uuid4 :=
  ⟨initializeSystem_pidsBelow now, initializeSystem_regionsNamed now, initializeSystem_sound now⟩

theorem findStart_ok {regions : Dict String MemoryRegion} {ids : List String} (h : ∀ id ∈ ids, id ∈ regions)
    (start : ℤ) : ∃ address, findStart regions start ids = .ok address := by
  induction ids generalizing start with
  | nil => exact ⟨start, rfl⟩
  | cons id ids ih =>
    obtain ⟨region, hr⟩ := Dict.mem_iff.mp (h id List.mem_cons_self)
    rw [findStart, hr]
    exact ih (fun j hj => h j (List.mem_cons_of_mem id hj)) _

theorem MemoryKept.findStart_ok (h : t.MemoryKept uuid4) (p start : ℤ) :
    ∃ address, findStart t.memoryRegions start (t.processMemory.getD p []) = .ok address := by
  apply SystemTables.findStart_ok
  intro id hid
  obtain ⟨region, hr, -⟩ := h.sound.owned p id hid
  exact Dict.mem_of_get? hr

theorem MemoryKept.regionIndexSound (h : t.MemoryKept uuid4) : t.RegionIndexSound := by
  intro p ids hp
  have hheld : t.regionTable.held p = ids := Dict.getD_of_get? hp []
  constructor
  · rw [← hheld]
    exact h.sound.nodup p
  · intro id hid
    rw [← hheld] at hid
    obtain ⟨region, hr, howner⟩ := h.sound.owned p id hid
    exact ⟨region, hr, h.named.id_eq id region hr, howner⟩

end SystemTables

variable {uuid4 : ℕ → String} {t t' : SystemTables} {p : ℤ} {now : ℕ → Float} {call : Syscall}
  {r : Except PyException SyscallResult}

theorem memoryAllocate_ne_keyError (h : t.MemoryKept uuid4) (size permissions key : PyValue) :
    (syscallMemoryAllocate uuid4 t p size permissions now).2 ≠ .error (.keyError key) := by
  obtain ⟨address, hstart⟩ := h.findStart_ok p 0x20000000
  unfold syscallMemoryAllocate
  split
  · intro he
    cases he
  · cases hsize : size.operand with
    | error e =>
      rintro ⟨⟩
      cases size <;> cases hsize
    | ok n =>
      dsimp only
      split
      · intro he
        cases he
      · simp only [drawUuid, hstart]
        cases hperm : PyValue.member "MemoryPermission" MemoryPermission.ofValue? permissions with
        | ok permissions' =>
          intro he
          cases he
        | error e =>
          rintro ⟨⟩
          unfold PyValue.member at hperm
          split at hperm
          · split at hperm <;> cases hperm
          · cases hperm

namespace CoreSystem

theorem run_memoryKept (hu : UuidFresh uuid4) (now : ℕ → Float) (es : List Event) :
    (run uuid4 now es).tables.MemoryKept uuid4 := by
  apply run_tables
  · exact initializeSystem_memoryKept
  · intro t p now call t' r h he
    exact h.effect hu he
  · intro t time h
    exact h.runScheduler time

theorem region_index_sound (hu : UuidFresh uuid4) (now : ℕ → Float) (es : List Event) :
    (run uuid4 now es).tables.RegionIndexSound ∧
    (∀ p size permissions now' key,
      (syscallMemoryAllocate uuid4 (run uuid4 now es).tables p size permissions now').2 ≠ .error (.keyError key)) ∧
    (∀ p call now', ((∃ regionId, call = .memoryFree regionId) ∨ ∃ exitCode, call = .processExit exitCode) →
      ∀ id region, (run uuid4 now es).tables.memoryRegions.get? id = some region → region.ownerPid ≠ p →
        (performSyscall uuid4 (run uuid4 now es).tables p now' call).1.memoryRegions.get? id = some region) := by
  have hk := run_memoryKept hu now es
  refine ⟨hk.regionIndexSound, ?_, ?_⟩
  · intro p size permissions now' key
    exact memoryAllocate_ne_keyError hk size permissions key
  · intro p call now' hcall id region hr hp
    have hstep := (@performSyscall_effect uuid4 (run uuid4 now es).tables p now' call).regionTable_step hu hk.named
    have hholder : call.holder (run uuid4 now es).tables p = p := by
      rcases hcall with ⟨_, rfl⟩ | ⟨_, rfl⟩ <;> rfl
    rw [hholder] at hstep
    exact ((hstep.frame hk.sound hp).2 id region rfl).mpr hr

theorem region_index_sound_init :
    (Sample.run [Sample.call 1 10 [("size", .int 4096)],
      Sample.call 1 12 [("target_id", .str (Sample.uuid4 0)),
        ("local_address", .int 0)]]).tables.RegionIndexSound :=
  (region_index_sound Sample.uuid4_fresh Sample.timing.now _).1

end CoreSystem

end TrinityOS
