import TrinityOS.Mappings

namespace TrinityOS

open SystemTables

def MemoryPermission.value : MemoryPermission → ℕ
  | .none => 0
  | .read => 1
  | .write => 2
  | .readWrite => 3
  | .execute => 4
  | .readExecute => 5
  | .writeExecute => 6
  | .readWriteExecute => 7

def MemoryPermission.Within (a b : MemoryPermission) : Prop :=
  ∀ bit, a.value.testBit bit = true → b.value.testBit bit = true

theorem MemoryPermission.Within.trans {a b c : MemoryPermission} (h : a.Within b) (h' : b.Within c) :
    a.Within c := fun bit hbit => h' bit (h bit hbit)

namespace SystemTables

def PrivateConfined (t : SystemTables) : Prop :=
  ∀ id m sid s, t.Maps id m sid s → s.memoryType ≠ .shared →
    m.ownerPid = s.ownerPid ∧ ∀ p, id ∈ t.processMemory.getD p [] → p = s.ownerPid

def KernelLocked (t : SystemTables) : Prop :=
  ∀ s, t.memoryRegions.get? "kernel_main" = some s → s.memoryType = .locked ∧ s.ownerPid = 0

def DirectlyMaps (t : SystemTables) (id sid : String) : Prop := ∃ m s, t.Maps id m sid s

def PermissionsContained (t : SystemTables) : Prop :=
  ∀ id sid, Relation.TransGen t.DirectlyMaps id sid → ∀ m s, t.memoryRegions.get? id = some m →
    t.memoryRegions.get? sid = some s → m.permissions.Within s.permissions

end SystemTables

def MapsWithin (t : SystemTables) (p : ℤ) (call : Syscall) : Prop :=
  ∀ sid localAddress permissions, call = .memoryMap (.str sid) localAddress permissions →
    ∀ s address permissions', t.memoryRegions.get? sid = some s →
      (s.memoryType = .shared ∨ s.ownerPid = p) → localAddress.operand = .ok address →
      PyValue.member "MemoryPermission" MemoryPermission.ofValue? permissions = .ok permissions' →
      permissions'.Within s.permissions

variable {uuid4 : ℕ → String} {t t' : SystemTables} {p : ℤ} {now : ℕ → Float} {call : Syscall}
  {r : Except PyException SyscallResult}

namespace SystemTables

theorem permissionsContained_iff :
    t.PermissionsContained ↔ t.MappingLaw (fun m s => m.permissions.Within s.permissions) := by
  constructor
  · intro h id m sid s hmaps
    exact h id sid (.single ⟨m, s, hmaps⟩) m s hmaps.mapping hmaps.mapped
  · intro h id sid hchain
    induction hchain with
    | single hdirect =>
      intro m s hm hs
      obtain ⟨m', s', hmaps⟩ := hdirect
      obtain rfl := Option.some.inj (hm.symm.trans hmaps.mapping)
      obtain rfl := Option.some.inj (hs.symm.trans hmaps.mapped)
      exact h _ _ _ _ hmaps
    | tail _ hdirect ih =>
      intro m s hm hs
      obtain ⟨m', s', hmaps⟩ := hdirect
      obtain rfl := Option.some.inj (hs.symm.trans hmaps.mapped)
      have hfront := ih m m' hm hmaps.mapping
      exact hfront.trans (h _ _ _ _ hmaps)

theorem KernelLocked.effect (h : t.KernelLocked) (hu : UuidFresh uuid4) (he : Effect uuid4 t p now call t' r) :
    t'.KernelLocked := by
  intro s hs
  rcases he.region_origin hs with hold | ⟨hfresh, -⟩
  · exact h s hold
  · have hknown : t.KnownId uuid4 "kernel_main" := .inr (.inl (by simp))
    exact absurd hfresh (hknown.not_fresh hu)

end SystemTables

namespace CoreSystem

theorem run_kernelLocked (hu : UuidFresh uuid4) (now : ℕ → Float) (es : List Event) :
    (run uuid4 now es).tables.KernelLocked := by
  apply run_tables
  · intro now s hs
    rcases initializeSystem_memoryRegions hs with ⟨-, rfl⟩ | ⟨hne, -⟩
    · exact ⟨rfl, rfl⟩
    · exact absurd hne (by decide)
  · intro t p now call t' r h he
    exact h.effect hu he
  · intro t time h s hs
    rw [runScheduler_memoryRegions] at hs
    exact h s hs

theorem private_memory_confined (hu : UuidFresh uuid4) (now : ℕ → Float) (es : List Event) :
    (run uuid4 now es).tables.PrivateConfined ∧
      ∀ id m s, (run uuid4 now es).tables.Maps id m "kernel_main" s →
        m.ownerPid = 0 ∧ ∀ p, id ∈ (run uuid4 now es).tables.processMemory.getD p [] → p = 0 := by
  have hlaw : (run uuid4 now es).tables.MappingLaw
      (fun m s => s.memoryType ≠ .shared → m.ownerPid = s.ownerPid) := by
    refine run_mappingLaw hu (fun t p call m sid s hmapping hprivate => ?_) now es
    rw [hmapping.owner]
    exact (hmapping.allowed.resolve_left hprivate).symm
  have hconfined : (run uuid4 now es).tables.PrivateConfined := by
    intro id m sid s hmaps hprivate
    have howner := hlaw id m sid s hmaps hprivate
    refine ⟨howner, fun p hlisted => ?_⟩
    obtain ⟨m', hm', hp⟩ := (run_memoryKept hu now es).sound.owned p id hlisted
    obtain rfl := Option.some.inj (hm'.symm.trans hmaps.mapping)
    rw [← howner, ← hp]
  refine ⟨hconfined, ?_⟩
  intro id m s hmaps
  obtain ⟨hlocked, hkernel⟩ := run_kernelLocked hu now es s hmaps.mapped
  have hprivate : s.memoryType ≠ .shared := by
    rw [hlocked]
    decide
  rw [← hkernel]
  exact hconfined id m "kernel_main" s hmaps hprivate

theorem private_memory_confined_kernel :
    (Sample.run [Sample.call 0 12 [("target_id", .str "kernel_main"),
      ("local_address", .int 0)]]).tables.PrivateConfined :=
  (private_memory_confined Sample.uuid4_fresh Sample.timing.now _).1

theorem permissionsContained_always_iff (hu : UuidFresh uuid4) (now : ℕ → Float) (es : List Event) :
    Run.Always (next uuid4) (fun s => s.tables.PermissionsContained) (initializeSystem now) es ↔
      Run.Guarded (next uuid4) (Allows MapsWithin) (initializeSystem now) es := by
  apply always_iff_allows (J := fun t => t.MappingsKept uuid4 ∧ t.PermissionsContained)
  · rintro t ⟨-, h⟩
    exact h
  · rintro t p now call t' r ⟨hk, h⟩ hok he
    refine ⟨he.mappingsKept hu hk, ?_⟩
    rw [permissionsContained_iff] at h ⊢
    apply he.mappingLaw hu hk h
    intro m sid s hmapping
    obtain ⟨localAddress, address, permissions, rfl, haddress, hperm⟩ := hmapping.requested
    exact hok sid localAddress permissions rfl s address m.permissions hmapping.stored hmapping.allowed haddress hperm
  · rintro t time ⟨hk, h⟩
    refine ⟨hk.runScheduler time, ?_⟩
    rw [permissionsContained_iff] at h ⊢
    exact h.runScheduler time
  · rintro t p now call ⟨hk, -⟩ h sid localAddress permissions rfl s address permissions' hs hallowed haddress hperm
    rw [performSyscall, memoryMap_of_allowed hs hallowed haddress hperm, permissionsContained_iff] at h
    have hne : sid ≠ uuid4 t.uuidCount := (hk.known hs).ne_uuid hu
    refine h (uuid4 t.uuidCount) _ sid s ⟨Dict.get?_set_self _ _ _, rfl, ?_⟩
    rw [registerRegion_memoryRegions]
    exact (Dict.get?_set_of_ne _ _ hne).trans hs
  · refine ⟨initializeSystem_mappingsKept now, ?_⟩
    rw [permissionsContained_iff]
    exact initializeSystem_mappingLaw now

theorem permissionsContained_always_iff_init :
    Run.Always (next Sample.uuid4) (fun s => s.tables.PermissionsContained) (initializeSystem Sample.timing.now)
        [Sample.call 1 12 [("target_id", .str "system_shared"), ("local_address", .int 0)]] ↔
      Run.Guarded (next Sample.uuid4) (Allows MapsWithin) (initializeSystem Sample.timing.now)
        [Sample.call 1 12 [("target_id", .str "system_shared"), ("local_address", .int 0)]] :=
  permissionsContained_always_iff Sample.uuid4_fresh Sample.timing.now _

theorem execute_right_gained : ¬ Run.Always (next Sample.uuid4) (fun s => s.tables.PermissionsContained)
    (initializeSystem Sample.timing.now)
    [Sample.call 1 12 [("target_id", .str "system_shared"), ("local_address", .int 0),
      ("permissions", .int 7)]] := by
  intro h
  have hlaw := permissionsContained_iff.mp h.last
  have hwithin := hlaw (Sample.uuid4 0) _ "system_shared" _ ⟨rfl, rfl, rfl⟩
  exact absurd (hwithin 2 (by decide)) (by decide)

end CoreSystem

end TrinityOS
