import TrinityOS.RegionIndex

namespace TrinityOS

open SystemTables

def MemoryRegion.source (m : MemoryRegion) : Option PyValue := m.metadata.get? "mapped_from"

namespace SystemTables

structure Maps (t : SystemTables) (id : String) (m : MemoryRegion) (sid : String) (s : MemoryRegion) : Prop where
  mapping : t.memoryRegions.get? id = some m
  source : m.source = some (.str sid)
  mapped : t.memoryRegions.get? sid = some s

def MappingLaw (R : MemoryRegion → MemoryRegion → Prop) (t : SystemTables) : Prop :=
  ∀ id m sid s, t.Maps id m sid s → R m s

def SourcesKnown (uuid4 : ℕ → String) (t : SystemTables) : Prop :=
  ∀ id m sid, t.memoryRegions.get? id = some m → m.source = some (.str sid) → t.KnownId uuid4 sid

structure MappingsKept (uuid4 : ℕ → String) (t : SystemTables) : Prop where
  memory : t.MemoryKept uuid4
  sources : t.SourcesKnown uuid4

structure MappingOf (t : SystemTables) (p : ℤ) (call : Syscall) (m : MemoryRegion) (targetId : String)
    (target : MemoryRegion) : Prop where
  source : m.source = some (.str targetId)
  stored : t.memoryRegions.get? targetId = some target
  allowed : target.memoryType = .shared ∨ target.ownerPid = p
  owner : m.ownerPid = p
  size : m.size = target.size
  requested : ∃ localAddress address permissions, call = .memoryMap (.str targetId) localAddress permissions ∧
    localAddress.operand = .ok address ∧
    PyValue.member "MemoryPermission" MemoryPermission.ofValue? permissions = .ok m.permissions

def FreshId (uuid4 : ℕ → String) (t : SystemTables) (id : String) : Prop :=
  id = uuid4 t.uuidCount ∨ id ∈ segmentIds t.nextPid

end SystemTables

variable {uuid4 : ℕ → String} {t t' : SystemTables} {p : ℤ} {now : ℕ → Float} {call : Syscall}
  {r : Except PyException SyscallResult} {id sid : String} {m s : MemoryRegion}

namespace SystemTables

theorem KnownId.not_fresh (h : t.KnownId uuid4 id) (hu : UuidFresh uuid4) : ¬ t.FreshId uuid4 id := by
  rintro (he | hm)
  · exact h.ne_uuid hu he
  · exact h.not_mem_segmentIds hu hm

theorem MappingsKept.known (h : t.MappingsKept uuid4) (hs : t.memoryRegions.get? sid = some s) :
    t.KnownId uuid4 sid := h.memory.named.known sid (Dict.mem_of_get? hs)

end SystemTables

theorem Effect.region_origin (he : Effect uuid4 t p now call t' r) (hm : t'.memoryRegions.get? id = some m) :
    t.memoryRegions.get? id = some m ∨
      (t.FreshId uuid4 id ∧ ∀ sid, m.source = some (.str sid) → ∃ s, t.MappingOf p call m sid s) := by
  cases he with
  | created =>
    rcases admitProcess_memoryRegions_get? hm with ⟨hregion, hid⟩ | hold
    · right
      refine ⟨.inr (hid ▸ (initialRegions_spec hregion).2.2), fun sid hs => ?_⟩
      simp only [initialRegions, List.mem_cons, List.not_mem_nil, or_false] at hregion
      rcases hregion with rfl | rfl | rfl <;> cases hs
    · exact .inl hold
  | exited => exact .inl (terminateProcess_memoryRegions_of_get? hm)
  | allocated =>
    rw [addMemoryUsage_memoryRegions, registerRegion_memoryRegions, Dict.get?_set] at hm
    split_ifs at hm with hid
    · right
      refine ⟨.inl hid, fun sid hs => ?_⟩
      obtain rfl := Option.some.inj hm
      cases hs
    · exact .inl hm
  | freed =>
    rw [deleteRegion_memoryRegions, Dict.get?_del] at hm
    split_ifs at hm
    exact .inl hm
  | mapped targetId target address permissions' htarget hallowed haddress hperm =>
    rw [registerRegion_memoryRegions] at hm
    change (t.memoryRegions.set (uuid4 t.uuidCount) _).get? id = some m at hm
    by_cases hid : id = uuid4 t.uuidCount
    · right
      refine ⟨.inl hid, fun sid hs => ⟨target, ?_⟩⟩
      rw [hid, Dict.get?_set_self] at hm
      obtain rfl := Option.some.inj hm
      obtain rfl : targetId = sid := PyValue.str.inj (Option.some.inj hs)
      exact ⟨rfl, htarget, hallowed, rfl, rfl, _, _, _, rfl, haddress, hperm⟩
    · rw [Dict.get?_set_of_ne _ _ hid] at hm
      exact .inl hm
  | sent => exact .inl (by simpa using hm)
  | _ => exact .inl hm

theorem Effect.sourcesKnown (he : Effect uuid4 t p now call t' r) (h : t.MappingsKept uuid4) :
    t'.SourcesKnown uuid4 := by
  intro id m sid hm hs
  have hknown : t.KnownId uuid4 sid := by
    rcases he.region_origin hm with hold | ⟨-, hnew⟩
    · exact h.sources id m sid hold hs
    · obtain ⟨s, hmapping⟩ := hnew sid hs
      exact h.known hmapping.stored
  exact hknown.mono he.nextPid_le he.uuidCount_le

theorem Effect.mappingsKept (he : Effect uuid4 t p now call t' r) (hu : UuidFresh uuid4)
    (h : t.MappingsKept uuid4) : t'.MappingsKept uuid4 :=
  ⟨h.memory.effect hu he, he.sourcesKnown h⟩

theorem Effect.mappingLaw {R : MemoryRegion → MemoryRegion → Prop} (he : Effect uuid4 t p now call t' r)
    (hu : UuidFresh uuid4) (hk : t.MappingsKept uuid4) (h : t.MappingLaw R)
    (hnew : ∀ m sid s, t.MappingOf p call m sid s → R m s) : t'.MappingLaw R := by
  intro id m sid s hmaps
  have hold {region : MemoryRegion} (hknown : t.KnownId uuid4 sid)
      (hs : t'.memoryRegions.get? sid = some region) : t.memoryRegions.get? sid = some region := by
    rcases he.region_origin hs with hold | ⟨hfresh, -⟩
    · exact hold
    · exact absurd hfresh (hknown.not_fresh hu)
  rcases he.region_origin hmaps.mapping with hm | ⟨-, hmapping⟩
  · have hs := hold (hk.sources id m sid hm hmaps.source) hmaps.mapped
    exact h id m sid s ⟨hm, hmaps.source, hs⟩
  · obtain ⟨s', hs'⟩ := hmapping sid hmaps.source
    have hs := hold (hk.known hs'.stored) hmaps.mapped
    rw [hs'.stored] at hs
    obtain rfl := Option.some.inj hs
    exact hnew m sid s' hs'

namespace SystemTables

theorem MappingsKept.runScheduler (h : t.MappingsKept uuid4) (time : Float) :
    (t.runScheduler time).MappingsKept uuid4 := by
  refine ⟨h.memory.runScheduler time, ?_⟩
  intro id m sid hm hs
  rw [runScheduler_memoryRegions] at hm
  apply (h.sources id m sid hm hs).mono
  · rw [runScheduler_nextPid]
  · rw [runScheduler_uuidCount]

theorem MappingLaw.runScheduler {R : MemoryRegion → MemoryRegion → Prop} (h : t.MappingLaw R) (time : Float) :
    (t.runScheduler time).MappingLaw R := by
  rintro id m sid s ⟨hm, hs, hmapped⟩
  rw [runScheduler_memoryRegions] at hm hmapped
  exact h id m sid s ⟨hm, hs, hmapped⟩

theorem initializeSystem_source (now : ℕ → Float)
    (hm : (CoreSystem.initializeSystem now).tables.memoryRegions.get? id = some m) : m.source = none := by
  rcases initializeSystem_memoryRegions hm with ⟨-, rfl⟩ | ⟨-, rfl⟩ <;> rfl

theorem initializeSystem_mappingsKept (now : ℕ → Float) :
    (CoreSystem.initializeSystem now).tables.MappingsKept uuid4 := by
  refine ⟨initializeSystem_memoryKept now, ?_⟩
  intro id m sid hm hs
  rw [initializeSystem_source now hm] at hs
  cases hs

theorem initializeSystem_mappingLaw {R : MemoryRegion → MemoryRegion → Prop} (now : ℕ → Float) :
    (CoreSystem.initializeSystem now).tables.MappingLaw R := by
  rintro id m sid s ⟨hm, hs, -⟩
  rw [initializeSystem_source now hm] at hs
  cases hs

end SystemTables

namespace CoreSystem

theorem run_mappingLaw {R : MemoryRegion → MemoryRegion → Prop} (hu : UuidFresh uuid4)
    (hnew : ∀ t p call m sid s, SystemTables.MappingOf t p call m sid s → R m s)
    (now : ℕ → Float) (es : List Event) : (run uuid4 now es).tables.MappingLaw R := by
  suffices h : (run uuid4 now es).tables.MappingsKept uuid4 ∧ (run uuid4 now es).tables.MappingLaw R from h.2
  refine run_tables (P := fun t => t.MappingsKept uuid4 ∧ t.MappingLaw R) ?_ ?_ ?_ now es
  · intro now
    exact ⟨initializeSystem_mappingsKept now, initializeSystem_mappingLaw now⟩
  · rintro t p now call t' r ⟨hk, h⟩ he
    exact ⟨he.mappingsKept hu hk, he.mappingLaw hu hk h (hnew t p call)⟩
  · rintro t time ⟨hk, h⟩
    exact ⟨hk.runScheduler time, h.runScheduler time⟩

end CoreSystem

end TrinityOS
