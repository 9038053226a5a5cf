import TrinityOS.Mappings

namespace TrinityOS

open SystemTables

namespace SystemTables

def NoDangling (t : SystemTables) : Prop :=
  ∀ id m sid, t.memoryRegions.get? id = some m → m.source = some (.str sid) →
    ∃ s, t.memoryRegions.get? sid = some s ∧ s.size = m.size

def Removes (t : SystemTables) (p : ℤ) (call : Syscall) (id : String) : Prop :=
  match call with
  | .memoryFree regionId =>
    regionId = .str id ∧ ∃ region, t.memoryRegions.get? id = some region ∧ region.ownerPid = p
  | .processExit _ => p ∈ t.processes ∧ id ∈ t.processMemory.getD p []
  | _ => False

end SystemTables

def RemovesUnmapped (t : SystemTables) (p : ℤ) (call : Syscall) : Prop :=
  ∀ sid, t.Removes p call sid → ∀ id m, t.memoryRegions.get? id = some m → ¬ t.Removes p call id →
    m.source ≠ some (.str sid)

variable {uuid4 : ℕ → String} {t t' : SystemTables} {p : ℤ} {now : ℕ → Float} {call : Syscall}
  {r : Except PyException SyscallResult} {id sid : String} {m s : MemoryRegion}

namespace SystemTables

theorem KnownId.get?_admitProcess (h : t.KnownId uuid4 id) (hu : UuidFresh uuid4) {newProcess : ProcessInfo}
    (hpid : newProcess.processId = t.nextPid) :
    (t.admitProcess newProcess now).memoryRegions.get? id = t.memoryRegions.get? id := by
  have hid : id ∉ (initialItems newProcess.processId now).map Prod.fst := by
    rw [initialItems_keys, hpid]
    exact h.not_mem_segmentIds hu
  have hview := congrArg (fun s => OwnedStore.items s id) (regionTable_admitProcess t newProcess now)
  exact hview.trans (OwnedStore.install_items_of_not_mem hid)

end SystemTables

theorem Effect.region_kept (he : Effect uuid4 t p now call t' r) (hu : UuidFresh uuid4) (hk : t.KnownId uuid4 id)
    (hm : t.memoryRegions.get? id = some m) (hstay : ¬ t.Removes p call id) :
    t'.memoryRegions.get? id = some m := by
  have hne : id ≠ uuid4 t.uuidCount := hk.ne_uuid hu
  cases he with
  | created => exact (hk.get?_admitProcess hu rfl).trans hm
  | exited hp =>
    have hunlisted : id ∉ t.processMemory.getD p [] := fun hlisted => hstay ⟨hp, hlisted⟩
    rw [terminateProcess_memoryRegions, Dict.get?_delAll, if_neg hunlisted, hm]
  | allocated =>
    rw [addMemoryUsage_memoryRegions, registerRegion_memoryRegions]
    exact (Dict.get?_set_of_ne _ _ hne).trans hm
  | freed regionId region hregion howner =>
    have hid : id ≠ regionId := by
      rintro rfl
      exact hstay ⟨rfl, region, hregion, howner⟩
    rw [deleteRegion_memoryRegions, Dict.get?_del_of_ne _ hid, hm]
  | mapped =>
    rw [registerRegion_memoryRegions]
    exact (Dict.get?_set_of_ne _ _ hne).trans hm
  | sent => simpa using hm
  | _ => exact hm

theorem Effect.region_removed (he : Effect uuid4 t p now call t' r) (hr : ¬ Failed r)
    (hremoves : t.Removes p call id) : t'.memoryRegions.get? id = none := by
  cases he with
  | refused _ _ _ _ hf => exact absurd hf hr
  | exited hp => rw [terminateProcess_memoryRegions, Dict.get?_delAll, if_pos hremoves.2]
  | freed regionId =>
    obtain ⟨heq, -⟩ := hremoves
    obtain rfl := PyValue.str.inj heq
    rw [deleteRegion_memoryRegions, Dict.get?_del, if_pos rfl]
  | _ => exact hremoves.elim

theorem Effect.memoryRegions_of_failed (he : Effect uuid4 t p now call t' r) (hr : Failed r) :
    t'.memoryRegions = t.memoryRegions := by
  cases he with
  | refused => rfl
  | strayWait => rfl
  | _ => cases hr

theorem not_failed_of_removes (h : t.Removes p call id) : ¬ Failed (performSyscall uuid4 t p now call).2 := by
  intro hf
  cases call with
  | processExit exitCode =>
    rw [performSyscall, processExit_of_mem exitCode h.1] at hf
    cases hf
  | memoryFree regionId =>
    obtain ⟨rfl, region, hregion, howner⟩ := h
    rw [performSyscall, memoryFree_of_owned hregion howner] at hf
    cases hf
  | _ => exact h.elim

theorem Effect.noDangling (he : Effect uuid4 t p now call t' r) (hu : UuidFresh uuid4) (hk : t.MappingsKept uuid4)
    (h : t.NoDangling) (hok : RemovesUnmapped t p call) : t'.NoDangling := by
  by_cases hf : Failed r
  · intro id m sid hm hs
    rw [he.memoryRegions_of_failed hf] at hm ⊢
    exact h id m sid hm hs
  · intro id m sid hm hs
    have hstay : ¬ t.Removes p call id := by
      intro hremoves
      rw [he.region_removed hf hremoves] at hm
      cases hm
    rcases he.region_origin hm with hold | ⟨-, hnew⟩
    · obtain ⟨s, hmapped, hsize⟩ := h id m sid hold hs
      have hsource : ¬ t.Removes p call sid := fun hremoves => hok sid hremoves id m hold hstay hs
      exact ⟨s, he.region_kept hu (hk.known hmapped) hmapped hsource, hsize⟩
    · obtain ⟨s, hmapping⟩ := hnew sid hs
      obtain ⟨localAddress, address, permissions, rfl, -, -⟩ := hmapping.requested
      have hsource : ¬ t.Removes p (.memoryMap (.str sid) localAddress permissions) sid :=
        fun hremoves => hremoves
      exact ⟨s, he.region_kept hu (hk.known hmapping.stored) hmapping.stored hsource, hmapping.size.symm⟩

theorem removesUnmapped_of_noDangling (hu : UuidFresh uuid4) (hk : t.MappingsKept uuid4)
    (h' : (performSyscall uuid4 t p now call).1.NoDangling) : RemovesUnmapped t p call := by
  intro sid hremoves id m hm hstay hs
  have he := @performSyscall_effect uuid4 t p now call
  have hm' := he.region_kept hu (hk.known hm) hm hstay
  obtain ⟨s, hmapped, -⟩ := h' id m sid hm' hs
  rw [he.region_removed (not_failed_of_removes hremoves) hremoves] at hmapped
  cases hmapped

namespace CoreSystem

theorem noDangling_always_iff (hu : UuidFresh uuid4) (now : ℕ → Float) (es : List Event) :
    Run.Always (next uuid4) (fun s => s.tables.MappingLaw (fun m s => m.size = s.size))
        (initializeSystem now) es ∧
      (Run.Always (next uuid4) (fun s => s.tables.NoDangling) (initializeSystem now) es ↔
        Run.Guarded (next uuid4) (Allows RemovesUnmapped) (initializeSystem now) es) := by
  constructor
  · intro pre _
    refine run_mappingLaw hu (fun t p call m sid s hmapping => ?_) now pre
    exact hmapping.size
  · apply always_iff_allows (J := fun t => t.MappingsKept uuid4 ∧ t.NoDangling)
    · rintro t ⟨-, h⟩
      exact h
    · rintro t p now call t' r ⟨hk, h⟩ hok he
      exact ⟨he.mappingsKept hu hk, he.noDangling hu hk h hok⟩
    · rintro t time ⟨hk, h⟩
      refine ⟨hk.runScheduler time, fun id m sid hm hs => ?_⟩
      rw [runScheduler_memoryRegions] at hm ⊢
      exact h id m sid hm hs
    · rintro t p now call ⟨hk, -⟩ h
      exact removesUnmapped_of_noDangling hu hk h
    · refine ⟨initializeSystem_mappingsKept now, fun id m sid hm hs => ?_⟩
      rw [initializeSystem_source now hm] at hs
      cases hs

def allocated : List Event := [Sample.call 1 10 [("size", .int 4096)],
  Sample.call 1 12 [("target_id", .str (Sample.uuid4 0)), ("local_address", .int 0)]]

theorem noDangling_always_iff_init :
    Run.Always (next Sample.uuid4) (fun s => s.tables.MappingLaw (fun m s => m.size = s.size))
        (initializeSystem Sample.timing.now) allocated ∧
      (Run.Always (next Sample.uuid4) (fun s => s.tables.NoDangling)
          (initializeSystem Sample.timing.now) allocated ↔
        Run.Guarded (next Sample.uuid4) (Allows RemovesUnmapped) (initializeSystem Sample.timing.now) allocated) :=
  noDangling_always_iff Sample.uuid4_fresh Sample.timing.now _

theorem mapping_outlives_region : ¬ Run.Always (next Sample.uuid4) (fun s => s.tables.NoDangling)
    (initializeSystem Sample.timing.now)
    (allocated ++ [Sample.call 1 11 [("region_id", .str (Sample.uuid4 0))]]) := by
  intro h
  have hsource : ((Sample.run (allocated ++ [Sample.call 1 11
      [("region_id", .str (Sample.uuid4 0))]])).tables.memoryRegions.get? (Sample.uuid4 1)).bind (·.source) =
        some (.str (Sample.uuid4 0)) := rfl
  obtain ⟨m, hm, hs⟩ := Option.bind_eq_some_iff.mp hsource
  obtain ⟨s, hfreed, -⟩ := h.last (Sample.uuid4 1) m (Sample.uuid4 0) hm hs
  exact absurd (Dict.mem_of_get? hfreed) (by decide)

end CoreSystem

end TrinityOS
