import TrinityOS.Orphans
import TrinityOS.Segments

namespace TrinityOS

open SystemTables
open OwnedStore (Complete)

def MemoryRegion.stop (region : MemoryRegion) : ℤ := region.start + region.size

def MemoryRegion.range (region : MemoryRegion) : Set ℤ := Set.Ico region.start region.stop

namespace SystemTables

variable {t : SystemTables} {p : ℤ}

structure FreeRange (t : SystemTables) (p address size : ℤ) : Prop where
  base_le : 0x20000000 ≤ address
  disjoint : ∀ id ∈ t.processMemory.getD p [], ∀ region, t.memoryRegions.get? id = some region →
    Disjoint (Set.Ico address (address + size)) region.range

structure RegionsDisjoint (t : SystemTables) : Prop where
  listed : ∀ p, ((t.processMemory.getD p []).filterMap t.memoryRegions.get?).Pairwise
    (fun a b => Disjoint a.range b.range)
  owned : ∀ id id' region region', id ≠ id' → t.memoryRegions.get? id = some region →
    t.memoryRegions.get? id' = some region' → region.ownerPid = region'.ownerPid →
      Disjoint region.range region'.range

theorem findStart_le {regions : Dict String MemoryRegion} {ids : List String} {start address : ℤ}
    (h : findStart regions start ids = .ok address) :
    start ≤ address ∧ ∀ id ∈ ids, ∀ region, regions.get? id = some region → region.stop ≤ address := by
  induction ids generalizing start with
  | nil =>
    cases h
    exact ⟨Int.le_refl _, fun id hid => nomatch hid⟩
  | cons id ids ih =>
    rw [findStart] at h
    cases hr : regions.get? id with
    | none =>
      rw [hr] at h
      cases h
    | some region =>
      rw [hr] at h
      obtain ⟨hstart, hids⟩ := ih h
      have hmax : start ≤ address ∧ region.stop ≤ address := by
        rw [MemoryRegion.stop]
        split_ifs at hstart <;> omega
      refine ⟨hmax.1, ?_⟩
      intro id' hid' region' hr'
      rcases List.mem_cons.mp hid' with rfl | hid'
      · obtain rfl := Option.some.inj (hr.symm.trans hr')
        exact hmax.2
      · exact hids id' hid' region' hr'

theorem findStart_freeRange {address : ℤ} (size : ℤ)
    (h : findStart t.memoryRegions 0x20000000 (t.processMemory.getD p []) = .ok address) :
    t.FreeRange p address size := by
  obtain ⟨hbase, hids⟩ := findStart_le h
  refine ⟨hbase, ?_⟩
  intro id hid region hr
  have hstop := hids id hid region hr
  rw [Set.disjoint_left]
  intro n hn hn'
  have hlow := hn.1
  have hhigh := hn'.2
  omega

def Laid (t : SystemTables) (p : ℤ) : Prop :=
  ∃ hi, LaidOut MemoryRegion.start MemoryRegion.stop 0x1000 hi (t.regionTable.contents p)

structure Apart (t : SystemTables) : Prop where
  housed : ∀ p, p ∉ t.processes → t.regionTable.held p = []
  complete : Complete MemoryRegion.ownerPid t.regionTable
  laid : ∀ p, t.Laid p

theorem Laid.pairwise (h : t.Laid p) :
    (t.regionTable.contents p).Pairwise (fun a b => Disjoint a.range b.range) := by
  obtain ⟨hi, h⟩ := h
  exact h.disjoint

theorem Apart.regionsDisjoint (h : t.Apart) : t.RegionsDisjoint := by
  constructor
  · intro p
    exact (h.laid p).pairwise
  · intro id id' region region' hne hr hr' howner
    have hpairs := List.pairwise_filterMap.mp (h.laid region.ownerPid).pairwise
    have hid := h.complete id region hr
    have hid' := h.complete id' region' hr'
    rw [← howner] at hid'
    have hsymm : Std.Symm fun id id' => ∀ a, t.regionTable.items id = some a →
        ∀ b, t.regionTable.items id' = some b → Disjoint a.range b.range := by
      constructor
      intro i j hij a ha b hb
      exact (hij b hb a ha).symm
    exact hpairs.forall hid hid' hne region hr region' hr'

theorem initialRegions_laidOut (pid : ℤ) (now : ℕ → Float) :
    LaidOut MemoryRegion.start MemoryRegion.stop 0x1000 0x22200000 (initialRegions pid now) := by
  constructor
  · simp [initialRegions, MemoryRegion.stop]
  all_goals
    simp [initialRegions, MemoryRegion.stop]

theorem contents_admitProcess {newProcess : ProcessInfo} (hpid : newProcess.processId = p) (now : ℕ → Float) :
    (t.admitProcess newProcess now).regionTable.contents p = initialRegions p now := by
  subst hpid
  rw [regionTable_admitProcess, OwnedStore.contents_install (initialItems_nodup _ now), initialItems,
    List.map_map]
  exact List.map_id _

theorem contents_le_of_findStart {start address : ℤ}
    (h : findStart t.memoryRegions start (t.processMemory.getD p []) = .ok address) :
    ∀ region ∈ t.regionTable.contents p, region.stop ≤ address := by
  intro region hregion
  obtain ⟨id, hid, hr⟩ := OwnedStore.mem_contents.mp hregion
  exact (findStart_le h).2 id hid region hr

theorem Laid.register {region : MemoryRegion} (h : t.Laid p) (hbase : 0x1000 ≤ region.start)
    (habove : ∀ old ∈ t.regionTable.contents p, old.stop ≤ region.start) (hsize : 0 < region.size)
    (hsound : OwnedStore.Sound MemoryRegion.ownerPid t.regionTable)
    (hfresh : t.memoryRegions.get? region.id = none) : (t.registerRegion p region).Laid p := by
  obtain ⟨hi, h⟩ := h
  have hbelow : LaidOut MemoryRegion.start MemoryRegion.stop 0x1000 region.start (t.regionTable.contents p) :=
    ⟨h.ordered, h.nonempty, h.lower, habove⟩
  refine ⟨region.stop, ?_⟩
  rw [regionTable_registerRegion, OwnedStore.contents_acquire hsound hfresh]
  apply hbelow.concat hbase (Int.le_refl _)
  rw [MemoryRegion.stop]
  omega

end SystemTables

variable {uuid4 : ℕ → String} {t t' : SystemTables} {p : ℤ} {now : ℕ → Float} {call : Syscall}
  {r : Except PyException SyscallResult}

theorem Effect.allocates {size permissions : PyValue}
    (h : Effect uuid4 t p now (.memoryAllocate size permissions) t' r) (hr : ¬ Failed r) :
    ∃ n address, size.operand = .ok n ∧
      r = .ok (.ok (.region (uuid4 t.uuidCount) address n.val)) ∧ t.FreeRange p address n.val := by
  cases h with
  | refused _ _ _ _ hf => exact absurd hf hr
  | allocated n address _ _ hsize _ hstart => exact ⟨n, address, hsize, rfl, findStart_freeRange n.val hstart⟩

theorem Effect.housed (he : Effect uuid4 t p now call t' r) (hmap : call.number ≠ 12)
    (h : ∀ q, q ∉ t.processes → t.regionTable.held q = []) (q : ℤ) (hq : q ∉ t'.processes) :
    t'.regionTable.held q = [] := by
  cases he with
  | created =>
    rw [admitProcess_mem, not_or] at hq
    rw [regionTable_admitProcess, OwnedStore.held_install, if_neg hq.1]
    exact h q hq.2
  | exited =>
    rw [terminateProcess_mem] at hq
    rw [regionTable_terminateProcess, OwnedStore.held_dispose, h q hq, ite_self]
  | allocated n start permissions' hp =>
    rw [addMemoryUsage_mem] at hq
    have hqp : q ≠ p := fun he => hq (he ▸ hp)
    rw [regionTable_addMemoryUsage, regionTable_registerRegion, OwnedStore.held_acquire, if_neg hqp]
    exact h q hq
  | freed =>
    rw [deleteRegion_mem] at hq
    rw [regionTable_deleteRegion, OwnedStore.held_release]
    split_ifs with hqp
    · rw [← hqp, h q hq, List.erase_nil]
    · exact h q hq
  | mapped => exact absurd rfl hmap
  | sent =>
    rw [wakeTarget_mem] at hq
    rw [regionTable_wakeTarget]
    exact h q hq
  | waiting | listening =>
    rw [parkProcess_mem] at hq
    exact h q hq
  | _ => exact h q hq

theorem Effect.laid_holder (he : Effect uuid4 t p now call t' r) (hu : UuidFresh uuid4)
    (hk : t.MemoryKept uuid4) (hmap : call.number ≠ 12) (h : t.Laid (call.holder t p)) :
    t'.Laid (call.holder t p) := by
  cases he with
  | created =>
    refine ⟨0x22200000, ?_⟩
    rw [Syscall.holder, contents_admitProcess]
    · exact initialRegions_laidOut t.nextPid _
    · rfl
  | exited =>
    refine ⟨0, ?_⟩
    rw [regionTable_terminateProcess]
    change LaidOut _ _ _ _ ((t.regionTable.dispose p).contents p)
    rw [OwnedStore.contents_dispose]
    exact .nil
  | allocated n start permissions' _ _ hpos hstart =>
    have hbase := (findStart_le hstart).1
    change (t.drawUuid.registerRegion p _).Laid p
    apply Laid.register (t := t.drawUuid) h
    · change 0x1000 ≤ start
      omega
    · exact contents_le_of_findStart hstart
    · exact hpos
    · exact hk.sound
    · exact hk.named.uuid_fresh hu
  | freed =>
    obtain ⟨hi, h⟩ := h
    refine ⟨hi, ?_⟩
    rw [regionTable_deleteRegion]
    exact h.sublist (OwnedStore.contents_release hk.sound)
  | mapped => exact absurd rfl hmap
  | sent =>
    rw [Laid, regionTable_wakeTarget]
    exact h
  | _ => exact h

theorem Effect.apart (he : Effect uuid4 t p now call t' r) (hu : UuidFresh uuid4) (hk : t.MemoryKept uuid4)
    (hmap : call.number ≠ 12) (h : t.Apart) : t'.Apart := by
  constructor
  · exact he.housed hmap h.housed
  · apply he.complete hu hk h.complete
    -- the pid about to be given holds nothing yet
    intro _ _ _ _ _
    exact h.housed t.nextPid hk.pids.fresh
  · intro q
    by_cases hq : q = call.holder t p
    · rw [hq]
      exact he.laid_holder hu hk hmap (h.laid _)
    · rw [Laid, (he.regionTable_step hu hk.named).contents_of_ne hk.sound hq]
      exact h.laid q

theorem initializeSystem_apart (now : ℕ → Float) : (CoreSystem.initializeSystem now).tables.Apart := by
  have hheld (q : ℤ) : (CoreSystem.initializeSystem now).tables.regionTable.held q =
      if q = 0 then ["kernel_main", "system_shared"] else [] := by
    rw [initializeSystem_regionTable]
    by_cases hq : q = 0 <;> simp [hq, OwnedStore.empty]
  constructor
  · intro q hq
    rw [hheld, if_neg]
    rintro rfl
    apply hq
    rw [Dict.mem_def]
    rfl
  · exact initializeSystem_complete now
  · intro q
    refine ⟨0x12000000, ?_⟩
    by_cases hq : q = 0
    · have hcontents : (CoreSystem.initializeSystem now).tables.regionTable.contents q =
          [CoreSystem.kernelRegion (now 2), CoreSystem.sharedRegion (now 3)] := by
        rw [OwnedStore.contents, hheld, if_pos hq, initializeSystem_regionTable]
        rfl
      rw [hcontents]
      constructor <;> simp [CoreSystem.kernelRegion, CoreSystem.sharedRegion, MemoryRegion.stop]
    · rw [OwnedStore.contents, hheld, if_neg hq]
      exact .nil

namespace CoreSystem

theorem regionsDisjoint_always (hu : UuidFresh uuid4) (now : ℕ → Float) {es : List Event}
    (hes : ∀ e ∈ es, ∀ p, ¬ e.Calls p 12) :
    Run.Always (next uuid4) (fun s => s.tables.RegionsDisjoint) (initializeSystem now) es := by
  have hguarded : Run.Guarded (next uuid4) (Allows fun _ _ call => call.number ≠ 12) (initializeSystem now) es := by
    apply Run.guarded_of_forall
    rintro (⟨p, n, args, timing⟩ | time) he s
    · intro call hbound hnumber
      exact hes _ he p ⟨rfl, (boundCall_number hbound).symm.trans hnumber⟩
    · trivial
  have hapart := hguarded.always (J := fun s => s.tables.MemoryKept uuid4 ∧ s.tables.Apart) ?_
    ⟨initializeSystem_memoryKept now, initializeSystem_apart now⟩
  · intro pre hpre
    exact (hapart pre hpre).2.regionsDisjoint
  · apply allowed_step (P := fun t => t.MemoryKept uuid4 ∧ t.Apart)
    · rintro t p time call t' r ⟨hk, ha⟩ hok he
      exact ⟨hk.effect hu he, he.apart hu hk hok ha⟩
    · rintro t time ⟨hk, ha⟩
      refine ⟨hk.runScheduler time, ?_, ?_, ?_⟩
      · intro q hq
        rw [runScheduler_mem] at hq
        rw [regionTable_runScheduler]
        exact ha.housed q hq
      · rw [regionTable_runScheduler]
        exact ha.complete
      · intro q
        rw [Laid, regionTable_runScheduler]
        exact ha.laid q

theorem allocation_disjoint (hu : UuidFresh uuid4) (now : ℕ → Float) (es : List Event) :
    (∀ p n args timing size permissions,
      boundCall n args = some (.memoryAllocate (.num size) permissions) →
      ((run uuid4 now es).invokeSyscall uuid4 p n args timing).2.success = true →
      ∃ regionId address,
        ((run uuid4 now es).invokeSyscall uuid4 p n args timing).2.value = .region regionId address size.val ∧
          (run uuid4 now es).tables.FreeRange p address size.val) ∧
    ((∀ e ∈ es, ∀ p, ¬ e.Calls p 12) →
      Run.Always (next uuid4) (fun s => s.tables.RegionsDisjoint) (initializeSystem now) es) := by
  constructor
  · intro p n args timing size permissions hbound hsuccess
    obtain ⟨-, hresult⟩ := @invokeSyscall_bound uuid4 (run uuid4 now es) p n args timing _ hbound
    rw [hresult] at hsuccess ⊢
    have hr : ¬ Failed (performSyscall uuid4 (run uuid4 now es).tables p timing.now
        (.memoryAllocate (.num size) permissions)).2 := by
      rw [Failed.ofOutcome, hsuccess]
      simp
    obtain ⟨m, address, hsize, hvalue, hfree⟩ := (performSyscall_effect _).allocates hr
    obtain rfl : size = m := Except.ok.inj hsize
    rw [hvalue]
    exact ⟨_, address, rfl, hfree⟩
  · exact regionsDisjoint_always hu now

def allocations : List Event :=
  [Sample.call 1 10 [("size", .int 4096)], Sample.call 1 10 [("size", .int 1)],
    Sample.call 1 11 [("region_id", .str (Sample.uuid4 0))], Sample.call 1 10 [("size", .int 8192)]]

theorem allocation_disjoint_init :
    Run.Always (next Sample.uuid4) (fun s => s.tables.RegionsDisjoint) (initializeSystem Sample.timing.now)
      allocations := by
  apply (allocation_disjoint Sample.uuid4_fresh Sample.timing.now allocations).2
  simp [allocations, Sample.call, Event.Calls]

end CoreSystem

end TrinityOS
