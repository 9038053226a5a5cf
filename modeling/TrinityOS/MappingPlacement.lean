import TrinityOS.Allocation
import TrinityOS.Mappings

namespace TrinityOS

open SystemTables

namespace SystemTables

def WindowFree (t : SystemTables) (p size : ℤ) : Prop :=
  ∀ id ∈ t.processMemory.getD p [], ∀ region, t.memoryRegions.get? id = some region →
    region.stop ≤ 0x30000000 ∨ 0x30000000 + size ≤ region.start

variable {uuid4 : ℕ → String} {t : SystemTables} {p size : ℤ}

theorem freeRange_iff_windowFree (hn : t.RegionsNamed uuid4) (hsize : 0 < size) :
    t.FreeRange p 0x30000000 size ↔ t.WindowFree p size := by
  have hdisjoint {id : String} {region : MemoryRegion} (hr : t.memoryRegions.get? id = some region) :
      Disjoint (Set.Ico 0x30000000 (0x30000000 + size)) region.range ↔
        region.stop ≤ 0x30000000 ∨ 0x30000000 + size ≤ region.start := by
    have hpos := hn.size_pos id region hr
    rw [MemoryRegion.range, Set.Ico_disjoint_Ico]
    unfold MemoryRegion.stop
    omega
  constructor
  · intro h id hid region hr
    exact (hdisjoint hr).mp (h.disjoint id hid region hr)
  · intro h
    refine ⟨by omega, ?_⟩
    intro id hid region hr
    exact (hdisjoint hr).mpr (h id hid region hr)

end SystemTables

def Syscall.FindsWindow (t : SystemTables) (p : ℤ) : Syscall → Prop
  | .memoryMap (.str targetId) (.num localAddress) permissions =>
    localAddress.val ≤ 0 →
    (∃ permissions', PyValue.member "MemoryPermission" MemoryPermission.ofValue? permissions = .ok permissions') →
    ∀ target, t.memoryRegions.get? targetId = some target →
      target.memoryType = .shared ∨ target.ownerPid = p → t.WindowFree p target.size
  | _ => True

variable {uuid4 : ℕ → String} {t t' : SystemTables} {p : ℤ} {now : ℕ → Float} {call : Syscall}
  {r : Except PyException SyscallResult}

theorem Effect.maps {targetId permissions : PyValue} {localAddress : PyInt}
    (h : Effect uuid4 t p now (.memoryMap targetId (.num localAddress) permissions) t' r) (hr : ¬ Failed r)
    (haddress : localAddress.val ≤ 0) :
    ∃ id target permissions', targetId = .str id ∧ t.memoryRegions.get? id = some target ∧
      (target.memoryType = .shared ∨ target.ownerPid = p) ∧
      PyValue.member "MemoryPermission" MemoryPermission.ofValue? permissions = .ok permissions' ∧
      r = .ok (.ok (.region (uuid4 t.uuidCount) 0x30000000 target.size)) := by
  cases h with
  | refused _ _ _ _ hf => exact absurd hf hr
  | mapped id target address permissions' htarget hallowed hoperand hperm =>
    obtain rfl : localAddress = address := Except.ok.inj hoperand
    refine ⟨id, target, permissions', rfl, htarget, hallowed, hperm, ?_⟩
    rw [if_neg (by omega)]

theorem memoryMap_result {id : String} {target : MemoryRegion} {localAddress permissions : PyValue}
    {address : PyInt} {permissions' : MemoryPermission} (htarget : t.memoryRegions.get? id = some target)
    (hallowed : target.memoryType = .shared ∨ target.ownerPid = p) (haddress : localAddress.operand = .ok address)
    (hperm : PyValue.member "MemoryPermission" MemoryPermission.ofValue? permissions = .ok permissions') :
    (syscallMemoryMap uuid4 t p (.str id) localAddress permissions now).2 =
      .ok (.ok (.region (uuid4 t.uuidCount) (if address.val > 0 then address.val else 0x30000000) target.size)) := by
  have hdenied : ¬ (target.memoryType ≠ .shared ∧ target.ownerPid ≠ p) := by tauto
  simp only [syscallMemoryMap, PyValue.strKey, htarget, if_neg hdenied, haddress, hperm]

theorem SystemTables.RegionsNamed.runScheduler (h : t.RegionsNamed uuid4) (time : Float) :
    (t.runScheduler time).RegionsNamed uuid4 := by
  apply h.mono
  · intro id region hr
    rwa [runScheduler_memoryRegions] at hr
  · rw [runScheduler_nextPid]
  · rw [runScheduler_uuidCount]

/-- The call of the log has placed `size` bytes at `start`, as the region `id`; where a mapping
goes is said by its arguments alone. -/
inductive CallRecord.Places (c : CallRecord) (id : String) (start size : ℤ) : Prop
  | allocated (number : c.syscallNumber = 10) (result : c.result = .ok (.region id start size))
  | mapped (address : PyInt) (number : c.syscallNumber = 12)
      (operand : (arg c.args "local_address").operand = .ok address)
      (start_eq : start = if address.val > 0 then address.val else 0x30000000)
      (result : c.result = .ok (.region id start size))

theorem CallRecord.Places.result_eq {c : CallRecord} {id : String} {start size : ℤ} (h : c.Places id start size) :
    c.result = .ok (.region id start size) := by
  cases h with
  | allocated _ hresult => exact hresult
  | mapped _ _ _ _ hresult => exact hresult

theorem boundCall_memoryMap {n : ℤ} {args : Kwargs} {targetId localAddress permissions : PyValue}
    (h : boundCall n args = some (.memoryMap targetId localAddress permissions)) :
    n = 12 ∧ localAddress = arg args "local_address" := by
  obtain rfl : 12 = n := boundCall_number h
  obtain ⟨entry, hentry, hcall⟩ := boundCall_entry h
  obtain rfl : syscalls.get ⟨5, by decide⟩ = entry := Option.some.inj hentry
  exact ⟨rfl, (Syscall.memoryMap.inj hcall).2.1⟩

theorem Effect.region_placed {n : ℤ} {args : Kwargs} {id : String} {m : MemoryRegion}
    (he : Effect uuid4 t p now call t' r) (hbound : boundCall n args = some call)
    (hm : t'.memoryRegions.get? id = some m) :
    t.memoryRegions.get? id = some m ∨ m.stop ≤ 0x30000000 ∨
      m.ownerPid = p ∧ CallRecord.Places ⟨p, n, args, SyscallResult.ofOutcome r⟩ id m.start m.size := by
  cases he with
  | created =>
    rcases admitProcess_memoryRegions_get? hm with ⟨hregion, -⟩ | hold
    · right
      left
      simp only [initialRegions, List.mem_cons, List.not_mem_nil, or_false] at hregion
      rcases hregion with rfl | rfl | rfl <;> exact of_decide_eq_true rfl
    · exact .inl hold
  | exited => exact .inl (terminateProcess_memoryRegions_of_get? hm)
  | allocated =>
    rw [addMemoryUsage_memoryRegions, registerRegion_memoryRegions, Dict.get?_set] at hm
    split_ifs at hm with hid
    · obtain rfl := Option.some.inj hm
      rw [hid]
      exact .inr (.inr ⟨rfl, .allocated (boundCall_number hbound).symm rfl⟩)
    · exact .inl hm
  | freed =>
    rw [deleteRegion_memoryRegions, Dict.get?_del] at hm
    split_ifs at hm
    exact .inl hm
  | mapped targetId target address permissions' _ _ haddress =>
    rw [registerRegion_memoryRegions] at hm
    change (t.memoryRegions.set (uuid4 t.uuidCount) _).get? id = some m at hm
    by_cases hid : id = uuid4 t.uuidCount
    · rw [hid, Dict.get?_set_self] at hm
      obtain rfl := Option.some.inj hm
      obtain ⟨hn, hlocal⟩ := boundCall_memoryMap hbound
      rw [hlocal] at haddress
      rw [hid]
      exact .inr (.inr ⟨rfl, .mapped address hn haddress rfl rfl⟩)
    · rw [Dict.get?_set_of_ne _ _ hid] at hm
      exact .inl hm
  | sent => exact .inl (by simpa using hm)
  | _ => exact .inl hm

theorem Effect.region_stored {id : String} {start size : ℤ} (he : Effect uuid4 t p now call t' r)
    (hr : SyscallResult.ofOutcome r = .ok (.region id start size)) :
    id = uuid4 t.uuidCount ∧ t'.uuidCount = t.uuidCount + 1 ∧
      ∃ m, t'.memoryRegions.get? id = some m ∧ m.start = start ∧ m.size = size := by
  cases he with
  | refused _ _ _ _ hf =>
    rw [Failed.ofOutcome, hr] at hf
    cases hf
  | allocated =>
    cases hr
    exact ⟨rfl, rfl, _, Dict.get?_set_self _ _ _, rfl, rfl⟩
  | mapped =>
    cases hr
    exact ⟨rfl, rfl, _, Dict.get?_set_self _ _ _, rfl, rfl⟩
  | _ => cases hr

namespace SystemTables

structure PlacedBy (uuid4 : ℕ → String) (log : List CallRecord) (t : SystemTables) : Prop where
  origin : ∀ id m, t.memoryRegions.get? id = some m → m.stop ≤ 0x30000000 ∨
    ∃ c ∈ log, c.processId = m.ownerPid ∧ c.Places id m.start m.size
  stays : ∀ c ∈ log, ∀ id start size, c.Places id start size → t.KnownId uuid4 id ∧
    ∀ m, t.memoryRegions.get? id = some m → m.start = start ∧ m.size = size

theorem PlacedBy.congr {log : List CallRecord} (h : t.PlacedBy uuid4 log)
    (hregions : t'.memoryRegions = t.memoryRegions) (hpid : t.nextPid ≤ t'.nextPid)
    (huuid : t.uuidCount ≤ t'.uuidCount) : t'.PlacedBy uuid4 log := by
  constructor
  · rw [hregions]
    exact h.origin
  · intro c hc id start size hplaces
    obtain ⟨hknown, hstays⟩ := h.stays c hc id start size hplaces
    rw [hregions]
    exact ⟨hknown.mono hpid huuid, hstays⟩

theorem PlacedBy.effect {log : List CallRecord} {n : ℤ} {args : Kwargs} (h : t.PlacedBy uuid4 log)
    (hu : UuidFresh uuid4) (he : Effect uuid4 t p now call t' r) (hbound : boundCall n args = some call) :
    t'.PlacedBy uuid4 (log ++ [⟨p, n, args, SyscallResult.ofOutcome r⟩]) := by
  constructor
  · intro id m hm
    rcases he.region_placed hbound hm with hold | hlow | ⟨howner, hplaces⟩
    · exact (h.origin id m hold).imp_right fun ⟨c, hc, hplaces⟩ => ⟨c, List.mem_append_left _ hc, hplaces⟩
    · exact .inl hlow
    · exact .inr ⟨_, List.mem_append_right _ (List.mem_singleton_self _), howner.symm, hplaces⟩
  · intro c hc id start size hplaces
    rcases List.mem_append.mp hc with hc | hc
    · obtain ⟨hknown, hstays⟩ := h.stays c hc id start size hplaces
      refine ⟨hknown.mono he.nextPid_le he.uuidCount_le, fun m hm => ?_⟩
      rcases he.region_origin hm with hold | ⟨hfresh, -⟩
      · exact hstays m hold
      · exact absurd hfresh (hknown.not_fresh hu)
    · obtain rfl := List.mem_singleton.mp hc
      obtain ⟨hid, hcount, m, hm, hplaced⟩ := he.region_stored hplaces.result_eq
      refine ⟨.inl ⟨t.uuidCount, by omega, hid⟩, fun m' hm' => ?_⟩
      obtain rfl := Option.some.inj (hm.symm.trans hm')
      exact hplaced

theorem PlacedBy.windowFree_iff {log : List CallRecord} (h : t.PlacedBy uuid4 log)
    (hsound : OwnedStore.Sound MemoryRegion.ownerPid t.regionTable) :
    t.WindowFree p size ↔ ∀ c ∈ log, c.processId = p → ∀ id start length, c.Places id start length →
      id ∈ t.processMemory.getD p [] → start + length ≤ 0x30000000 ∨ 0x30000000 + size ≤ start := by
  constructor
  · intro hfree c hc hcaller id start length hplaces hid
    obtain ⟨m, hm, -⟩ := hsound.owned p id hid
    obtain ⟨rfl, rfl⟩ := (h.stays c hc id start length hplaces).2 m hm
    exact hfree id hid m hm
  · intro hcalls id hid m hm
    obtain ⟨m', hm', howner⟩ := hsound.owned p id hid
    obtain rfl := Option.some.inj (hm.symm.trans hm')
    rcases h.origin id m hm with hlow | ⟨c, hc, hcaller, hplaces⟩
    · exact .inl hlow
    · exact hcalls c hc (hcaller.trans howner) id m.start m.size hplaces hid

end SystemTables

namespace CoreSystem

def PlacedFree (uuid4 : ℕ → String) (s : CoreSystem) : Event → Prop
  | .syscall p n args timing => ∀ targetId localAddress permissions,
      boundCall n args = some (.memoryMap targetId (.num localAddress) permissions) → localAddress.val ≤ 0 →
      (s.invokeSyscall uuid4 p n args timing).2.success = true →
      ∃ regionId address size,
        (s.invokeSyscall uuid4 p n args timing).2.value = .region regionId address size ∧
          s.tables.FreeRange p address size
  | .scheduler _ => True

variable {s : CoreSystem}

theorem placedFree_iff (hn : s.tables.RegionsNamed uuid4) (e : Event) :
    s.PlacedFree uuid4 e ↔ s.Allows Syscall.FindsWindow e := by
  cases e with
  | scheduler time => exact Iff.rfl
  | syscall p n args timing =>
    constructor
    · intro h call hbound
      unfold Syscall.FindsWindow
      split
      · rename_i targetId localAddress permissions
        rintro haddress ⟨permissions', hperm⟩ target htarget hallowed
        obtain ⟨-, hresult⟩ := @invokeSyscall_bound uuid4 s p n args timing _ hbound
        have hoperand : PyValue.operand (.num localAddress) = .ok localAddress := rfl
        rw [performSyscall, memoryMap_result htarget hallowed hoperand hperm, if_neg (by omega)] at hresult
        obtain ⟨regionId, address, size, hvalue, hfree⟩ := h _ _ _ hbound haddress (by rw [hresult]; rfl)
        rw [hresult] at hvalue
        obtain ⟨-, rfl, rfl⟩ := SyscallValue.region.inj hvalue
        exact (freeRange_iff_windowFree hn (hn.size_pos _ target htarget)).mp hfree
      · trivial
    · intro h targetId localAddress permissions hbound haddress hsuccess
      obtain ⟨-, hresult⟩ := @invokeSyscall_bound uuid4 s p n args timing _ hbound
      rw [hresult] at hsuccess ⊢
      have hr : ¬ Failed (performSyscall uuid4 s.tables p timing.now
          (.memoryMap targetId (.num localAddress) permissions)).2 := by
        rw [Failed.ofOutcome, hsuccess]
        simp
      obtain ⟨id, target, permissions', rfl, htarget, hallowed, hperm, hvalue⟩ :=
        (performSyscall_effect _).maps hr haddress
      rw [hvalue]
      refine ⟨_, _, _, rfl, (freeRange_iff_windowFree hn (hn.size_pos id target htarget)).mpr ?_⟩
      exact h _ hbound haddress ⟨permissions', hperm⟩ target htarget hallowed

theorem run_regionsNamed (uuid4 : ℕ → String) (now : ℕ → Float) (es : List Event) :
    (run uuid4 now es).tables.RegionsNamed uuid4 := by
  apply run_tables
  · exact initializeSystem_regionsNamed
  · intro t p now call t' r hn he
    exact he.regionsNamed hn
  · intro t time hn
    exact hn.runScheduler time

theorem run_placedBy (hu : UuidFresh uuid4) (now : ℕ → Float) (es : List Event) :
    (run uuid4 now es).tables.PlacedBy uuid4 (runHistory uuid4 now es) := by
  induction es using List.reverseRecOn with
  | nil =>
    constructor
    · intro id m hm
      left
      change (((Dict.empty.set "kernel_main" (kernelRegion (now 2))).set "system_shared" (sharedRegion (now 3))).get?
        id) = some m at hm
      rw [Dict.get?_set, Dict.get?_set] at hm
      split_ifs at hm
      · obtain rfl := Option.some.inj hm
        exact of_decide_eq_true rfl
      · obtain rfl := Option.some.inj hm
        exact of_decide_eq_true rfl
      · cases hm
    · rintro c ⟨⟩
  | append_singleton es e ih =>
    rw [run_concat, runHistory_concat]
    generalize run uuid4 now es = s at ih ⊢
    generalize runHistory uuid4 now es = log at ih ⊢
    cases e with
    | scheduler time =>
      rw [record, List.append_nil]
      exact ih.congr (runScheduler_memoryRegions _ _) (runScheduler_nextPid _ _).ge (runScheduler_uuidCount _ _).ge
    | syscall p n args timing =>
      cases hbound : boundCall n args with
      | none =>
        obtain ⟨htables, hfailed⟩ := @invokeSyscall_unbound uuid4 s p n args timing hbound
        rw [next, htables]
        refine ⟨fun id m hm => ?_, fun c hc id start size hplaces => ?_⟩
        · exact (ih.origin id m hm).imp_right fun ⟨c, hc, hplaces⟩ => ⟨c, List.mem_append_left _ hc, hplaces⟩
        · rcases List.mem_append.mp hc with hc | hc
          · exact ih.stays c hc id start size hplaces
          · obtain rfl := List.mem_singleton.mp hc
            have hresult := hplaces.result_eq
            dsimp only at hresult
            rw [hresult] at hfailed
            cases hfailed
      | some call =>
        obtain ⟨htables, hresult⟩ := @invokeSyscall_bound uuid4 s p n args timing _ hbound
        rw [next, htables, record, hresult]
        exact ih.effect hu (performSyscall_effect call) hbound

theorem mapping_placed_iff (uuid4 : ℕ → String) (now : ℕ → Float) (es : List Event) :
    (∀ e, (run uuid4 now es).PlacedFree uuid4 e ↔ (run uuid4 now es).Allows Syscall.FindsWindow e) ∧
      (Run.Guarded (next uuid4) (PlacedFree uuid4) (initializeSystem now) es ↔
        Run.Guarded (next uuid4) (Allows Syscall.FindsWindow) (initializeSystem now) es) ∧
      (UuidFresh uuid4 → ∀ p size, (run uuid4 now es).tables.WindowFree p size ↔
        ∀ c ∈ runHistory uuid4 now es, c.processId = p → ∀ id start length, c.Places id start length →
          id ∈ (run uuid4 now es).tables.processMemory.getD p [] →
            start + length ≤ 0x30000000 ∨ 0x30000000 + size ≤ start) := by
  have hstep (s : CoreSystem) (e : Event) (hn : s.tables.RegionsNamed uuid4) :
      (s.next uuid4 e).tables.RegionsNamed uuid4 := by
    apply tables_step (P := fun t => t.RegionsNamed uuid4) _ _ s e hn
    · intro t p now call t' r hn he
      exact he.regionsNamed hn
    · intro t time hn
      exact hn.runScheduler time
  refine ⟨placedFree_iff (run_regionsNamed uuid4 now es), ?_, fun hu p size => ?_⟩
  · constructor
    · apply Run.Guarded.imp_of_invariant hstep _ (initializeSystem_regionsNamed now)
      intro s e hn
      exact (placedFree_iff hn e).mp
    · apply Run.Guarded.imp_of_invariant hstep _ (initializeSystem_regionsNamed now)
      intro s e hn
      exact (placedFree_iff hn e).mpr
  · exact (run_placedBy hu now es).windowFree_iff (run_memoryKept hu now es).sound

def mapShared : Event := Sample.call 1 12 [("target_id", .str "system_shared"), ("local_address", .int 0)]

theorem mapping_placed_iff_shared :
    ¬ (run Sample.uuid4 Sample.timing.now [mapShared]).tables.WindowFree 1 0x2000000 := by
  intro hfree
  have hcalls := ((mapping_placed_iff Sample.uuid4 Sample.timing.now [mapShared]).2.2 Sample.uuid4_fresh 1 _).mp hfree
  have hplaces : CallRecord.Places ⟨1, 12, .ofList [("target_id", .str "system_shared"), ("local_address", .int 0)],
      .ok (.region (Sample.uuid4 0) 0x30000000 0x2000000)⟩ (Sample.uuid4 0) 0x30000000 0x2000000 :=
    .mapped (.int 0) rfl rfl rfl rfl
  rcases hcalls _ (List.mem_singleton_self _) rfl _ _ _ hplaces (List.mem_singleton_self _) with h | h
  · exact absurd h (by decide)
  · exact absurd h (by decide)

theorem second_mapping_overlaps :
    ¬ Run.Guarded (next Sample.uuid4) (PlacedFree Sample.uuid4) (initializeSystem Sample.timing.now)
      [mapShared, mapShared] := by
  rintro ⟨-, hplaced, -⟩
  obtain ⟨id, address, size, hvalue, hfree⟩ := hplaced _ _ _ rfl (Int.le_refl 0) rfl
  obtain ⟨-, rfl, rfl⟩ := SyscallValue.region.inj hvalue
  -- the window of the second mapping meets the first, which is listed under the first identifier
  have hmapped : (next Sample.uuid4 (initializeSystem Sample.timing.now) mapShared).tables.memoryRegions.get?
      (Sample.uuid4 0) = some (mappedRegion (Sample.uuid4 0) 0x30000000 0x2000000 1 .read "system_shared" 0) := rfl
  have hdisjoint := hfree.disjoint (Sample.uuid4 0) (List.mem_singleton_self _) _ hmapped
  have hstart : (0x30000000 : ℤ) ∈ Set.Ico 0x30000000 (0x30000000 + 0x2000000) := ⟨by decide, by decide⟩
  exact Set.disjoint_left.mp hdisjoint hstart ⟨by decide, by decide⟩

end CoreSystem

end TrinityOS
