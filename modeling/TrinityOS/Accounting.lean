import TrinityOS.RegionIndex

namespace TrinityOS

open SystemTables

namespace SystemTables

/-- The processes in the table other than the two that `initialize` puts there. -/
def CreatedByCall (t : SystemTables) (p : ℤ) : Prop := p ∈ t.processes ∧ p ≠ 0 ∧ p ≠ 1

def listedSize (t : SystemTables) (p : ℤ) : ℤ :=
  ((t.processMemory.getD p []).map fun id => ((t.memoryRegions.get? id).map (·.size)).getD 0).sum

def usage (t : SystemTables) (p : ℤ) : Option ℤ := (t.processes.get? p).map (·.memoryUsage)

def AccountsExact (t : SystemTables) : Prop :=
  ∀ p process, t.CreatedByCall p → t.processes.get? p = some process →
    process.memoryUsage = t.listedSize p ∧ 0 ≤ process.memoryUsage

def MapAccepted (t : SystemTables) (p : ℤ) (targetId localAddress permissions : PyValue) : Prop :=
  ∃ id region address permissions', targetId = .str id ∧ t.memoryRegions.get? id = some region ∧
    (region.memoryType = .shared ∨ region.ownerPid = p) ∧ localAddress.operand = .ok address ∧
    PyValue.member "MemoryPermission" MemoryPermission.ofValue? permissions = .ok permissions'

end SystemTables

def KeepsAccount (t : SystemTables) (p : ℤ) (call : Syscall) : Prop :=
  t.CreatedByCall p →
    match call with
    | .memoryMap targetId localAddress permissions => ¬ t.MapAccepted p targetId localAddress permissions
    | .memoryFree regionId => ∀ id region, regionId = .str id → t.memoryRegions.get? id = some region →
        region.ownerPid = p → id ∈ t.processMemory.getD p []
    | _ => True

namespace SystemTables

variable {uuid4 : ℕ → String} {t t' : SystemTables} {p q : ℤ} {now : ℕ → Float}

theorem listedSize_eq_load (t : SystemTables) (p : ℤ) :
    t.listedSize p = t.regionTable.load MemoryRegion.size p := rfl

theorem usage_of_processes (h : t'.processes.get? q = t.processes.get? q) : t'.usage q = t.usage q := by
  rw [usage, h, usage]

theorem usage_setState (state : ProcessState) : (t.setState p state).usage q = t.usage q := by
  rw [usage, setState_get?]
  split_ifs with hq
  · rw [hq, usage, Option.map_map]
    rfl
  · rfl

theorem usage_wakeTarget : (t.wakeTarget p).usage q = t.usage q := by
  unfold wakeTarget
  split
  · exact usage_setState .ready
  · rfl

theorem usage_addMemoryUsage (size : ℤ) :
    (t.addMemoryUsage p size).usage q = if q = p then (t.usage p).map (· + size) else t.usage q := by
  rw [usage, addMemoryUsage_get?]
  split_ifs with hq
  · rw [usage, Option.map_map, Option.map_map]
    rfl
  · rfl

theorem usage_runScheduler (time : Float) : (t.runScheduler time).usage q = t.usage q := by
  rcases runScheduler_get? t q time with h | ⟨process, -, hq, h⟩
  · exact usage_of_processes h
  · rw [usage, h, usage, hq]
    rfl

theorem usage_terminateProcess (exitCode : PyValue) : (t.terminateProcess p exitCode).usage q =
    if q = p then (t.usage p).map (fun n => if p ∈ t.processMemory then 0 else n) else t.usage q := by
  rw [usage, terminateProcess_get?]
  by_cases hq : q = p
  · rw [if_pos hq, if_pos hq, usage, Option.map_map, Option.map_map]
    rfl
  · rw [if_neg hq, if_neg hq, usage]

theorem MemoryKept.load_register {region : MemoryRegion} (h : t.MemoryKept uuid4) (hu : UuidFresh uuid4)
    (hid : region.id = uuid4 t.uuidCount) :
    (t.drawUuid.registerRegion p region).regionTable.load MemoryRegion.size p =
      t.regionTable.load MemoryRegion.size p + region.size := by
  rw [regionTable_registerRegion]
  apply OwnedStore.load_acquire MemoryRegion.size h.sound
  rw [hid]
  exact h.named.uuid_fresh hu

theorem MemoryKept.accountsExact_iff (h : t.MemoryKept uuid4) : t.AccountsExact ↔
    ∀ q n, q ≠ 0 → q ≠ 1 → t.usage q = some n → n = t.regionTable.load MemoryRegion.size q := by
  constructor
  · intro he q n h₀ h₁ hn
    obtain ⟨process, hq, rfl⟩ := Option.map_eq_some_iff.mp hn
    have hexact := (he q process ⟨Dict.mem_of_get? hq, h₀, h₁⟩ hq).1
    rwa [listedSize_eq_load] at hexact
  · rintro he q process ⟨-, h₀, h₁⟩ hq
    have hload := he q process.memoryUsage h₀ h₁ (by rw [usage, hq, Option.map_some])
    rw [listedSize_eq_load]
    refine ⟨hload, ?_⟩
    rw [hload]
    apply OwnedStore.load_nonneg
    intro id region hr
    exact Int.le_of_lt (h.named.size_pos id region hr)

end SystemTables

variable {uuid4 : ℕ → String} {t t' : SystemTables} {p q : ℤ} {now : ℕ → Float} {call : Syscall}
  {r : Except PyException SyscallResult}

theorem Effect.usage_of_ne (he : Effect uuid4 t p now call t' r) (hq : q ≠ p) (hnew : q ≠ t.nextPid) :
    t'.usage q = t.usage q := by
  cases he with
  | created => exact usage_of_processes (by simp [newProcessInfo, hnew])
  | exited => exact usage_of_processes (by simp [hq])
  | waiting | listening => exact usage_of_processes (by simp [hq])
  | allocated => exact usage_of_processes (by simp [hq])
  | freed => exact usage_of_processes (by simp [hq])
  | sent => exact usage_wakeTarget
  | _ => rfl

theorem Effect.usage_self (he : Effect uuid4 t p now call t' r) (hu : UuidFresh uuid4) (h : t.MemoryKept uuid4)
    (hp : p ∈ t.processes) (hexact : t.usage p = some (t.regionTable.load MemoryRegion.size p))
    (hmap : ∀ targetId localAddress permissions, call = .memoryMap targetId localAddress permissions →
      ¬ t.MapAccepted p targetId localAddress permissions)
    (hfree : ∀ id region, call = .memoryFree (.str id) → t.memoryRegions.get? id = some region →
      region.ownerPid = p → id ∈ t.processMemory.getD p []) :
    t'.usage p = some (t'.regionTable.load MemoryRegion.size p) := by
  have hnew : p ≠ t.nextPid := fun heq => h.pids.fresh (heq ▸ hp)
  have hstep := he.regionTable_step hu h.named
  cases he with
  | created =>
    rw [hstep.load_of_ne MemoryRegion.size h.sound hnew, ← hexact]
    exact usage_of_processes (by simp [newProcessInfo, hnew])
  | exited =>
    rw [regionTable_terminateProcess, OwnedStore.load_dispose, usage_terminateProcess, if_pos rfl, hexact,
      Option.map_some]
    by_cases hm : p ∈ t.processMemory
    · rw [if_pos hm]
    · have hheld : t.regionTable.held p = [] := Dict.getD_of_not_mem hm []
      rw [if_neg hm, OwnedStore.load, hheld]
      rfl
  | waiting | listening =>
    exact (usage_setState ProcessState.blocked).trans hexact
  | allocated n =>
    rw [usage_addMemoryUsage, if_pos rfl, regionTable_addMemoryUsage, h.load_register hu rfl]
    exact congrArg (Option.map (· + n.val)) hexact
  | freed id region hregion howner =>
    have hm := hfree id region rfl hregion howner
    rw [regionTable_deleteRegion, OwnedStore.load_release MemoryRegion.size h.sound hregion hm, Int.sub_eq_add_neg]
    have husage : (t.deleteRegion p region id).usage p = (t.usage p).map (· + -region.size) := by
      rw [usage, deleteRegion_get?, if_pos rfl, usage, Option.map_map, Option.map_map]
      rfl
    rw [husage, hexact, Option.map_some]
  | mapped targetId region address permissions' htarget hallowed haddress hperm =>
    apply absurd _ (hmap _ _ _ rfl)
    exact ⟨targetId, region, address, permissions', rfl, htarget, hallowed, haddress, hperm⟩
  | sent =>
    rw [regionTable_wakeTarget, usage_wakeTarget]
    exact hexact
  | _ => exact hexact

theorem Effect.usage_new (he : Effect uuid4 t p now call t' r) (h : t.MemoryKept uuid4) {n : ℤ}
    (hn : t'.usage t.nextPid = some n) : n = t'.regionTable.load MemoryRegion.size t.nextPid := by
  have hfresh : t.nextPid ∉ t.processes := h.pids.fresh
  have hm : t.nextPid ∈ t'.processes := by
    obtain ⟨process, hq, -⟩ := Option.map_eq_some_iff.mp hn
    exact Dict.mem_of_get? hq
  cases he with
  | created =>
    rw [regionTable_admitProcess]
    refine Eq.trans ?_ (OwnedStore.load_install MemoryRegion.size (initialItems_nodup t.nextPid _)).symm
    rw [usage, admitProcess_get?, if_pos (by rfl)] at hn
    exact (Option.some.inj hn).symm
  | _ => exact absurd (by simpa using hm) hfresh

theorem Effect.accountsExact (he : Effect uuid4 t p now call t' r) (hu : UuidFresh uuid4) (h : t.MemoryKept uuid4)
    (ha : t.AccountsExact) (hok : KeepsAccount t p call) : t'.AccountsExact := by
  rw [h.accountsExact_iff] at ha
  rw [(h.effect hu he).accountsExact_iff]
  intro q n h₀ h₁ hn
  by_cases hnew : q = t.nextPid
  · rw [hnew] at hn ⊢
    exact he.usage_new h hn
  · by_cases hqp : q = p
    · subst hqp
      have hq : q ∈ t.processes := by
        obtain ⟨process, hq, -⟩ := Option.map_eq_some_iff.mp hn
        rcases he.mem_processes (Dict.mem_of_get? hq) with hm | ⟨heq, -⟩
        · exact hm
        · exact absurd heq hnew
      obtain ⟨process, hprocess⟩ := Dict.mem_iff.mp hq
      have husage : t.usage q = some process.memoryUsage := by rw [usage, hprocess, Option.map_some]
      have hkeeps := hok ⟨hq, h₀, h₁⟩
      have hself : t'.usage q = some (t'.regionTable.load MemoryRegion.size q) := by
        apply he.usage_self hu h hq
        · rw [husage, ha q process.memoryUsage h₀ h₁ husage]
        · rintro targetId localAddress permissions rfl
          exact hkeeps
        · rintro id region rfl
          exact hkeeps id region rfl
      exact Option.some.inj (hn.symm.trans hself)
    · have hstep := he.regionTable_step hu h.named
      rw [he.usage_of_ne hqp hnew] at hn
      rw [hstep.load_of_ne MemoryRegion.size h.sound (Syscall.holder_ne hqp hnew)]
      exact ha q n h₀ h₁ hn

theorem memoryMap_of_accepted {targetId localAddress permissions : PyValue} (h : t.MemoryKept uuid4)
    (hmap : t.MapAccepted p targetId localAddress permissions) :
    ∃ region, (syscallMemoryMap uuid4 t p targetId localAddress permissions now).1 =
        t.drawUuid.registerRegion p region ∧
      region.id = uuid4 t.uuidCount ∧ region.ownerPid = p ∧ 0 < region.size := by
  obtain ⟨id, target, address, permissions', rfl, htarget, hallowed, haddress, hperm⟩ := hmap
  have hmap := @memoryMap_of_allowed uuid4 t p now _ _ _ _ _ _ htarget hallowed haddress hperm
  exact ⟨_, hmap, rfl, rfl, h.named.size_pos id target htarget⟩

theorem keepsAccount_of_exact (hu : UuidFresh uuid4) (h : t.MemoryKept uuid4) (ha : t.AccountsExact)
    (ha' : (performSyscall uuid4 t p now call).1.AccountsExact) : KeepsAccount t p call := by
  have hk' := h.effect hu (@performSyscall_effect uuid4 t p now call)
  rw [h.accountsExact_iff] at ha
  rw [hk'.accountsExact_iff] at ha'
  rintro ⟨hp, h₀, h₁⟩
  obtain ⟨process, hprocess⟩ := Dict.mem_iff.mp hp
  have husage : t.usage p = some process.memoryUsage := by rw [usage, hprocess, Option.map_some]
  have hload := ha p process.memoryUsage h₀ h₁ husage
  cases call with
  | memoryMap targetId localAddress permissions =>
    intro hmap
    obtain ⟨region, ht, hid, -, hsize⟩ := @memoryMap_of_accepted uuid4 t p now _ _ _ h hmap
    rw [performSyscall, ht] at ha'
    -- the list grows by the size of the target, the counter stays
    have hload' := ha' p process.memoryUsage h₀ h₁ husage
    rw [h.load_register hu hid] at hload'
    omega
  | memoryFree regionId =>
    rintro id region rfl hregion howner
    by_contra hm
    rw [performSyscall, memoryFree_of_owned hregion howner] at ha'
    have husage' : (t.deleteRegion p region id).usage p = some (process.memoryUsage + -region.size) := by
      rw [usage, deleteRegion_get?, if_pos rfl, hprocess]
      rfl
    -- the counter shrinks, the list has nothing to lose
    have hload' := ha' p _ h₀ h₁ husage'
    rw [regionTable_deleteRegion, OwnedStore.load_release_of_not_held MemoryRegion.size hm] at hload'
    have hsize := h.named.size_pos id region hregion
    omega
  | _ => trivial

namespace CoreSystem

theorem initializeSystem_accountsExact (now : ℕ → Float) : (initializeSystem now).tables.AccountsExact := by
  rintro p process ⟨hp, h₀, h₁⟩
  simp [initializeSystem, initMemory, registerSyscalls, Dict.mem_set, h₀, h₁] at hp

theorem accountsExact_always_iff (hu : UuidFresh uuid4) (now : ℕ → Float) (es : List Event) :
    Run.Always (next uuid4) (fun s => s.tables.AccountsExact) (initializeSystem now) es ↔
      Run.Guarded (next uuid4) (Allows KeepsAccount) (initializeSystem now) es := by
  apply always_iff_allows (J := fun t => t.MemoryKept uuid4 ∧ t.AccountsExact)
  · rintro t ⟨-, ha⟩
    exact ha
  · rintro t p now call t' r ⟨h, ha⟩ hok he
    exact ⟨h.effect hu he, he.accountsExact hu h ha hok⟩
  · rintro t time ⟨h, ha⟩
    have hk' := h.runScheduler time
    refine ⟨hk', ?_⟩
    rw [h.accountsExact_iff] at ha
    rw [hk'.accountsExact_iff, regionTable_runScheduler]
    intro q n h₀ h₁ hn
    rw [usage_runScheduler] at hn
    exact ha q n h₀ h₁ hn
  · rintro t p now call ⟨h, ha⟩ ha'
    exact keepsAccount_of_exact hu h ha ha'
  · exact ⟨initializeSystem_memoryKept now, initializeSystem_accountsExact now⟩

def worker : Event := Sample.call 1 1 [("name", .str "worker"), ("policy", .int 1)]

theorem accountsExact_always_iff_init :
    Run.Always (next Sample.uuid4) (fun s => s.tables.AccountsExact) (initializeSystem Sample.timing.now)
        [worker, Sample.call 1000 10 [("size", .int 4096)]] ↔
      Run.Guarded (next Sample.uuid4) (Allows KeepsAccount) (initializeSystem Sample.timing.now)
        [worker, Sample.call 1000 10 [("size", .int 4096)]] :=
  accountsExact_always_iff Sample.uuid4_fresh Sample.timing.now _

theorem memoryUsage_negative : ¬ Run.Always (next Sample.uuid4) (fun s => s.tables.AccountsExact)
    (initializeSystem Sample.timing.now)
    [worker, Sample.call 1000 12 [("target_id", .str "system_shared"), ("local_address", .int 0)],
      Sample.call 1000 11 [("region_id", .str (Sample.uuid4 0))]] := by
  intro h
  have husage : (Sample.run [worker,
      Sample.call 1000 12 [("target_id", .str "system_shared"), ("local_address", .int 0)],
      Sample.call 1000 11 [("region_id", .str (Sample.uuid4 0))]]).tables.usage 1000 =
        some (-26214400) := by decide
  obtain ⟨process, hp, hnegative⟩ := Option.map_eq_some_iff.mp husage
  obtain ⟨-, hnonneg⟩ := h.last 1000 process ⟨Dict.mem_of_get? hp, by decide, by decide⟩ hp
  omega

end CoreSystem

end TrinityOS
