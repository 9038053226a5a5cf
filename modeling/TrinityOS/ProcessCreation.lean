import TrinityOS.RegionTable

namespace TrinityOS

open SystemTables

theorem ProcessPriority.ofValue?_isSome (v : ℤ) :
    (ofValue? v).isSome ↔ 0 ≤ v ∧ v ≤ 50 ∧ 10 ∣ v := by
  unfold ofValue?
  split
  case h_7 => simp_all; omega
  all_goals decide

theorem SchedulingPolicy.ofValue?_isSome (v : ℤ) : (ofValue? v).isSome ↔ 1 ≤ v ∧ v ≤ 5 := by
  unfold ofValue?
  split
  case h_6 => simp_all; omega
  all_goals decide

theorem member_num {α : Type} {enumeration : String} {ofValue? : ℤ → Option α} {n : PyInt} {a : α} :
    PyValue.member enumeration ofValue? (.num n) = .ok a ↔ ofValue? n.val = some a := by
  unfold PyValue.member
  cases h : ofValue? n.val <;> simp [h]

theorem clamp_val (n : PyInt) (hi : ℤ) :
    (pyMin (if n.val > (PyInt.int 0).val then n else .int 0) (.int hi)).val = min (max 0 n.val) hi := by
  have hzero : (PyInt.int 0).val = 0 := rfl
  have hhi : (PyInt.int hi).val = hi := rfl
  unfold pyMin
  split_ifs <;> omega

theorem clampPriority_eq_ok {n : PyInt} {priority : ProcessPriority} :
    clampPriority (.num n) = .ok priority ↔
      ProcessPriority.ofValue? (min (max 0 n.val) 50) = some priority := by
  rw [← clamp_val]
  exact member_num

theorem clampPolicy_eq_ok {n : PyInt} {policy : SchedulingPolicy} :
    clampPolicy (.num n) = .ok policy ↔ SchedulingPolicy.ofValue? (min (max 0 n.val) 4) = some policy := by
  rw [← clamp_val]
  exact member_num

theorem clampPriority_accepts_iff (n : PyInt) :
    (∃ priority, clampPriority (.num n) = .ok priority) ↔ n.val ≤ 0 ∨ 50 ≤ n.val ∨ 10 ∣ n.val := by
  simp only [clampPriority_eq_ok]
  rw [← Option.isSome_iff_exists, ProcessPriority.ofValue?_isSome]
  omega

theorem clampPolicy_accepts_iff (n : PyInt) :
    (∃ policy, clampPolicy (.num n) = .ok policy) ↔ 1 ≤ n.val := by
  simp only [clampPolicy_eq_ok]
  rw [← Option.isSome_iff_exists, SchedulingPolicy.ofValue?_isSome]
  omega

theorem clampPriority_declared {n : PyInt} {priority : ProcessPriority}
    (h : ProcessPriority.ofValue? n.val = some priority) : clampPriority (.num n) = .ok priority := by
  have hrange := (ProcessPriority.ofValue?_isSome n.val).mp (by simp [h])
  have he : min (max 0 n.val) 50 = n.val := by omega
  rw [clampPriority_eq_ok, he]
  exact h

/-- The upper bound is the number of policies less one, but their values start at 1. -/
theorem clampPolicy_declared_iff {n : PyInt} (hn : 1 ≤ n.val) :
    (∀ policy, SchedulingPolicy.ofValue? n.val = some policy → clampPolicy (.num n) = .ok policy) ↔
      n.val ≠ 5 := by
  constructor
  · intro h h5
    have hfair := clampPolicy_eq_ok.mp (h .fair (by rw [h5]; rfl))
    rw [h5] at hfair
    exact absurd hfair (by decide)
  · intro h5 policy hp
    have hrange := (SchedulingPolicy.ofValue?_isSome n.val).mp (by simp [hp])
    have he : min (max 0 n.val) 4 = n.val := by omega
    rw [clampPolicy_eq_ok, he]
    exact hp

structure ProcessAdded (t t' : SystemTables) (p : ℤ) (name : String) (priority policy : PyInt)
    (now : ℕ → Float) : Prop where
  process : ∃ process, t'.processes.get? t.nextPid = some process ∧ process.processId = t.nextPid ∧
    process.parentId = p ∧ process.name = .str name ∧ process.state = .ready ∧
    (∀ declared, ProcessPriority.ofValue? priority.val = some declared → process.priority = declared) ∧
    (∀ declared, SchedulingPolicy.ofValue? policy.val = some declared → process.policy = declared)
  next_pid : t'.nextPid = t.nextPid + 1
  queued : t'.readyQueue = t.readyQueue ++ [t.nextPid]
  listed : t'.processMemory.get? t.nextPid =
    some [s!"{t.nextPid}_code", s!"{t.nextPid}_data", s!"{t.nextPid}_stack"]
  code : t'.memoryRegions.get? s!"{t.nextPid}_code" = some
    { id := s!"{t.nextPid}_code", name := "code", start := 0x20000000, size := 1048576, ownerPid := t.nextPid,
      memoryType := .normal, permissions := .readExecute, createdAt := now 0 }
  data : t'.memoryRegions.get? s!"{t.nextPid}_data" = some
    { id := s!"{t.nextPid}_data", name := "data", start := 0x21000000, size := 4194304, ownerPid := t.nextPid,
      memoryType := .normal, permissions := .readWrite, createdAt := now 1 }
  stack : t'.memoryRegions.get? s!"{t.nextPid}_stack" = some
    { id := s!"{t.nextPid}_stack", name := "stack", start := 0x22000000, size := 2097152, ownerPid := t.nextPid,
      memoryType := .normal, permissions := .readWrite, createdAt := now 2 }
  mailbox : t'.messageQueues.get? t.nextPid = some []

variable {uuid4 : ℕ → String} {t : SystemTables} {p : ℤ} {now : ℕ → Float}

theorem admitProcess_memoryRegions_of_mem {newProcess : ProcessInfo} {region : MemoryRegion}
    (h : region ∈ initialRegions newProcess.processId now) :
    (t.admitProcess newProcess now).memoryRegions.get? region.id = some region := by
  have hview : (t.admitProcess newProcess now).memoryRegions.get? region.id =
      (t.regionTable.install newProcess.processId (initialItems newProcess.processId now)).items region.id :=
    congrArg (fun s => OwnedStore.items s region.id) (regionTable_admitProcess t newProcess now)
  rw [hview]
  exact OwnedStore.install_items_of_mem (initialItems_nodup _ now)
    (List.mem_map_of_mem (f := fun region : MemoryRegion => (region.id, region)) h)

theorem admitProcess_processAdded_iff {name : String} {priority policy : PyInt} {priority' : ProcessPriority}
    {policy' : SchedulingPolicy} {createdAt : Float} (hpriority : clampPriority (.num priority) = .ok priority')
    (hpolicy : clampPolicy (.num policy) = .ok policy') :
    ProcessAdded t ({ t with nextPid := t.nextPid + 1 }.admitProcess
        (newProcessInfo t.nextPid p (.str name) priority' policy' createdAt) now) p name priority policy now ↔
      policy.val ≠ 5 := by
  rw [← clampPolicy_declared_iff ((clampPolicy_accepts_iff policy).mp ⟨policy', hpolicy⟩)]
  constructor
  · rintro ⟨⟨process, hp, -, -, -, -, -, hexact⟩, -⟩ declared hdeclared
    have hvalue : process.policy = policy' := by
      have hget := hp.symm.trans ((admitProcess_get? _ t.nextPid _ now).trans (if_pos rfl))
      obtain rfl := Option.some.inj hget
      rfl
    rw [hpolicy, ← hvalue, hexact declared hdeclared]
  · intro hexact
    constructor
    · refine ⟨_, (admitProcess_get? _ _ _ _).trans (if_pos rfl), rfl, rfl, rfl, rfl, ?_, ?_⟩
      · intro declared hdeclared
        exact Except.ok.inj (hpriority.symm.trans (clampPriority_declared hdeclared))
      · intro declared hdeclared
        exact Except.ok.inj (hpolicy.symm.trans (hexact declared hdeclared))
    · rfl
    · rfl
    · exact Dict.get?_set_self _ _ _
    · exact admitProcess_memoryRegions_of_mem List.mem_cons_self
    · exact admitProcess_memoryRegions_of_mem (List.mem_cons_of_mem _ List.mem_cons_self)
    · exact admitProcess_memoryRegions_of_mem
        (List.mem_cons_of_mem _ (List.mem_cons_of_mem _ List.mem_cons_self))
    · exact Dict.get?_set_self _ _ _

theorem processCreate_of_str {name : String} (hname : name ≠ "") {priority policy : PyValue}
    {priority' : ProcessPriority} {policy' : SchedulingPolicy} (hpriority : clampPriority priority = .ok priority')
    (hpolicy : clampPolicy policy = .ok policy') :
    syscallProcessCreate t p (.str name) priority policy now =
      ({ t with nextPid := t.nextPid + 1 }.admitProcess
        (newProcessInfo t.nextPid p (.str name) priority' policy' (now 0)) (fun i => now (i + 1)),
        .ok (.ok (.pid t.nextPid))) := by
  have htruthy : (PyValue.str name).truthy = true := by simpa [PyValue.truthy] using hname
  exact processCreate_of_truthy htruthy hpriority hpolicy

theorem processCreate_rejected {name : String} (hname : name ≠ "") {priority policy : PyInt}
    (h : ¬ ((priority.val ≤ 0 ∨ 50 ≤ priority.val ∨ 10 ∣ priority.val) ∧ 1 ≤ policy.val)) :
    Failed (syscallProcessCreate t p (.str name) (.num priority) (.num policy) now).2 := by
  have htruthy : (PyValue.str name).truthy = true := by simpa [PyValue.truthy] using hname
  rw [← clampPriority_accepts_iff, ← clampPolicy_accepts_iff] at h
  simp only [syscallProcessCreate, htruthy, not_true_eq_false, ↓reduceIte]
  cases hpriority : clampPriority (.num priority) with
  | error e => trivial
  | ok priority' =>
    cases hpolicy : clampPolicy (.num policy) with
    | error e => trivial
    | ok policy' => exact absurd ⟨⟨priority', hpriority⟩, policy', hpolicy⟩ h

namespace CoreSystem

def PidUsed (uuid4 : ℕ → String) (now : ℕ → Float) (es : List Event) (q : ℤ) : Prop :=
  ∃ pre, pre <+: es ∧ q ∈ (run uuid4 now pre).tables.processes

theorem nextPid_not_used (uuid4 : ℕ → String) (now : ℕ → Float) (es : List Event) :
    ¬ PidUsed uuid4 now es (run uuid4 now es).tables.nextPid := by
  rintro ⟨pre, ⟨suf, rfl⟩, hq⟩
  have hbelow := run_pidsBelow uuid4 now pre _ hq
  have hmono : (run uuid4 now pre).tables.nextPid ≤ (run uuid4 now (pre ++ suf)).tables.nextPid := by
    have hsplit : run uuid4 now (pre ++ suf) = Run.final (next uuid4) (run uuid4 now pre) suf :=
      Run.final_append _ _ _
    rw [hsplit]
    apply Run.invariant (P := fun s : CoreSystem => (run uuid4 now pre).tables.nextPid ≤ s.tables.nextPid) _ (Int.le_refl _)
    apply tables_step (P := fun t => (run uuid4 now pre).tables.nextPid ≤ t.nextPid)
    · intro t p time call t' r hle he
      exact Int.le_trans hle he.nextPid_le
    · intro t time hle
      rwa [runScheduler_nextPid]
  omega

structure CreateServed (uuid4 : ℕ → String) (time : ℕ → Float) (es : List Event) (p n : ℤ) (args : Kwargs)
    (timing : Timing) (name : String) (priority policy : PyInt) : Prop where
  fails_iff : ((run uuid4 time es).invokeSyscall uuid4 p n args timing).2.success = false ↔ name = ""
  unchanged : name = "" →
    ((run uuid4 time es).invokeSyscall uuid4 p n args timing).1.tables = (run uuid4 time es).tables
  pid : name ≠ "" → ((run uuid4 time es).invokeSyscall uuid4 p n args timing).2.value =
    .pid (run uuid4 time es).tables.nextPid
  pid_fresh : name ≠ "" → ¬ PidUsed uuid4 time es (run uuid4 time es).tables.nextPid
  added : name ≠ "" → ProcessAdded (run uuid4 time es).tables
    ((run uuid4 time es).invokeSyscall uuid4 p n args timing).1.tables p name priority policy
    (fun i => timing.now (i + 1))

theorem processCreate_served_iff (uuid4 : ℕ → String) (time : ℕ → Float) (es : List Event) (p n : ℤ)
    (args : Kwargs) (timing : Timing) (name : String) (priority policy : PyInt)
    (hbound : boundCall n args = some (.processCreate (.str name) (.num priority) (.num policy))) :
    CreateServed uuid4 time es p n args timing name priority policy ↔
      name = "" ∨ ((priority.val ≤ 0 ∨ 50 ≤ priority.val ∨ 10 ∣ priority.val) ∧
        1 ≤ policy.val ∧ policy.val ≠ 5) := by
  obtain ⟨htables, hresult⟩ := @invokeSyscall_bound uuid4 (run uuid4 time es) p n args timing _ hbound
  rw [performSyscall] at htables hresult
  by_cases hname : name = ""
  · subst hname
    refine iff_of_true ⟨?_, ?_, ?_, ?_, ?_⟩ (.inl rfl)
    · rw [hresult]
      exact iff_of_true rfl rfl
    · intro _
      rw [htables]
      rfl
    all_goals
      intro hne
      exact absurd rfl hne
  · by_cases haccepted : (priority.val ≤ 0 ∨ 50 ≤ priority.val ∨ 10 ∣ priority.val) ∧ 1 ≤ policy.val
    · obtain ⟨priority', hpriority⟩ := (clampPriority_accepts_iff priority).mpr haccepted.1
      obtain ⟨policy', hpolicy⟩ := (clampPolicy_accepts_iff policy).mpr haccepted.2
      rw [processCreate_of_str hname hpriority hpolicy] at htables hresult
      dsimp only at htables hresult
      have hadded := @admitProcess_processAdded_iff (run uuid4 time es).tables p (fun i => timing.now (i + 1))
        name priority policy priority' policy' (timing.now 0) hpriority hpolicy
      rw [← htables] at hadded
      constructor
      · intro h
        exact .inr ⟨haccepted.1, haccepted.2, hadded.mp (h.added hname)⟩
      · intro h
        rcases h with he | ⟨-, -, h5⟩
        · exact absurd he hname
        · refine ⟨?_, fun he => absurd he hname, fun _ => ?_, fun _ => nextPid_not_used uuid4 time es,
            fun _ => hadded.mpr h5⟩
          · rw [hresult]
            exact iff_of_false (by simp [SyscallResult.ofOutcome, SyscallResult.ok]) hname
          · rw [hresult]
            rfl
    · apply iff_of_false
      · intro h
        have hfailed := Failed.ofOutcome.mp
          (@processCreate_rejected (run uuid4 time es).tables p timing.now name hname priority policy haccepted)
        rw [← hresult] at hfailed
        exact hname (h.fails_iff.mp hfailed)
      · rintro (he | ⟨hp, hpolicy, -⟩)
        · exact hname he
        · exact haccepted ⟨hp, hpolicy⟩

theorem processCreate_served_iff_init :
    CreateServed Sample.uuid4 Sample.timing.now [] 0 1
        (.ofList [("name", .str "worker"), ("policy", .int 1)]) Sample.timing "worker" (.int 20) (.int 1) ↔
      "worker" = "" ∨ (((PyInt.int 20).val ≤ 0 ∨ 50 ≤ (PyInt.int 20).val ∨ 10 ∣ (PyInt.int 20).val) ∧
        1 ≤ (PyInt.int 1).val ∧ (PyInt.int 1).val ≠ 5) :=
  processCreate_served_iff Sample.uuid4 Sample.timing.now [] 0 1 _ Sample.timing "worker" (.int 20) (.int 1) rfl

/-- The request that `main` makes: `policy` keeps its default 0, which no member has. -/
theorem default_policy_rejected : ¬ CreateServed Sample.uuid4 Sample.timing.now [] 0 1
    (.ofList [("name", .str "test_process")]) Sample.timing "test_process" (.int 20) (.int 0) := by
  intro h
  have hfailed : ((Sample.run []).invokeSyscall Sample.uuid4 0 1 (.ofList [("name", .str "test_process")])
      Sample.timing).2.success = false := by decide
  exact absurd (h.fails_iff.mp hfailed) (by decide)

end CoreSystem

end TrinityOS
