import TrinityOS.SystemRuns
import Mathlib.Algebra.Order.Ring.Nat

namespace TrinityOS

/-- The handler refuses the call by the result that it returns. An argument of the wrong type,
a value that is no member of an enumeration and a missing argument raise instead. -/
def Syscall.Refused (t : SystemTables) (p : ℤ) : Syscall → Prop
  | .processCreate name _ _ => name.truthy = false
  | .processExit _ => p ∉ t.processes
  | .processWait waitPid => ∃ key, waitPid.intKey = .ok key ∧ ∀ q, key = some q → q.val ∉ t.processes
  | .memoryAllocate size _ => p ∉ t.processes ∨ ∃ n, size.operand = .ok n ∧ n.val ≤ 0
  | .memoryFree regionId => ∃ key, regionId.strKey = .ok key ∧
      ∀ id, key = some id → ∀ region, t.memoryRegions.get? id = some region → region.ownerPid ≠ p
  | .memoryMap targetId _ _ => ∃ key, targetId.strKey = .ok key ∧
      ∀ id, key = some id → ∀ region, t.memoryRegions.get? id = some region →
        region.memoryType ≠ .shared ∧ region.ownerPid ≠ p
  | .ipcSend targetId _ _ _ => p ∉ t.processes ∨
      ∃ key, targetId.intKey = .ok key ∧ ∀ q, key = some q → q.val ∉ t.processes
  | .ipcReceive _ => p ∉ t.processes

inductive SyscallCategory where
  | process | file | memory | network | ipc | device | system | time | security | user | debug
  deriving DecidableEq, Repr

def SyscallEntry.category (entry : SyscallEntry) : SyscallCategory :=
  if entry.name ∈ ["process_create", "process_exit", "process_wait"] then .process
  else if entry.name ∈ ["memory_allocate", "memory_free", "memory_map"] then .memory
  else .ipc

structure SyscallReport where
  number : ℤ
  name : String
  category : SyscallCategory
  calls : ℕ
  errors : ℕ
  totalTime : Float
  avgTime : Float

def CoreSystem.getSyscallStats (s : CoreSystem) : List SyscallReport :=
  syscalls.filterMap fun entry => (s.syscallStats.get? entry.number).map fun stats =>
    { number := entry.number
      name := entry.name
      category := entry.category
      calls := stats.calls
      errors := stats.errors
      totalTime := stats.totalTime
      avgTime := stats.totalTime / Float.ofNat (max 1 stats.calls) }

def raised : Except PyException SyscallResult → Bool
  | .ok _ => false
  | .error _ => true

def reported : Except PyException SyscallResult → Bool
  | .ok result => !result.success
  | .error _ => false

section handlers

variable {uuid4 : ℕ → String} {t : SystemTables} {p : ℤ} {now : ℕ → Float}

theorem reported_processCreate (name priority policy : PyValue) :
    reported (syscallProcessCreate t p name priority policy now).2 = true ↔
      (Syscall.processCreate name priority policy).Refused t p := by
  unfold syscallProcessCreate Syscall.Refused
  cases hname : name.truthy with
  | false => simp [hname, reported, SyscallResult.failure]
  | true =>
    simp only [not_true_eq_false, ↓reduceIte]
    cases clampPriority priority with
    | error e => simp [hname, reported]
    | ok priority' => cases clampPolicy policy <;> simp [hname, reported, SyscallResult.ok]

theorem reported_processExit (exitCode : PyValue) :
    reported (syscallProcessExit t p exitCode).2 = true ↔ (Syscall.processExit exitCode).Refused t p := by
  unfold syscallProcessExit Syscall.Refused
  by_cases hp : p ∈ t.processes <;> simp [hp, reported, SyscallResult.ok, SyscallResult.failure]

theorem reported_processWait (waitPid : PyValue) :
    reported (syscallProcessWait t p waitPid).2 = true ↔ (Syscall.processWait waitPid).Refused t p := by
  simp only [syscallProcessWait, Syscall.Refused]
  cases waitPid.intKey with
  | error e => simp [reported]
  | ok key =>
    cases key with
    | none => simp [reported, SyscallResult.failure]
    | some q =>
      cases hq : t.processes.get? q.val with
      | none => simp [reported, SyscallResult.failure, Dict.not_mem_iff, hq]
      | some target =>
        have hmem := Dict.mem_of_get? hq
        by_cases hdead : target.state = .terminated
        · simp [hq, hdead, reported, SyscallResult.ok, hmem]
        · by_cases hp : p ∈ t.processes
          · simp [hq, hdead, blockProcess_of_mem _ hp, reported, SyscallResult.ok, hmem]
          · simp [hq, hdead, blockProcess_of_not_mem _ hp, reported, hmem]

theorem reported_memoryAllocate (size permissions : PyValue) :
    reported (syscallMemoryAllocate uuid4 t p size permissions now).2 = true ↔
      (Syscall.memoryAllocate size permissions).Refused t p := by
  simp only [syscallMemoryAllocate, Syscall.Refused]
  by_cases hp : p ∈ t.processes
  · cases size.operand with
    | error e => simp [hp, reported]
    | ok n =>
      by_cases hpos : n.val ≤ 0
      · simp [hp, hpos, reported, SyscallResult.failure]
      · simp only [hp, hpos, not_true_eq_false, ↓reduceIte]
        cases SystemTables.findStart _ _ _ with
        | error e => simp [reported, hpos]
        | ok start =>
          cases PyValue.member "MemoryPermission" MemoryPermission.ofValue? permissions <;>
            simp [reported, SyscallResult.ok, hpos]
  · simp [hp, reported, SyscallResult.failure]

theorem reported_memoryFree (regionId : PyValue) :
    reported (syscallMemoryFree t p regionId).2 = true ↔ (Syscall.memoryFree regionId).Refused t p := by
  simp only [syscallMemoryFree, Syscall.Refused]
  cases regionId.strKey with
  | error e => simp [reported]
  | ok key =>
    cases key with
    | none => simp [reported, SyscallResult.failure]
    | some id =>
      cases hregion : t.memoryRegions.get? id with
      | none => simp [hregion, reported, SyscallResult.failure]
      | some region =>
        by_cases howner : region.ownerPid = p <;>
          simp [hregion, howner, reported, SyscallResult.ok, SyscallResult.failure]

theorem reported_memoryMap (targetId localAddress permissions : PyValue) :
    reported (syscallMemoryMap uuid4 t p targetId localAddress permissions now).2 = true ↔
      (Syscall.memoryMap targetId localAddress permissions).Refused t p := by
  simp only [syscallMemoryMap, Syscall.Refused]
  cases targetId.strKey with
  | error e => simp [reported]
  | ok key =>
    cases key with
    | none => simp [reported, SyscallResult.failure]
    | some id =>
      cases hregion : t.memoryRegions.get? id with
      | none => simp [hregion, reported, SyscallResult.failure]
      | some region =>
        by_cases hdenied : region.memoryType ≠ .shared ∧ region.ownerPid ≠ p
        · simp [hregion, hdenied, reported, SyscallResult.failure]
        · simp only [if_neg hdenied, hregion]
          cases localAddress.operand with
          | error e => simpa [hregion, reported] using hdenied
          | ok address =>
            cases PyValue.member "MemoryPermission" MemoryPermission.ofValue? permissions <;>
              simpa [hregion, reported, SyscallResult.ok] using hdenied

theorem reported_ipcSend (targetId subject messageType payload : PyValue) :
    reported (syscallIpcSend uuid4 t p targetId subject messageType payload now).2 = true ↔
      (Syscall.ipcSend targetId subject messageType payload).Refused t p := by
  simp only [syscallIpcSend, ipcSendLocked, Syscall.Refused]
  by_cases hp : p ∈ t.processes
  · cases targetId.intKey with
    | error e => simp [hp, Progress.complete, reported]
    | ok key =>
      cases key with
      | none => simp [hp, Progress.complete, reported, SyscallResult.failure]
      | some q =>
        by_cases hq : q.val ∈ t.processes
        · simp only [hp, hq, not_true_eq_false, ↓reduceIte]
          cases PyValue.member "IPCMessageType" IPCMessageType.ofValue? messageType <;>
            simp [hq, Progress.complete, Continuation.run, reported, SyscallResult.ok]
        · simp [hp, hq, Progress.complete, reported, SyscallResult.failure]
  · simp [hp, Progress.complete, reported, SyscallResult.failure]

theorem reported_ipcReceive (wait : PyValue) :
    reported (syscallIpcReceive t p wait).2 = true ↔ (Syscall.ipcReceive wait).Refused t p := by
  simp only [syscallIpcReceive, ipcReceiveLocked, Syscall.Refused]
  by_cases hp : p ∈ t.processes
  · simp only [hp, not_true_eq_false, ↓reduceIte]
    cases t.messageQueues.getD p [] with
    | cons message messages => simp [Progress.complete, reported, SyscallResult.ok]
    | nil =>
      cases wait.truthy with
      | false => simp [Progress.complete, reported, SyscallResult.ok]
      | true => simp [Progress.complete, Continuation.run, blockProcess_of_mem _ hp, reported, SyscallResult.ok]
  · simp [hp, Progress.complete, reported, SyscallResult.failure]

theorem reported_performSyscall (call : Syscall) :
    reported (performSyscall uuid4 t p now call).2 = true ↔ call.Refused t p := by
  cases call with
  | processCreate name priority policy => exact reported_processCreate name priority policy
  | processExit exitCode => exact reported_processExit exitCode
  | processWait waitPid => exact reported_processWait waitPid
  | memoryAllocate size permissions => exact reported_memoryAllocate size permissions
  | memoryFree regionId => exact reported_memoryFree regionId
  | memoryMap targetId localAddress permissions => exact reported_memoryMap targetId localAddress permissions
  | ipcSend targetId subject messageType payload => exact reported_ipcSend targetId subject messageType payload
  | ipcReceive wait => exact reported_ipcReceive wait

end handlers

def CallRecord.made (n : ℤ) (c : CallRecord) : Bool := c.syscallNumber = n

def CallRecord.failed (n : ℤ) (c : CallRecord) : Bool := c.syscallNumber = n ∧ c.result.success = false

namespace CoreSystem

variable (uuid4 : ℕ → String)

def refusals (n : ℤ) (s : CoreSystem) : Event → ℕ
  | .syscall p m args timing =>
    match boundCall m args with
    | some call => if m = n then (reported (performSyscall uuid4 s.tables p timing.now call).2).toNat else 0
    | none => 0
  | .scheduler _ => 0

variable {uuid4} {s : CoreSystem} {n : ℤ} {stats : SyscallStats}

theorem settle_stats (hs : s.syscallStats.get? n = some stats) (t : SystemTables) (timing : Timing)
    (outcome : Except PyException SyscallResult) :
    ∃ stats', (({ s.countCall n with tables := t } : CoreSystem).settle n timing outcome).1.syscallStats.get? n =
        some stats' ∧ stats'.calls = stats.calls + 1 ∧
      stats'.errors = stats.errors + (raised outcome).toNat := by
  cases outcome with
  | ok result =>
    refine ⟨⟨stats.calls + 1, stats.errors, stats.totalTime + (timing.finish - timing.start)⟩, ?_, rfl, rfl⟩
    simp [settle, countCall, hs]
  | error e =>
    refine ⟨⟨stats.calls + 1, stats.errors + 1, stats.totalTime⟩, ?_, rfl, rfl⟩
    simp [settle, countCall, hs]

theorem settle_stats_of_ne {m : ℤ} (hm : n ≠ m) (t : SystemTables) (timing : Timing)
    (outcome : Except PyException SyscallResult) :
    (({ s.countCall m with tables := t } : CoreSystem).settle m timing outcome).1.syscallStats.get? n =
      s.syscallStats.get? n := by
  cases outcome with
  | ok result => simp [settle, countCall, Dict.get?_modify_of_ne _ _ hm]
  | error e => simp [settle, countCall, Dict.get?_modify_of_ne _ _ hm]

theorem invokeSyscall_settle {m : ℤ} {entry : SyscallEntry} (hentry : findSyscall m = some entry) (p : ℤ)
    (args : Kwargs) (timing : Timing) :
    ∃ t outcome, s.invokeSyscall uuid4 p m args timing =
        ({ s.countCall m with tables := t } : CoreSystem).settle m timing outcome ∧
      refusals uuid4 m s (.syscall p m args timing) = (reported outcome).toNat := by
  have hbound : boundCall m args = (entry.bind args).toOption := by
    rw [boundCall, hentry, Option.bind_some]
  have hrefusals : refusals uuid4 m s (.syscall p m args timing) =
      match (entry.bind args).toOption with
      | some call => (reported (performSyscall uuid4 s.tables p timing.now call).2).toNat
      | none => 0 := by
    rw [refusals, hbound]
    simp only [↓reduceIte]
  rw [hrefusals]
  unfold invokeSyscall
  rw [hentry]
  dsimp only
  cases entry.bind args with
  | error e => exact ⟨s.tables, .error e, rfl, rfl⟩
  | ok call => exact ⟨_, _, rfl, rfl⟩

theorem failed_settle (outcome : Except PyException SyscallResult) :
    (!(SyscallResult.ofOutcome outcome).success).toNat = (raised outcome).toNat + (reported outcome).toNat := by
  cases outcome with
  | ok result => simp [SyscallResult.ofOutcome, raised, reported]
  | error e => rfl

theorem stats_next (hn : (findSyscall n).isSome) (hs : s.syscallStats.get? n = some stats) (e : Event) :
    ∃ stats', (s.next uuid4 e).syscallStats.get? n = some stats' ∧
      stats'.calls = stats.calls + (s.record uuid4 e).countP (CallRecord.made n) ∧
      stats'.errors + refusals uuid4 n s e = stats.errors + (s.record uuid4 e).countP (CallRecord.failed n) := by
  cases e with
  | scheduler now => exact ⟨stats, hs, rfl, rfl⟩
  | syscall p m args timing =>
    by_cases hm : m = n
    · subst hm
      obtain ⟨entry, hentry⟩ := Option.isSome_iff_exists.mp hn
      obtain ⟨t, outcome, hinvoke, hrefusals⟩ := @invokeSyscall_settle uuid4 s m entry hentry p args timing
      obtain ⟨stats', hget, hcalls, herrors⟩ := settle_stats hs t timing outcome
      have hcount := failed_settle outcome
      refine ⟨stats', ?_, ?_, ?_⟩
      · rw [next, hinvoke, hget]
      · rw [hcalls]
        simp [record, CallRecord.made]
      · rw [herrors, hrefusals, record, hinvoke, settle_result, List.countP_singleton]
        cases hsuccess : (SyscallResult.ofOutcome outcome).success with
        | true =>
          simp [hsuccess, CallRecord.failed] at hcount ⊢
          omega
        | false =>
          simp [hsuccess, CallRecord.failed] at hcount ⊢
          omega
    · have hrefusals : refusals uuid4 n s (.syscall p m args timing) = 0 := by
        rw [refusals]
        split <;> simp [hm]
      refine ⟨stats, ?_, ?_, ?_⟩
      · rw [← hs, next]
        cases hentry : findSyscall m with
        | none =>
          rw [invokeSyscall, hentry]
        | some entry =>
          obtain ⟨t, outcome, hinvoke, -⟩ := @invokeSyscall_settle uuid4 s m entry hentry p args timing
          rw [hinvoke, settle_stats_of_ne (Ne.symm hm)]
      · simp [record, CallRecord.made, hm]
      · simp [hrefusals, record, CallRecord.failed, hm]

theorem stats_final (hn : (findSyscall n).isSome) (hs : s.syscallStats.get? n = some stats) (es : List Event) :
    ∃ stats', (Run.final (next uuid4) s es).syscallStats.get? n = some stats' ∧
      stats'.calls = stats.calls + (s.history uuid4 es).countP (CallRecord.made n) ∧
      stats'.errors + Run.total (next uuid4) (refusals uuid4 n) s es =
        stats.errors + (s.history uuid4 es).countP (CallRecord.failed n) := by
  induction es generalizing s stats with
  | nil => exact ⟨stats, hs, rfl, rfl⟩
  | cons e es ih =>
    obtain ⟨stats', hs', hcalls, herrors⟩ := @stats_next uuid4 s n stats hn hs e
    obtain ⟨stats'', hs'', hcalls', herrors'⟩ := ih hs'
    refine ⟨stats'', hs'', ?_, ?_⟩
    · rw [hcalls', hcalls, history, List.countP_append, Nat.add_assoc]
    · rw [Run.total, history, List.countP_append]
      omega

theorem refusals_eq_zero_iff (e : Event) :
    refusals uuid4 n s e = 0 ↔ s.Allows (fun t p call => call.number = n → ¬ call.Refused t p) e := by
  cases e with
  | scheduler now => exact iff_of_true rfl trivial
  | syscall p m args timing =>
    rw [refusals, Allows]
    cases hbound : boundCall m args with
    | none => simp
    | some call =>
      simp only [Option.some.injEq, forall_eq', boundCall_number hbound,
        ← @reported_performSyscall uuid4 s.tables p timing.now]
      by_cases hm : m = n <;> simp [hm]

theorem initializeSystem_stats (hn : (findSyscall n).isSome) (now : ℕ → Float) :
    (initializeSystem now).syscallStats.get? n = some {} := by
  obtain ⟨entry, hentry⟩ := Option.isSome_iff_exists.mp hn
  obtain rfl : entry.number = n := by simpa using List.find?_some hentry
  have hmem := List.mem_of_find?_eq_some hentry
  simp only [syscalls, List.mem_cons, List.not_mem_nil, or_false] at hmem
  rcases hmem with rfl | rfl | rfl | rfl | rfl | rfl | rfl | rfl
  all_goals rfl

theorem getSyscallStats_of_get? (hn : (findSyscall n).isSome) (hs : s.syscallStats.get? n = some stats) :
    ∃ report ∈ s.getSyscallStats, report.number = n ∧ report.calls = stats.calls ∧ report.errors = stats.errors := by
  obtain ⟨entry, hentry⟩ := Option.isSome_iff_exists.mp hn
  obtain rfl : entry.number = n := by simpa using List.find?_some hentry
  let report : SyscallReport := ⟨entry.number, entry.name, entry.category, stats.calls, stats.errors,
    stats.totalTime, stats.totalTime / Float.ofNat (max 1 stats.calls)⟩
  refine ⟨report, List.mem_filterMap.mpr ⟨entry, List.mem_of_find?_eq_some hentry, ?_⟩, rfl, rfl, rfl⟩
  rw [hs]
  rfl

theorem statistics_iff (uuid4 : ℕ → String) (now : ℕ → Float) (es : List Event) (n : ℤ)
    (hn : (findSyscall n).isSome) :
    ∃ stats, (run uuid4 now es).syscallStats.get? n = some stats ∧
      (∃ report ∈ (run uuid4 now es).getSyscallStats,
        report.number = n ∧ report.calls = stats.calls ∧ report.errors = stats.errors) ∧
      stats.calls = (runHistory uuid4 now es).countP (CallRecord.made n) ∧
      (stats.errors = (runHistory uuid4 now es).countP (CallRecord.failed n) ↔
        Run.Guarded (next uuid4) (Allows fun t p call => call.number = n → ¬ call.Refused t p)
          (initializeSystem now) es) := by
  obtain ⟨stats, hs, hcalls, herrors⟩ :=
    @stats_final uuid4 _ n _ hn (initializeSystem_stats hn now) es
  refine ⟨stats, hs, getSyscallStats_of_get? hn hs, by rw [hcalls, Nat.zero_add, runHistory], ?_⟩
  rw [Nat.zero_add] at herrors
  have hzero : stats.errors = (runHistory uuid4 now es).countP (CallRecord.failed n) ↔
      Run.total (next uuid4) (refusals uuid4 n) (initializeSystem now) es = 0 := by
    rw [runHistory]
    omega
  rw [hzero, Run.total_eq_zero_iff fun _ _ => Nat.zero_le _]
  constructor
  · exact Run.Guarded.imp fun _ _ => (refusals_eq_zero_iff _).mp
  · exact Run.Guarded.imp fun _ _ => (refusals_eq_zero_iff _).mpr

theorem statistics_iff_unbound : ∃ stats, (Sample.run [Sample.call 1 11 []]).syscallStats.get? 11 = some stats ∧
    stats.calls = 1 ∧ stats.errors = 1 := by
  obtain ⟨stats, hs, -, hcalls, herrors⟩ :=
    statistics_iff Sample.uuid4 Sample.timing.now [Sample.call 1 11 []] 11 rfl
  refine ⟨stats, hs, hcalls, herrors.mpr ⟨?_, trivial⟩⟩
  intro call hbound
  cases hbound

def strayFree : List Event := [Sample.call 1 11 [("region_id", .str "none")]]

theorem refused_call_uncounted : ¬ ∃ stats, (Sample.run strayFree).syscallStats.get? 11 = some stats ∧
    stats.calls = (runHistory Sample.uuid4 Sample.timing.now strayFree).countP (CallRecord.made 11) ∧
    stats.errors = (runHistory Sample.uuid4 Sample.timing.now strayFree).countP (CallRecord.failed 11) := by
  rintro ⟨stats, hs, -, herrors⟩
  have hzero : ((Sample.run strayFree).syscallStats.get? 11).map (·.errors) = some 0 := rfl
  rw [hs, Option.map_some, herrors] at hzero
  have hone : (runHistory Sample.uuid4 Sample.timing.now strayFree).countP (CallRecord.failed 11) = 1 := rfl
  rw [hone] at hzero
  cases hzero

end CoreSystem

end TrinityOS
