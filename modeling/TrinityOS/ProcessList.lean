import TrinityOS.Reports

namespace TrinityOS

open SystemTables
structure Birth where
  pid : ℤ
  parentPid : ℤ
  name : PyValue

def ProcessInfo.birth (process : ProcessInfo) : Birth := ⟨process.processId, process.parentId, process.name⟩

def ProcessReport.birth (report : ProcessReport) : Birth := ⟨report.pid, report.parentPid, report.name⟩

def CallRecord.birth (c : CallRecord) : Option Birth :=
  match c.syscallNumber, c.result.success, c.result.value with
  | 1, true, .pid pid => some ⟨pid, c.processId, arg c.args "name"⟩
  | _, _, _ => none

namespace SystemTables

def births (t : SystemTables) : List Birth := t.processes.values.map ProcessInfo.birth

variable {t : SystemTables} {p : ℤ} {f : ProcessInfo → ProcessInfo}

theorem getProcessList_births (t : SystemTables) :
    t.getProcessList.map (·.map ProcessReport.birth) = t.births.map some := by
  have hreport : t.getProcessList = (t.processes.keys.map t.processes.get?).map (·.map ProcessInfo.report) := by
    rw [getProcessList, List.map_map]
    rfl
  rw [hreport, Dict.map_get?_keys, births, List.map_map, List.map_map, List.map_map]
  rfl

theorem keys_terminateProcess (exitCode : PyValue) :
    (t.terminateProcess p exitCode).processes.keys = t.processes.keys := by
  simp only [terminateProcess, freeProcessMemory]
  split <;> simp [setState]

theorem keys_wakeTarget : (t.wakeTarget p).processes.keys = t.processes.keys := by
  unfold wakeTarget
  split
  · exact Dict.keys_modify _ _ _
  · rfl

theorem keys_admitProcess {newProcess : ProcessInfo} (h : newProcess.processId ∉ t.processes) (now : ℕ → Float) :
    (t.admitProcess newProcess now).processes.keys = t.processes.keys ++ [newProcess.processId] := by
  rw [← Dict.keys_set_of_not_mem h newProcess]
  simp [admitProcess, initProcessMemory, setState]

theorem keys_runScheduler (time : Float) : (t.runScheduler time).processes.keys = t.processes.keys := by
  cases hqueue : t.readyQueue with
  | nil => rw [runScheduler_nil t time hqueue]
  | cons pid rest =>
    simp only [runScheduler, hqueue]
    split
    · rfl
    · split
      · simp [executeProcess, setState]
      · split <;> simp [executeProcess, setState]

theorem births_eq (t : SystemTables) :
    t.births = t.processes.keys.filterMap fun q => (t.processes.get? q).map ProcessInfo.birth :=
  Dict.map_values_eq_filterMap _ _

theorem births_congr {t' : SystemTables} (hkeys : t'.processes.keys = t.processes.keys)
    (hget : ∀ q ∈ t.processes, (t'.processes.get? q).map ProcessInfo.birth = (t.processes.get? q).map ProcessInfo.birth) :
    t'.births = t.births := by
  rw [births_eq, births_eq, hkeys]
  apply List.filterMap_congr
  intro q hq
  exact hget q (Dict.mem_keys.mp hq)

theorem births_runScheduler (time : Float) : (t.runScheduler time).births = t.births := by
  apply births_congr (keys_runScheduler time)
  intro q _
  rcases runScheduler_get? t q time with h | ⟨process, -, hq, h⟩
  · rw [h]
  · rw [h, hq]
    rfl

structure PidsAscend (t : SystemTables) : Prop where
  below : t.PidsBelow
  listed : ∀ birth ∈ t.births, birth.pid < t.nextPid
  ordered : t.births.Pairwise fun a b => a.pid < b.pid

end SystemTables

variable {uuid4 : ℕ → String} {t t' : SystemTables} {p : ℤ} {now : ℕ → Float} {call : Syscall}
  {r : Except PyException SyscallResult}

theorem Effect.births_of_keys (h : Effect uuid4 t p now call t' r) (hfresh : t.nextPid ∉ t.processes)
    (hkeys : t'.processes.keys = t.processes.keys) : t'.births = t.births := by
  apply births_congr hkeys
  intro q hq
  apply h.map_get? fun _ _ _ _ => rfl
  rintro rfl
  exact hfresh hq

theorem Effect.births_created (h : Effect uuid4 t p now call t' r) (hfresh : t.nextPid ∉ t.processes)
    (hkeys : t'.processes.keys = t.processes.keys ++ [t.nextPid]) {process : ProcessInfo}
    (hnew : t'.processes.get? t.nextPid = some process) : t'.births = t.births ++ [process.birth] := by
  rw [births_eq, births_eq, hkeys, List.filterMap_append]
  congr 1
  · apply List.filterMap_congr
    intro q hq
    apply h.map_get? fun _ _ _ _ => rfl
    rintro rfl
    exact hfresh (Dict.mem_keys.mp hq)
  · simp [hnew]

theorem Effect.keys (h : Effect uuid4 t p now call t' r) (hfresh : t.nextPid ∉ t.processes) :
    (t'.processes.keys = t.processes.keys ∧ (call.number = 1 → Failed r)) ∨
      ∃ name priority policy process, call = .processCreate name priority policy ∧ r = .ok (.ok (.pid t.nextPid)) ∧
        t'.processes.keys = t.processes.keys ++ [t.nextPid] ∧ t'.nextPid = t.nextPid + 1 ∧
        t'.processes.get? t.nextPid = some process ∧ process.birth = ⟨t.nextPid, p, name⟩ := by
  cases h with
  | refused n u hn hu hr => exact .inl ⟨rfl, fun _ => hr⟩
  | @created name priority policy priority' policy' =>
    have hget := (admitProcess_get? { t with nextPid := t.nextPid + 1 } t.nextPid
      (newProcessInfo t.nextPid p name priority' policy' (now 0)) fun i => now (i + 1)).trans (if_pos rfl)
    exact .inr ⟨name, priority, policy, _, rfl, rfl, keys_admitProcess hfresh _, rfl, hget, rfl⟩
  | exited => exact .inl ⟨keys_terminateProcess _, by simp [Syscall.number]⟩
  | waiting | listening => exact .inl ⟨Dict.keys_modify _ _ _, by simp [Syscall.number]⟩
  | allocated | freed => exact .inl ⟨Dict.keys_modify _ _ _, by simp [Syscall.number]⟩
  | sent => exact .inl ⟨keys_wakeTarget, by simp [Syscall.number]⟩
  | _ => exact .inl ⟨rfl, by simp [Syscall.number]⟩

theorem Effect.births (h : Effect uuid4 t p now call t' r) (hfresh : t.nextPid ∉ t.processes) :
    (t'.births = t.births ∧ (call.number = 1 → Failed r)) ∨
      ∃ name priority policy, call = .processCreate name priority policy ∧ r = .ok (.ok (.pid t.nextPid)) ∧
        t'.births = t.births ++ [⟨t.nextPid, p, name⟩] ∧ t'.nextPid = t.nextPid + 1 := by
  rcases h.keys hfresh with ⟨hkeys, hfailed⟩ | ⟨name, priority, policy, process, hcall, hr, hkeys, hpid, hget, hbirth⟩
  · exact .inl ⟨h.births_of_keys hfresh hkeys, hfailed⟩
  · refine .inr ⟨name, priority, policy, hcall, hr, ?_, hpid⟩
    rw [h.births_created hfresh hkeys hget, hbirth]

theorem SystemTables.PidsAscend.effect (h : t.PidsAscend) (he : Effect uuid4 t p now call t' r) : t'.PidsAscend := by
  have hle := he.nextPid_le
  rcases he.births h.below.fresh with ⟨hsame, -⟩ | ⟨name, priority, policy, -, -, hnew, hpid⟩
  · refine ⟨he.pidsBelow h.below, ?_, ?_⟩
    · intro birth hbirth
      rw [hsame] at hbirth
      have := h.listed birth hbirth
      omega
    · rw [hsame]
      exact h.ordered
  · refine ⟨he.pidsBelow h.below, ?_, ?_⟩
    · intro birth hbirth
      rw [hnew, List.mem_append, List.mem_singleton] at hbirth
      rcases hbirth with hold | rfl
      · have := h.listed birth hold
        omega
      · dsimp only
        omega
    · rw [hnew, List.pairwise_append]
      refine ⟨h.ordered, List.pairwise_singleton _ _, ?_⟩
      intro birth hbirth birth' hbirth'
      obtain rfl := List.mem_singleton.mp hbirth'
      exact h.listed birth hbirth

theorem SystemTables.PidsAscend.runScheduler (h : t.PidsAscend) (time : Float) : (t.runScheduler time).PidsAscend := by
  refine ⟨runScheduler_pidsBelow h.below time, ?_, ?_⟩
  · rw [births_runScheduler, runScheduler_nextPid]
    exact h.listed
  · rw [births_runScheduler]
    exact h.ordered

theorem boundCall_processCreate {n : ℤ} {args : Kwargs} {name priority policy : PyValue}
    (h : boundCall n args = some (.processCreate name priority policy)) : n = 1 ∧ name = arg args "name" := by
  obtain rfl : 1 = n := boundCall_number h
  obtain ⟨entry, hentry, hcall⟩ := boundCall_entry h
  obtain rfl : syscalls.head (by decide) = entry := Option.some.inj hentry
  exact ⟨rfl, (Syscall.processCreate.inj hcall).1⟩

namespace CoreSystem

theorem births_next (s : CoreSystem) (e : Event) (hfresh : s.tables.nextPid ∉ s.tables.processes) :
    (s.next uuid4 e).tables.births = s.tables.births ++ (s.record uuid4 e).filterMap CallRecord.birth := by
  cases e with
  | scheduler time => simp [record, next, births_runScheduler]
  | syscall p n args timing =>
    have hrecord (result : SyscallResult) (h : (s.invokeSyscall uuid4 p n args timing).2 = result) :
        (s.record uuid4 (.syscall p n args timing)).filterMap CallRecord.birth =
          (CallRecord.birth ⟨p, n, args, result⟩).toList := by
      rw [record, h, List.filterMap_cons]
      cases CallRecord.birth ⟨p, n, args, result⟩ <;> rfl
    have hfailed (result : SyscallResult) (h : n = 1 → result.success = false) :
        CallRecord.birth ⟨p, n, args, result⟩ = none := by
      unfold CallRecord.birth
      split
      · simp_all
      · rfl
    cases hbound : boundCall n args with
    | none =>
      obtain ⟨htables, hresult⟩ := @invokeSyscall_unbound uuid4 s p _ _ timing hbound
      rw [hrecord _ rfl, hfailed _ fun _ => hresult, next, htables]
      simp
    | some call =>
      obtain ⟨htables, hresult⟩ := @invokeSyscall_bound uuid4 s p _ _ timing _ hbound
      rw [hrecord _ hresult, next, htables]
      rcases (performSyscall_effect call).births hfresh with
        ⟨hsame, hnone⟩ | ⟨name, priority, policy, rfl, hr, hnew, -⟩
      · rw [hfailed, hsame]
        · simp
        · rintro rfl
          exact Failed.ofOutcome.mp (hnone (boundCall_number hbound))
      · obtain ⟨rfl, rfl⟩ := boundCall_processCreate hbound
        rw [hnew, hr]
        rfl

def firstBirths : List Birth := [⟨0, 0, .str "kernel"⟩, ⟨1, 0, .str "init"⟩]

theorem initializeSystem_births (now : ℕ → Float) : (initializeSystem now).tables.births = firstBirths := rfl

theorem initializeSystem_pidsAscend (now : ℕ → Float) : (initializeSystem now).tables.PidsAscend := by
  refine ⟨initializeSystem_pidsBelow now, ?_, ?_⟩
  · change ∀ birth ∈ firstBirths, birth.pid < 1000
    simp [firstBirths]
  · rw [initializeSystem_births]
    simp [firstBirths]

theorem run_pidsAscend (uuid4 : ℕ → String) (now : ℕ → Float) (es : List Event) :
    (run uuid4 now es).tables.PidsAscend :=
  run_tables initializeSystem_pidsAscend (fun _ _ _ _ _ _ h he => h.effect he) (fun _ time h => h.runScheduler time)
    now es

theorem run_births (uuid4 : ℕ → String) (now : ℕ → Float) (es : List Event) :
    (run uuid4 now es).tables.births = firstBirths ++ (runHistory uuid4 now es).filterMap CallRecord.birth := by
  induction es using List.reverseRecOn with
  | nil => rfl
  | append_singleton es e ih =>
    rw [run_concat, runHistory_concat, births_next _ _ (run_pidsAscend uuid4 now es).below.fresh, ih,
      List.filterMap_append, List.append_assoc]

theorem process_list_history (uuid4 : ℕ → String) (now : ℕ → Float) (es : List Event) :
    (run uuid4 now es).tables.getProcessList.map (·.map ProcessReport.birth) =
        (firstBirths ++ (runHistory uuid4 now es).filterMap CallRecord.birth).map some ∧
      (firstBirths ++ (runHistory uuid4 now es).filterMap CallRecord.birth).Pairwise fun a b => a.pid < b.pid := by
  rw [getProcessList_births, ← run_births]
  exact ⟨rfl, (run_pidsAscend uuid4 now es).ordered⟩

end CoreSystem

end TrinityOS
