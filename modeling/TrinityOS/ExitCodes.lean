import TrinityOS.SystemInfo

namespace TrinityOS

open SystemTables

def CallRecord.exitCodeOf (q : ℤ) (c : CallRecord) : Option PyValue :=
  if c.syscallNumber = 2 ∧ c.processId = q ∧ c.result.success = true then some (arg c.args "exit_code" (.int 0))
  else none

namespace SystemTables

def exitCode (t : SystemTables) (q : ℤ) : Option PyValue :=
  (t.processes.get? q).bind fun process => process.metadata.get? "exit_code"

def ExitsRecorded (t : SystemTables) : Prop :=
  ∀ q, t.readyTable.status q = some .terminated → (t.exitCode q).isSome

variable {t t' : SystemTables} {p q w : ℤ} {f : ProcessInfo → ProcessInfo}

theorem exitCode_modify (hget : t'.processes.get? q = if q = w then (t.processes.get? w).map f else t.processes.get? q)
    (hf : ∀ process, (f process).metadata = process.metadata) : t'.exitCode q = t.exitCode q := by
  rw [exitCode, hget, exitCode]
  split_ifs with hq
  · rw [hq]
    cases t.processes.get? w with
    | none => rfl
    | some process => exact congrArg (fun metadata => Dict.get? metadata "exit_code") (hf process)
  · rfl

theorem exitCode_runScheduler (time : Float) : (t.runScheduler time).exitCode q = t.exitCode q := by
  rcases runScheduler_get? t q time with h | ⟨process, -, hq, h⟩
  · rw [exitCode, h, exitCode]
  · rw [exitCode, h, exitCode, hq]
    rfl

theorem exitCode_terminateProcess (hp : p ∈ t.processes) (code : PyValue) :
    (t.terminateProcess p code).exitCode q = if q = p then some code else t.exitCode q := by
  obtain ⟨process, hp⟩ := Dict.mem_iff.mp hp
  rw [exitCode, terminateProcess_get?]
  split_ifs with hq
  · simp [hp, terminated]
  · rfl

theorem exitCode_of_not_mem (h : q ∉ t.processes) : t.exitCode q = none := by
  rw [exitCode, Dict.not_mem_iff.mp h]
  rfl

end SystemTables

variable {uuid4 : ℕ → String} {t t' : SystemTables} {p q : ℤ} {now : ℕ → Float} {call : Syscall}
  {r : Except PyException SyscallResult}

theorem Effect.exitCode (h : Effect uuid4 t p now call t' r) (hfresh : t.nextPid ∉ t.processes) :
    (t'.exitCode q = t.exitCode q ∧ (call.number = 2 → p = q → Failed r)) ∨
      ∃ code, call = .processExit code ∧ p = q ∧ r = .ok (.ok .none) ∧ t'.exitCode q = some code := by
  cases h with
  | refused n u hn hu hr => exact .inl ⟨rfl, fun _ _ => hr⟩
  | created =>
    refine .inl ⟨?_, by simp [Syscall.number]⟩
    by_cases hq : q = t.nextPid
    · rw [hq, exitCode_of_not_mem hfresh, SystemTables.exitCode, admitProcess_get?]
      exact (congrArg (fun o => Option.bind o _) (if_pos rfl)).trans rfl
    · rw [SystemTables.exitCode, admitProcess_get?]
      exact congrArg (fun o => Option.bind o _) (if_neg hq)
  | @exited code hp =>
    by_cases hq : p = q
    · exact .inr ⟨code, rfl, hq, rfl, by rw [exitCode_terminateProcess hp, if_pos hq.symm]⟩
    · refine .inl ⟨?_, fun _ he => absurd he hq⟩
      rw [exitCode_terminateProcess hp, if_neg (Ne.symm hq)]
  | waiting | listening =>
    refine .inl ⟨?_, by simp [Syscall.number]⟩
    exact exitCode_modify (parkProcess_get? { t with readyQueue := t.readyQueue.erase p } p q _) fun _ => rfl
  | allocated n => exact .inl ⟨exitCode_modify (addMemoryUsage_get? _ p q n.val) fun _ => rfl, by simp [Syscall.number]⟩
  | freed id region =>
    exact .inl ⟨exitCode_modify (deleteRegion_get? t p q region id) fun _ => rfl, by simp [Syscall.number]⟩
  | sent w =>
    refine .inl ⟨?_, by simp [Syscall.number]⟩
    unfold wakeTarget
    split
    · exact exitCode_modify (t := t) (setState_get? _ w.val q .ready) fun _ => rfl
    · rfl
  | _ => exact .inl ⟨rfl, by simp [Syscall.number]⟩

theorem Effect.exitsRecorded (h : Effect uuid4 t p now call t' r) (hfresh : t.nextPid ∉ t.processes)
    (hrec : t.ExitsRecorded) : t'.ExitsRecorded := by
  intro q hq
  rcases h.exitCode (q := q) hfresh with ⟨hsame, hfailed⟩ | ⟨code, -, -, -, hcode⟩
  · rw [hsame]
    rcases h.status (q := q) with hstatus | hready | hblocked | ⟨-, hcall, hp, hr⟩
    · exact hrec q (hstatus ▸ hq)
    · rw [hready] at hq
      cases hq
    · rw [hblocked] at hq
      cases hq
    · exact absurd (hfailed hcall hp) hr
  · rw [hcode]
    rfl

theorem SystemTables.ExitsRecorded.runScheduler (h : t.ExitsRecorded) (time : Float) :
    (t.runScheduler time).ExitsRecorded := by
  intro q hq
  rw [exitCode_runScheduler]
  rcases runScheduler_get? t q time with hget | ⟨process, -, -, hget⟩
  · apply h q
    rw [← hq]
    simp only [readyTable, hget]
  · simp [readyTable, hget, scheduled] at hq

theorem Effect.reaps {code : PyValue} (h : Effect uuid4 t p now call t' r)
    (hr : SyscallResult.ofOutcome r = .ok (.exitCode code)) :
    ∃ waitPid q target, call = .processWait waitPid ∧ waitPid.intKey = .ok (some q) ∧
      t.processes.get? q.val = some target ∧ target.state = .terminated ∧
      target.metadata.getD "exit_code" (.int 0) = code := by
  cases h with
  | refused _ _ _ _ hfailed =>
    rw [Failed.ofOutcome, hr] at hfailed
    cases hfailed
  | reaped q target hkey hq hdead =>
    refine ⟨_, q, target, rfl, hkey, hq, hdead, ?_⟩
    simpa [SyscallResult.ofOutcome, SyscallResult.ok] using hr
  | _ => simp [SyscallResult.ofOutcome, SyscallResult.ok, SyscallResult.raised, IPCMessage.received] at hr

theorem boundCall_processExit {n : ℤ} {args : Kwargs} {code : PyValue}
    (h : boundCall n args = some (.processExit code)) : n = 2 ∧ code = arg args "exit_code" (.int 0) := by
  obtain rfl : 2 = n := boundCall_number h
  obtain ⟨entry, hentry, hcall⟩ := boundCall_entry h
  obtain rfl : syscalls.get ⟨1, by decide⟩ = entry := Option.some.inj hentry
  exact ⟨rfl, Syscall.processExit.inj hcall⟩

theorem boundCall_processWait {n : ℤ} {args : Kwargs} {waitPid : PyValue}
    (h : boundCall n args = some (.processWait waitPid)) : n = 3 ∧ waitPid = arg args "wait_pid" := by
  obtain rfl : 3 = n := boundCall_number h
  obtain ⟨entry, hentry, hcall⟩ := boundCall_entry h
  obtain rfl : syscalls.get ⟨2, by decide⟩ = entry := Option.some.inj hentry
  exact ⟨rfl, Syscall.processWait.inj hcall⟩

namespace CoreSystem

def ExitsLogged (history : List CallRecord) (s : CoreSystem) : Prop :=
  ∀ q, s.tables.exitCode q = (history.filterMap (CallRecord.exitCodeOf q)).getLast?

variable {s : CoreSystem} {history : List CallRecord}

theorem ExitsLogged.of_same {records : List CallRecord} {s' : CoreSystem} (h : s.ExitsLogged history)
    (hcode : s'.tables.exitCode q = s.tables.exitCode q)
    (hrecords : records.filterMap (CallRecord.exitCodeOf q) = []) :
    s'.tables.exitCode q = ((history ++ records).filterMap (CallRecord.exitCodeOf q)).getLast? := by
  rw [List.filterMap_append, hrecords, List.append_nil, hcode, h q]

theorem exitsLogged_next (h : s.ExitsLogged history) (hfresh : s.tables.nextPid ∉ s.tables.processes) (e : Event) :
    (s.next uuid4 e).ExitsLogged (history ++ s.record uuid4 e) := by
  intro q
  cases e with
  | scheduler time => exact h.of_same (exitCode_runScheduler time) rfl
  | syscall p n args timing =>
    have hrecord (result : SyscallResult) (hresult : (s.invokeSyscall uuid4 p n args timing).2 = result) :
        s.record uuid4 (.syscall p n args timing) = [⟨p, n, args, result⟩] := by rw [record, hresult]
    have hnone {result : SyscallResult} (hfailed : n = 2 → p = q → result.success = false) :
        [CallRecord.mk p n args result].filterMap (CallRecord.exitCodeOf q) = [] := by
      simp only [List.filterMap_cons, CallRecord.exitCodeOf, List.filterMap_nil]
      split_ifs with hexit
      · rw [hfailed hexit.1 hexit.2.1] at hexit
        simp at hexit
      · rfl
    cases hbound : boundCall n args with
    | none =>
      obtain ⟨htables, hresult⟩ := @invokeSyscall_unbound uuid4 s p _ _ timing hbound
      rw [hrecord _ rfl]
      apply h.of_same _ (hnone fun _ _ => hresult)
      rw [next, htables]
    | some call =>
      obtain ⟨htables, hresult⟩ := @invokeSyscall_bound uuid4 s p _ _ timing _ hbound
      rw [hrecord _ hresult, next]
      rcases (performSyscall_effect call).exitCode (q := q) hfresh with
        ⟨hsame, hfailed⟩ | ⟨code, rfl, hp, hr, hcode⟩
      · apply h.of_same (by rw [htables]; exact hsame)
        apply hnone
        rintro hn hp
        exact Failed.ofOutcome.mp (hfailed ((boundCall_number hbound).trans hn) hp)
      · obtain ⟨rfl, rfl⟩ := boundCall_processExit hbound
        rw [htables, hr, hcode, List.filterMap_append]
        simp [CallRecord.exitCodeOf, hp, SyscallResult.ofOutcome, SyscallResult.ok]

theorem run_exitsLogged (uuid4 : ℕ → String) (now : ℕ → Float) (es : List Event) :
    (run uuid4 now es).ExitsLogged (runHistory uuid4 now es) := by
  induction es using List.reverseRecOn with
  | nil =>
    intro q
    change (initializeSystem now).tables.exitCode q = none
    simp only [SystemTables.exitCode, initializeSystem, initMemory, registerRegion_processes, registerSyscalls,
      Dict.get?_set]
    split_ifs <;> rfl
  | append_singleton es e ih =>
    rw [run_concat, runHistory_concat]
    exact exitsLogged_next ih (run_pidsBelow uuid4 now es).fresh e

theorem run_exitsRecorded (uuid4 : ℕ → String) (now : ℕ → Float) (es : List Event) :
    (run uuid4 now es).tables.ExitsRecorded := by
  suffices h : (run uuid4 now es).tables.PidsBelow ∧ (run uuid4 now es).tables.ExitsRecorded from h.2
  refine run_tables (P := fun t => t.PidsBelow ∧ t.ExitsRecorded) ?_ ?_ ?_ now es
  · intro now
    refine ⟨initializeSystem_pidsBelow now, fun q hq => ?_⟩
    rw [initializeSystem_readyTable] at hq
    simp only [Function.update_apply] at hq
    split_ifs at hq <;> cases hq
  · rintro t p now call t' r ⟨hb, hrec⟩ he
    exact ⟨he.pidsBelow hb, he.exitsRecorded hb.fresh hrec⟩
  · rintro t time ⟨hb, hrec⟩
    exact ⟨runScheduler_pidsBelow hb time, hrec.runScheduler time⟩

theorem exit_code_of_last_exit (uuid4 : ℕ → String) (now : ℕ → Float) (es : List Event) (p n : ℤ) (args : Kwargs)
    (timing : Timing) (code : PyValue)
    (hcode : ((run uuid4 now es).invokeSyscall uuid4 p n args timing).2 = .ok (.exitCode code)) :
    n = 3 ∧ ∃ q : PyInt, (arg args "wait_pid").intKey = .ok (some q) ∧
      ((runHistory uuid4 now es).filterMap (CallRecord.exitCodeOf q.val)).getLast? = some code := by
  cases hbound : boundCall n args with
  | none =>
    have hfailed := (@invokeSyscall_unbound uuid4 (run uuid4 now es) p _ _ timing hbound).2
    rw [hcode] at hfailed
    cases hfailed
  | some call =>
    have hresult := (@invokeSyscall_bound uuid4 (run uuid4 now es) p _ _ timing _ hbound).2
    rw [hcode] at hresult
    have heffect := @performSyscall_effect uuid4 (run uuid4 now es).tables p timing.now call
    obtain ⟨waitPid, q, target, rfl, hkey, hq, hdead, hreturned⟩ := heffect.reaps hresult.symm
    obtain ⟨rfl, rfl⟩ := boundCall_processWait hbound
    have hexit := run_exitsRecorded uuid4 now es q.val (status_eq_some.mpr ⟨target, hq, hdead⟩)
    have hlogged := run_exitsLogged uuid4 now es q.val
    refine ⟨rfl, q, hkey, ?_⟩
    rw [SystemTables.exitCode, hq, Option.bind_some] at hexit hlogged
    obtain ⟨code', hcode'⟩ := Option.isSome_iff_exists.mp hexit
    rw [← hlogged, hcode', ← hreturned, Dict.getD_of_get? hcode']

def exitTwice : List Event :=
  [Sample.call 1 2 [("exit_code", .int 3)], Sample.call 1 2 [("exit_code", .int 4)]]

theorem exit_code_of_last_exit_twice : (3 : ℤ) = 3 ∧ ∃ q : PyInt,
    (arg (.ofList [("wait_pid", .int 1)]) "wait_pid").intKey = .ok (some q) ∧
      ((runHistory Sample.uuid4 Sample.timing.now exitTwice).filterMap (CallRecord.exitCodeOf q.val)).getLast? =
        some (.int 4) :=
  exit_code_of_last_exit Sample.uuid4 Sample.timing.now exitTwice 0 3 _ Sample.timing _ rfl

end CoreSystem

end TrinityOS
