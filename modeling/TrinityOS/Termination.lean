import TrinityOS.EffectFrames
import TrinityOS.SchedulerConsistency

namespace TrinityOS

open SystemTables

structure SystemTables.TerminatedWith (p : ℤ) (exitCode : PyValue) (switches : ℕ) (t : SystemTables) : Prop where
  entry : ∃ process, t.processes.get? p = some process ∧ process.state = .terminated ∧
    process.metadata.get? "exit_code" = some exitCode ∧ process.contextSwitches = switches
  not_ready : p ∉ t.readyQueue
  not_blocked : p ∉ t.blockedProcesses

namespace CoreSystem

def Terminated (uuid4 : ℕ → String) (p : ℤ) (exitCode : PyValue) (switches : ℕ) (s : CoreSystem) : Prop :=
  s.tables.TerminatedWith p exitCode switches ∧
    ∀ w n args timing waitPid q, boundCall n args = some (.processWait waitPid) →
      waitPid.intKey = .ok (some q) → q.val = p →
      (s.invokeSyscall uuid4 w n args timing).2 = .ok (.exitCode exitCode)

/-- The calls that `p` itself must not make once it has terminated: another exit with a
different code, a wait for a live process, and a receive that blocks. -/
def KeepsTerminated (p : ℤ) (exitCode : PyValue) (t : SystemTables) (q : ℤ) (call : Syscall) : Prop :=
  q = p →
    match call with
    | .processExit exitCode' => exitCode' = exitCode
    | .processWait waitPid => ∀ w, waitPid.intKey = .ok (some w) → ¬ t.Live w.val
    | .ipcReceive wait => wait.truthy = true → t.messageQueues.getD p [] ≠ []
    | _ => True

end CoreSystem

variable {uuid4 : ℕ → String} {t t' : SystemTables} {p q : ℤ} {now : ℕ → Float} {call : Syscall}
  {r : Except PyException SyscallResult} {exitCode : PyValue} {switches : ℕ}

namespace SystemTables.TerminatedWith

theorem mem (h : t.TerminatedWith p exitCode switches) : p ∈ t.processes := by
  obtain ⟨process, hp, -⟩ := h.entry
  exact Dict.mem_of_get? hp

theorem not_listening (h : t.TerminatedWith p exitCode switches) :
    t.blockedProcesses.get? p ≠ some "ipc_receive" := by
  rw [Dict.not_mem_iff.mp h.not_blocked]
  exact Option.some_ne_none _ ∘ Eq.symm

theorem of_frame (h : t.TerminatedWith p exitCode switches) (hentry : t'.processes.get? p = t.processes.get? p)
    (hready : p ∈ t'.readyQueue → p ∈ t.readyQueue)
    (hblocked : t'.blockedProcesses.get? p = t.blockedProcesses.get? p) :
    t'.TerminatedWith p exitCode switches where
  entry := by rw [hentry]; exact h.entry
  not_ready hr := h.not_ready (hready hr)
  not_blocked hb := h.not_blocked (by rwa [Dict.mem_def, ← hblocked])

theorem runScheduler (h : t.TerminatedWith p exitCode switches) (time : Float) :
    (t.runScheduler time).TerminatedWith p exitCode switches := by
  rcases runScheduler_get? t p time with hget | ⟨process, hhead, -, -⟩
  · exact h.of_frame hget (mem_of_runScheduler_readyQueue t p time) (by rw [runScheduler_blockedProcesses])
  · exact absurd (List.mem_of_mem_head? hhead) h.not_ready

theorem ready_of_effect (h : t.TerminatedWith p exitCode switches) (hpid : p ≠ t.nextPid)
    (he : Effect uuid4 t q now call t' r) (hr : p ∈ t'.readyQueue) : p ∈ t.readyQueue := by
  rcases he.mem_readyQueue hr with hm | hn | hl
  · exact hm
  · exact absurd hn hpid
  · exact absurd hl h.not_listening

theorem send (h : t.TerminatedWith p exitCode switches) (message : IPCMessage) :
    ((t.drawUuid.appendMessage p message).wakeTarget p).TerminatedWith p exitCode switches := by
  rw [wakeTarget_of_not_listening (t.drawUuid.appendMessage p message) p h.not_listening]
  exact h.of_frame rfl id rfl

theorem effect_of_other (h : t.TerminatedWith p exitCode switches) (hpid : p ≠ t.nextPid) (hqp : p ≠ q)
    (he : Effect uuid4 t q now call t' r) : t'.TerminatedWith p exitCode switches := by
  by_cases hs : call.SendsTo p ∧ ¬ Failed r
  · obtain ⟨_, subject, _, payload, messageType, -, -, -, -, rfl, -⟩ := he.sends_to hs.1 hs.2
    exact h.send _
  · obtain ⟨hentry, hblocked, -⟩ := he.frame hqp hpid (by tauto)
    exact h.of_frame hentry (h.ready_of_effect hpid he) hblocked

theorem exit_again (h : t.TerminatedWith p exitCode switches) :
    (t.terminateProcess p exitCode).TerminatedWith p exitCode switches where
  entry := by
    obtain ⟨process, hp, -, -, hswitches⟩ := h.entry
    exact ⟨t.terminated p exitCode process, by simp [hp], rfl, Dict.get?_set_self _ _ _, hswitches⟩
  not_ready hr := h.not_ready (List.mem_of_mem_erase (by simpa using hr))
  not_blocked := by simp [Dict.mem_del]

theorem effect_of_self (h : t.TerminatedWith p exitCode switches) (hpid : p ≠ t.nextPid)
    (he : Effect uuid4 t p now call t' r)
    (hexit : ∀ exitCode', call = .processExit exitCode' → exitCode' = exitCode)
    (hwait : ∀ waitPid w, call = .processWait waitPid → waitPid.intKey = .ok (some w) → ¬ t.Live w.val)
    (hreceive : ∀ wait, call = .ipcReceive wait → wait.truthy = true → t.messageQueues.getD p [] ≠ []) :
    t'.TerminatedWith p exitCode switches := by
  have hready := h.ready_of_effect hpid he
  obtain ⟨process, hp, hstate, hcode, hswitches⟩ := h.entry
  cases he with
  | created => exact h.of_frame (by simp [newProcessInfo, hpid]) hready rfl
  | exited => rw [hexit _ rfl]; exact h.exit_again
  | waiting w target hkey hw hlive => exact absurd ⟨target, hw, hlive⟩ (hwait _ w rfl hkey)
  | listening _ hqueue htruthy => exact absurd hqueue (hreceive _ rfl htruthy)
  -- the calls that a dead process may still make change other fields of its entry only
  | allocated n =>
    exact ⟨⟨{ process with memoryUsage := process.memoryUsage + n.val }, by simp [hp], hstate, hcode, hswitches⟩,
      h.not_ready, h.not_blocked⟩
  | freed _ region =>
    exact ⟨⟨{ process with memoryUsage := process.memoryUsage + -region.size }, by simp [hp], hstate, hcode,
      hswitches⟩, h.not_ready, h.not_blocked⟩
  | @sent _ subject _ payload w messageType =>
    by_cases hpw : p = w.val
    · rw [← hpw]; exact h.send _
    · refine h.of_frame ?_ hready ?_
      all_goals
        unfold wakeTarget
        split <;> simp [hpw, Dict.get?_del]
  | _ => exact h.of_frame rfl hready rfl

theorem wait_result (h : t.TerminatedWith p exitCode switches) {w : ℤ} {waitPid : PyValue} {k : PyInt}
    (hkey : waitPid.intKey = .ok (some k)) (hk : k.val = p) :
    (syscallProcessWait t w waitPid).2 = .ok (.ok (.exitCode exitCode)) := by
  obtain ⟨process, hp, hstate, hcode, -⟩ := h.entry
  rw [← hk] at hp
  rw [processWait_of_terminated hkey hp hstate, Dict.getD, hcode]
  rfl

theorem not_park {reason : String} : ¬ (t.parkProcess p reason).TerminatedWith p exitCode switches :=
  fun h => h.not_blocked (by simp [Dict.mem_set])

theorem of_exit (hc : ReadyTable.Consistent .ready .blocked (t.terminateProcess p exitCode).readyTable)
    (hp : p ∈ t.processes) : ∃ switches, (t.terminateProcess p exitCode).TerminatedWith p exitCode switches := by
  obtain ⟨process, hp⟩ := Dict.mem_iff.mp hp
  have hentry : (t.terminateProcess p exitCode).processes.get? p = some (t.terminated p exitCode process) := by
    simp [hp]
  have hstatus : (t.terminateProcess p exitCode).readyTable.status p = some .terminated :=
    status_eq_some.mpr ⟨_, hentry, rfl⟩
  refine ⟨process.contextSwitches, ⟨_, hentry, rfl, Dict.get?_set_self _ _ _, rfl⟩, ?_, ?_⟩
  · exact hc.not_mem_of_status (by simp [hstatus])
  · exact Dict.not_mem_iff.mpr (hc.blocked_eq_none (by simp [hstatus]))

end SystemTables.TerminatedWith

namespace CoreSystem

theorem terminated_iff {s : CoreSystem} :
    s.Terminated uuid4 p exitCode switches ↔ s.tables.TerminatedWith p exitCode switches := by
  refine ⟨And.left, fun h => ⟨h, ?_⟩⟩
  intro w n args timing waitPid k hcall hkey hk
  rw [(invokeSyscall_bound s w timing hcall).2]
  change SyscallResult.ofOutcome (syscallProcessWait s.tables w waitPid).2 = _
  rw [h.wait_result hkey hk]
  rfl

theorem terminatedWith_call (hb : t.PidsBelow) (h : t.TerminatedWith p exitCode switches)
    (hok : KeepsTerminated p exitCode t q call) (he : Effect uuid4 t q now call t' r) :
    t'.TerminatedWith p exitCode switches := by
  have hpid : p ≠ t.nextPid := fun heq => hb.fresh (heq ▸ h.mem)
  by_cases hqp : q = p
  · subst hqp
    have hkeeps := hok rfl
    apply h.effect_of_self hpid he
    · rintro exitCode' rfl
      exact hkeeps
    · rintro waitPid w rfl hkey
      exact hkeeps w hkey
    · rintro wait rfl
      exact hkeeps
  · exact h.effect_of_other hpid (Ne.symm hqp) he

theorem keepsTerminated_of_call (h : t.TerminatedWith p exitCode switches)
    (h' : (performSyscall uuid4 t q now call).1.TerminatedWith p exitCode switches) :
    KeepsTerminated p exitCode t q call := by
  rintro rfl
  cases call with
  | processExit exitCode' =>
    rw [performSyscall, processExit_of_mem exitCode' h.mem] at h'
    obtain ⟨process, hp, -⟩ := h.entry
    obtain ⟨process', hp', -, hcode, -⟩ := h'.entry
    obtain rfl : t.terminated q exitCode' process = process' := by simpa [hp] using hp'
    have hset := Dict.get?_set_self process.metadata "exit_code" exitCode'
    exact Option.some.inj (hset.symm.trans hcode)
  | processWait waitPid =>
    rintro w hkey ⟨target, hw, hlive⟩
    rw [performSyscall, processWait_of_live hkey hw hlive h.mem] at h'
    exact h'.not_park
  | ipcReceive wait =>
    intro htruthy hqueue
    rw [performSyscall, ipcReceive_of_empty h.mem hqueue htruthy] at h'
    exact h'.not_park
  | _ => trivial

theorem terminated_always_iff (uuid4 : ℕ → String) (now : ℕ → Float) (es : List Event) (p n : ℤ) (args : Kwargs)
    (timing : Timing) (exitCode : PyValue) (hcall : boundCall n args = some (.processExit exitCode))
    (hsuccess : ((run uuid4 now es).invokeSyscall uuid4 p n args timing).2.success = true) :
    ∃ switches, ∀ later,
      Run.Always (next uuid4) (Terminated uuid4 p exitCode switches)
          ((run uuid4 now es).invokeSyscall uuid4 p n args timing).1 later ↔
        Run.Guarded (next uuid4) (Allows (KeepsTerminated p exitCode))
          ((run uuid4 now es).invokeSyscall uuid4 p n args timing).1 later := by
  set s := run uuid4 now es with hs
  have hrun : (s.invokeSyscall uuid4 p n args timing).1 = run uuid4 now (es ++ [.syscall p n args timing]) :=
    (run_concat uuid4 now es (.syscall p n args timing)).symm
  have hinvoke := @invokeSyscall_bound uuid4 s p n args timing _ hcall
  have hp : p ∈ s.tables.processes := by
    by_contra hn
    rw [hinvoke.2] at hsuccess
    simp [performSyscall, syscallProcessExit, hn, SyscallResult.ofOutcome, SyscallResult.failure] at hsuccess
  have htables : (s.invokeSyscall uuid4 p n args timing).1.tables = s.tables.terminateProcess p exitCode := by
    rw [hinvoke.1]
    exact congrArg Prod.fst (processExit_of_mem exitCode hp)
  have hconsistent := run_consistent uuid4 now (es ++ [.syscall p n args timing])
  rw [← hrun, htables] at hconsistent
  obtain ⟨switches, hfirst⟩ := SystemTables.TerminatedWith.of_exit hconsistent hp
  refine ⟨switches, fun later => ?_⟩
  have hterminated : Terminated uuid4 p exitCode switches =
      fun s => s.tables.TerminatedWith p exitCode switches := funext fun _ => propext terminated_iff
  rw [hterminated]
  apply always_iff_allows (J := fun t => t.PidsBelow ∧ t.TerminatedWith p exitCode switches)
  · rintro t ⟨-, h⟩
    exact h
  · rintro t q now call t' r ⟨hb, h⟩ hok he
    exact ⟨he.pidsBelow hb, terminatedWith_call hb h hok he⟩
  · rintro t time ⟨hb, h⟩
    exact ⟨runScheduler_pidsBelow hb time, h.runScheduler time⟩
  · rintro t q now call ⟨-, h⟩ h'
    exact keepsTerminated_of_call h h'
  · rw [htables]
    refine ⟨?_, hfirst⟩
    rw [← htables, hrun]
    exact run_pidsBelow uuid4 now _

theorem terminated_always_iff_init : ∃ switches, ∀ later,
    Run.Always (next Sample.uuid4) (Terminated Sample.uuid4 1 (.int 0) switches)
        ((run Sample.uuid4 Sample.timing.now []).invokeSyscall Sample.uuid4 1 2 .empty Sample.timing).1 later ↔
      Run.Guarded (next Sample.uuid4) (Allows (KeepsTerminated 1 (.int 0)))
        ((run Sample.uuid4 Sample.timing.now []).invokeSyscall Sample.uuid4 1 2 .empty Sample.timing).1 later :=
  terminated_always_iff Sample.uuid4 Sample.timing.now [] 1 2 .empty Sample.timing (.int 0) rfl rfl

theorem terminated_process_scheduled :
    (Sample.run [Sample.call 1 2 []]).Terminated Sample.uuid4 1 (.int 0) 0 ∧
      ¬ Run.Always (next Sample.uuid4) (Terminated Sample.uuid4 1 (.int 0) 0)
        (Sample.run [Sample.call 1 2 []])
        [Sample.call 1 21 [], Sample.call 0 20 [("target_id", .int 1), ("subject", .str "wake")],
          .scheduler 0] := by
  constructor
  · exact terminated_iff.mpr ⟨⟨_, rfl, rfl, rfl, rfl⟩, by decide, by decide⟩
  · intro h
    obtain ⟨process, hp, hstate, -⟩ := h.last.1.entry
    have hready : ((Run.final (next Sample.uuid4) (Sample.run [Sample.call 1 2 []])
        [Sample.call 1 21 [], Sample.call 0 20 [("target_id", .int 1), ("subject", .str "wake")],
          .scheduler 0]).tables.processes.get? 1).map (·.state) = some .ready := by decide
    rw [hp, Option.map_some, hstate] at hready
    exact absurd hready (by decide)

end CoreSystem

end TrinityOS
