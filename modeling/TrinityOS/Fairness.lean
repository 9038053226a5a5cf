import TrinityOS.EffectFrames
import TrinityOS.RoundRobin
import TrinityOS.SchedulerConsistency
import Mathlib.Algebra.Order.Group.Abs
import Mathlib.Algebra.Order.Ring.Int

namespace TrinityOS

open ReadyTable (Consistent)

namespace SystemTables

def contextSwitches (t : SystemTables) (p : ℤ) : ℕ :=
  ((t.processes.get? p).map (·.contextSwitches)).getD 0

def executedUntil (t t' : SystemTables) (p : ℤ) : ℤ := t'.contextSwitches p - t.contextSwitches p

def Ready (t : SystemTables) (p : ℤ) : Prop :=
  ∃ process, t.processes.get? p = some process ∧ process.state = .ready

def roundRobin (t : SystemTables) : RoundRobin ℤ := ⟨t.readyQueue, t.contextSwitches⟩

variable {t : SystemTables} {p : ℤ}

theorem contextSwitches_of_not_mem (h : p ∉ t.processes) : t.contextSwitches p = 0 := by
  rw [contextSwitches, Dict.not_mem_iff.mp h]
  rfl

theorem mem_readyQueue_iff_ready (hc : Consistent .ready .blocked t.readyTable) :
    p ∈ t.readyQueue ↔ t.Ready p := (hc.mem_ready p).trans status_eq_some

theorem roundRobin_runScheduler (hc : Consistent .ready .blocked t.readyTable) (now : Float) :
    (t.runScheduler now).roundRobin = t.roundRobin.pass := by
  cases hq : t.readyQueue with
  | nil =>
    rw [runScheduler_nil t now hq, RoundRobin.pass_nil]
    exact hq
  | cons p rest =>
    obtain ⟨process, hp, -⟩ := (mem_readyQueue_iff_ready hc).mp (by rw [hq]; exact List.mem_cons_self)
    obtain ⟨processes, hs, hget⟩ := runScheduler_run t p now hq hp
    rw [RoundRobin.pass_cons (s := t.roundRobin) hq, hs]
    apply RoundRobin.ext
    · rfl
    · funext j
      by_cases hj : j = p
      · subst hj
        simp [roundRobin, contextSwitches, hget, hp, scheduled]
      · simp [roundRobin, contextSwitches, hget, hj]

end SystemTables

open SystemTables

variable {uuid4 : ℕ → String} {t t' : SystemTables} {p : ℤ} {now : ℕ → Float} {call : Syscall}
  {r : Except PyException SyscallResult}

theorem Effect.contextSwitches (h : Effect uuid4 t p now call t' r) (hfresh : t.nextPid ∉ t.processes) :
    t'.contextSwitches = t.contextSwitches := by
  funext q
  by_cases hq : q = t.nextPid
  · rw [hq, contextSwitches_of_not_mem hfresh]
    by_cases hcreated : t.nextPid ∈ t'.processes
    · cases h with
      | created => simp [SystemTables.contextSwitches, newProcessInfo]
      | _ => exact absurd hcreated (by simpa using hfresh)
    · exact contextSwitches_of_not_mem hcreated
  · rw [SystemTables.contextSwitches, h.map_get? (fun _ _ _ _ => rfl) hq]
    rfl

def leavingCalls : List ℤ := [2, 3, 21]

theorem Effect.readyQueue_change (h : Effect uuid4 t p now call t' r) {stays : ℤ → Prop}
    (hstays : stays p → call.number ∉ leavingCalls) (hc : Consistent .ready .blocked t.readyTable)
    (hfresh : t.nextPid ∉ t.processes) : RoundRobin.Change stays t.readyQueue t'.readyQueue := by
  cases h with
  | created =>
    rw [admitProcess_readyQueue]
    apply RoundRobin.Change.enter
    apply hc.not_mem_of_status
    simp [newProcessInfo, status_of_not_mem hfresh]
  | exited =>
    rw [terminateProcess_readyQueue]
    exact .leave p fun hp => hstays hp (by simp [leavingCalls, Syscall.number])
  | waiting | strayWait => exact .leave p fun hp => hstays hp (by simp [leavingCalls, Syscall.number])
  | listening => exact .leave p fun hp => hstays hp (by simp [leavingCalls, Syscall.number])
  | sent q =>
    unfold wakeTarget
    split
    case isTrue hl =>
      apply RoundRobin.Change.enter
      have hb : t.readyTable.status q.val = some .blocked := by
        apply (hc.blocked_isSome q.val).mp
        have hreason : t.readyTable.blocked q.val = some "ipc_receive" := hl
        rw [hreason]
        rfl
      apply hc.not_mem_of_status
      rw [hb]
      decide
    case isFalse => exact .same
  | _ => exact .same

def Event.isPass : Event → Bool
  | .syscall _ _ _ _ => false
  | .scheduler _ => true

def Event.Keeps (p : ℤ) (e : Event) : Prop := ∀ n ∈ leavingCalls, ¬ e.Calls p n

namespace CoreSystem

theorem roundRobin_steps (uuid4 : ℕ → String) (now : ℕ → Float) (es fs : List Event) {stays : ℤ → Prop}
    (hkeeps : ∀ e ∈ fs, ∀ p, stays p → e.Keeps p) :
    RoundRobin.Steps stays (run uuid4 now es).tables.roundRobin (fs.countP Event.isPass)
      (run uuid4 now (es ++ fs)).tables.roundRobin := by
  induction fs using List.reverseRecOn with
  | nil =>
    rw [List.append_nil]
    exact .refl
  | append_singleton fs e ih =>
    have hsteps := ih fun e' he' => hkeeps e' (List.mem_append_left [e] he')
    have hkeep := hkeeps e (List.mem_append_right fs List.mem_cons_self)
    have hc := run_consistent uuid4 now (es ++ fs)
    have hfresh := (run_pidsBelow uuid4 now (es ++ fs)).fresh
    rw [← List.append_assoc, run_concat, List.countP_append]
    obtain ⟨t', ht, hstep⟩ := next_tableStep uuid4 (run uuid4 now (es ++ fs)) e
    rw [ht]
    cases hstep with
    | rejected => exact hsteps
    | called hbound heffect =>
      have hchange : RoundRobin.Change stays (run uuid4 now (es ++ fs)).tables.readyQueue t'.readyQueue := by
        apply heffect.readyQueue_change _ hc hfresh
        intro hp hnumber
        rw [boundCall_number hbound] at hnumber
        exact hkeep _ hp _ hnumber ⟨rfl, rfl⟩
      have hview : t'.roundRobin =
          { (run uuid4 now (es ++ fs)).tables.roundRobin with queue := t'.readyQueue } := by
        rw [roundRobin, heffect.contextSwitches hfresh]
        rfl
      rw [hview]
      exact hsteps.change hchange
    | scheduled =>
      rw [roundRobin_runScheduler hc]
      exact hsteps.pass

theorem executed_within (uuid4 : ℕ → String) (now : ℕ → Float) (es fs : List Event) (p : ℤ) (i : ℕ)
    (hi : (run uuid4 now es).tables.readyQueue[i]? = some p) (hkeeps : ∀ e ∈ fs, e.Keeps p)
    (hpasses : i + 1 ≤ fs.countP Event.isPass) :
    (run uuid4 now es).tables.contextSwitches p < (run uuid4 now (es ++ fs)).tables.contextSwitches p := by
  have hsteps := @roundRobin_steps uuid4 now es fs (· = p) ?_
  · exact hsteps.served rfl hi hpasses
  · rintro e he q rfl
    exact hkeeps e he

def creation : Event := Sample.call 1 1 [("name", .str "worker"), ("policy", .int 1)]

theorem executed_within_two :
    (Sample.run [creation]).tables.contextSwitches 1000 <
      (Sample.run ([creation] ++ [.scheduler 0, creation, .scheduler 0])).tables.contextSwitches 1000 := by
  apply executed_within Sample.uuid4 Sample.timing.now [creation] [.scheduler 0, creation, .scheduler 0] 1000 1
  · rfl
  · simp [Event.Keeps, leavingCalls, creation, Sample.call, Event.Calls]
  · exact Nat.le_refl _

theorem executions_balanced (uuid4 : ℕ → String) (now : ℕ → Float) (es fs : List Event) (p q : ℤ)
    (hp : (run uuid4 now es).tables.Ready p) (hq : (run uuid4 now es).tables.Ready q)
    (hkeeps : ∀ e ∈ fs, e.Keeps p ∧ e.Keeps q) :
    |(run uuid4 now es).tables.executedUntil (run uuid4 now (es ++ fs)).tables p -
      (run uuid4 now es).tables.executedUntil (run uuid4 now (es ++ fs)).tables q| ≤ 1 := by
  have hc := run_consistent uuid4 now es
  have hsteps := @roundRobin_steps uuid4 now es fs (fun x => x = p ∨ x = q) ?_
  · have hfair := hsteps.fair (.inl rfl) (.inr rfl) hc.nodup ((mem_readyQueue_iff_ready hc).mpr hp)
      ((mem_readyQueue_iff_ready hc).mpr hq)
    simp only [roundRobin] at hfair
    rw [executedUntil, executedUntil, abs_le]
    omega
  · rintro e he x (rfl | rfl)
    · exact (hkeeps e he).1
    · exact (hkeeps e he).2

theorem executions_balanced_three :
    |(Sample.run [creation]).tables.executedUntil
        (Sample.run ([creation] ++ [.scheduler 0, .scheduler 0, .scheduler 0])).tables 1 -
      (Sample.run [creation]).tables.executedUntil
        (Sample.run ([creation] ++ [.scheduler 0, .scheduler 0, .scheduler 0])).tables 1000| ≤ 1 := by
  apply executions_balanced Sample.uuid4 Sample.timing.now [creation] [.scheduler 0, .scheduler 0, .scheduler 0]
  · exact ⟨_, rfl, rfl⟩
  · exact ⟨_, rfl, rfl⟩
  · simp [Event.Keeps, Event.Calls]

end CoreSystem

end TrinityOS
