import TrinityOS.Fairness
import TrinityOS.ProcessList

namespace TrinityOS

open SystemTables
open ReadyTable (Consistent)

def ProcessInfo.Charged (process : ProcessInfo) : Prop :=
  process.timeSlice = 0.01 ∧ process.runtime = (· + (0.01 : Float))^[process.contextSwitches] 0

namespace SystemTables

def AllCharged (t : SystemTables) : Prop := ∀ q process, t.processes.get? q = some process → process.Charged

def switches (t : SystemTables) : ℕ := (t.processes.values.map (·.contextSwitches)).sum

variable {t t' : SystemTables} {p : ℤ}

theorem switches_eq (t : SystemTables) : t.switches = (t.processes.keys.map t.contextSwitches).sum := by
  have hkeys : t.processes.keys.map t.contextSwitches =
      (t.processes.keys.map t.processes.get?).map fun o => (o.map (·.contextSwitches)).getD 0 := by
    rw [List.map_map]
    rfl
  rw [hkeys, Dict.map_get?_keys, List.map_map]
  rfl

theorem sum_map_pass {ks : List ℤ} (hnodup : ks.Nodup) (hp : p ∈ ks) (f : ℤ → ℕ) :
    (ks.map fun q => f q + if q = p then 1 else 0).sum = (ks.map f).sum + 1 := by
  have hcount (ks : List ℤ) : (ks.map fun q => if q = p then 1 else 0).sum = ks.count p := by
    induction ks with
    | nil => rfl
    | cons q ks ih => simp [List.count_cons, ih, Nat.add_comm]
  rw [List.sum_map_add, hcount, List.count_eq_one_of_mem hnodup hp]

theorem Charged.scheduled {process : ProcessInfo} (h : process.Charged) (time : Float) :
    (scheduled process time).Charged := by
  refine ⟨h.1, ?_⟩
  change process.runtime + process.timeSlice = _
  rw [h.1, h.2, ← Function.iterate_succ_apply' (· + (0.01 : Float))]
  rfl

theorem AllCharged.runScheduler (h : t.AllCharged) (time : Float) : (t.runScheduler time).AllCharged := by
  intro q process hq
  rcases runScheduler_get? t q time with hsame | ⟨process', -, hq', hnew⟩
  · exact h q process (hsame ▸ hq)
  · obtain rfl := Option.some.inj (hnew.symm.trans hq)
    exact Charged.scheduled (h q process' hq') time

theorem switches_runScheduler (hc : Consistent .ready .blocked t.readyTable) (time : Float) :
    (t.runScheduler time).switches = t.switches + if t.readyQueue = [] then 0 else 1 := by
  have hturns : (t.runScheduler time).contextSwitches =
      fun q => t.contextSwitches q + if t.readyQueue.head? = some q then 1 else 0 := by
    funext q
    have h := congrArg (fun s => s.turns q) (roundRobin_runScheduler hc time)
    exact h.trans (RoundRobin.pass_turns t.roundRobin q)
  rw [switches_eq, switches_eq, keys_runScheduler, hturns]
  cases hqueue : t.readyQueue with
  | nil => simp
  | cons p rest =>
    have hp : p ∈ t.processes := mem_of_status ((hc.mem_ready p).mp (by simp [readyTable, hqueue]))
    simp only [List.head?_cons, Option.some.injEq, reduceCtorEq, ↓reduceIte, eq_comm (a := p)]
    exact sum_map_pass t.processes.nodup (Dict.mem_keys.mpr hp) t.contextSwitches

end SystemTables

variable {uuid4 : ℕ → String} {t t' : SystemTables} {p : ℤ} {now : ℕ → Float} {call : Syscall}
  {r : Except PyException SyscallResult}

theorem Effect.allCharged (he : Effect uuid4 t p now call t' r) (hfresh : t.nextPid ∉ t.processes)
    (h : t.AllCharged) : t'.AllCharged := by
  intro q process hq
  by_cases hnew : q = t.nextPid
  · have hmem : t.nextPid ∈ t'.processes := hnew ▸ Dict.mem_of_get? hq
    cases he with
    | created =>
      rw [hnew, admitProcess_get?] at hq
      obtain rfl := Option.some.inj ((if_pos rfl).symm.trans hq)
      exact ⟨rfl, rfl⟩
    | _ => exact absurd (by simpa using hmem) hfresh
  · have hsame := he.map_get? (φ := ProcessInfo.Charged) (fun _ _ _ _ => rfl) hnew
    rw [hq] at hsame
    obtain ⟨process', hq', hcharged⟩ := Option.map_eq_some_iff.mp hsame.symm
    exact hcharged ▸ h q process' hq'

theorem Effect.switches (he : Effect uuid4 t p now call t' r) (hfresh : t.nextPid ∉ t.processes) :
    t'.switches = t.switches := by
  rw [switches_eq, switches_eq, he.contextSwitches hfresh]
  rcases he.keys hfresh with ⟨hkeys, -⟩ | ⟨-, -, -, -, -, -, hkeys, -⟩
  · rw [hkeys]
  · simp [hkeys, contextSwitches_of_not_mem hfresh]

namespace CoreSystem

def executions (p : ℤ) (s : CoreSystem) : Event → ℕ
  | .scheduler _ => if s.tables.readyQueue.head? = some p then 1 else 0
  | .syscall _ _ _ _ => 0

def busyPasses (s : CoreSystem) : Event → ℕ
  | .scheduler _ => if s.tables.readyQueue = [] then 0 else 1
  | .syscall _ _ _ _ => 0

def Counting (s : CoreSystem) : Prop :=
  s.tables.PidsBelow ∧ Consistent .ready .blocked s.tables.readyTable

theorem counting_next (s : CoreSystem) (e : Event) (h : s.Counting) : (s.next uuid4 e).Counting := by
  refine tables_step
    (P := fun t => t.PidsBelow ∧ Consistent ProcessState.ready ProcessState.blocked t.readyTable) ?_ ?_ s e h
  · rintro t p now call t' r ⟨hb, hc⟩ he
    exact ⟨he.pidsBelow hb, (he.readyTable_step hc hb.fresh).consistent (by decide) hc⟩
  · rintro t time ⟨hb, hc⟩
    exact ⟨runScheduler_pidsBelow hb time, (runScheduler_step hc time).consistent (by decide) hc⟩

theorem initializeSystem_counting (now : ℕ → Float) : (initializeSystem now).Counting :=
  ⟨initializeSystem_pidsBelow now, initializeSystem_consistent now⟩

theorem contextSwitches_next (s : CoreSystem) (e : Event) (h : s.Counting) (p : ℤ) :
    (s.next uuid4 e).tables.contextSwitches p = s.tables.contextSwitches p + executions p s e := by
  obtain ⟨hb, hc⟩ := h
  obtain ⟨t', ht, hstep⟩ := next_tableStep uuid4 s e
  rw [ht]
  cases hstep with
  | rejected => rfl
  | called hbound heffect => rw [heffect.contextSwitches hb.fresh]; rfl
  | @scheduled time =>
    have h := congrArg (fun s => s.turns p) (roundRobin_runScheduler hc time)
    exact h.trans (RoundRobin.pass_turns s.tables.roundRobin p)

theorem switches_next (s : CoreSystem) (e : Event) (h : s.Counting) :
    (s.next uuid4 e).tables.switches = s.tables.switches + busyPasses s e := by
  obtain ⟨hb, hc⟩ := h
  obtain ⟨t', ht, hstep⟩ := next_tableStep uuid4 s e
  rw [ht]
  cases hstep with
  | rejected => rfl
  | called hbound heffect => rw [heffect.switches hb.fresh]; rfl
  | scheduled => exact switches_runScheduler hc _

theorem run_allCharged (uuid4 : ℕ → String) (now : ℕ → Float) (es : List Event) :
    (run uuid4 now es).tables.AllCharged := by
  suffices h : (run uuid4 now es).tables.PidsBelow ∧ (run uuid4 now es).tables.AllCharged from h.2
  refine run_tables (P := fun t => t.PidsBelow ∧ t.AllCharged) ?_ ?_ ?_ now es
  · intro now
    refine ⟨initializeSystem_pidsBelow now, fun q process hq => ?_⟩
    simp only [initializeSystem, initMemory, registerRegion_processes, registerSyscalls, Dict.get?_set] at hq
    split_ifs at hq
    · obtain rfl := Option.some.inj hq
      exact ⟨rfl, rfl⟩
    · obtain rfl := Option.some.inj hq
      exact ⟨rfl, rfl⟩
    · cases hq
  · rintro t p now call t' r ⟨hb, hcharged⟩ he
    exact ⟨he.pidsBelow hb, he.allCharged hb.fresh hcharged⟩
  · rintro t time ⟨hb, hcharged⟩
    exact ⟨runScheduler_pidsBelow hb time, hcharged.runScheduler time⟩

theorem cpu_time_accounted (uuid4 : ℕ → String) (now : ℕ → Float) (es : List Event) :
    (∀ p report, (run uuid4 now es).tables.getProcessInfo p = some report →
      report.contextSwitches = Run.total (next uuid4) (executions p) (initializeSystem now) es ∧
        report.runtime = (· + (0.01 : Float))^[report.contextSwitches] 0) ∧
    ((run uuid4 now es).tables.processes.values.map (·.contextSwitches)).sum =
      Run.total (next uuid4) busyPasses (initializeSystem now) es := by
  have hguarded : Run.Guarded (next uuid4) (fun _ _ => True) (initializeSystem now) es := Run.guarded_true _ es
  constructor
  · intro p report hreport
    obtain ⟨process, hprocess, rfl⟩ := Option.map_eq_some_iff.mp hreport
    refine ⟨?_, (run_allCharged uuid4 now es p process hprocess).2⟩
    have htotal := hguarded.final_eq_add_total (J := Counting) (g := fun s => s.tables.contextSwitches p)
      (fun s e h _ => counting_next s e h) (fun s e h _ => contextSwitches_next s e h p)
      (initializeSystem_counting now)
    have hzero : (initializeSystem now).tables.contextSwitches p = 0 := by
      simp only [SystemTables.contextSwitches, initializeSystem, initMemory, registerRegion_processes,
        registerSyscalls, Dict.get?_set]
      split_ifs <;> rfl
    have hfinal : (run uuid4 now es).tables.contextSwitches p = process.contextSwitches := by
      rw [SystemTables.contextSwitches, hprocess]
      rfl
    rw [hzero, Nat.zero_add] at htotal
    exact hfinal.symm.trans htotal
  · have htotal := hguarded.final_eq_add_total (J := Counting) (g := fun s => s.tables.switches)
      (fun s e h _ => counting_next s e h) (fun s e h _ => switches_next s e h) (initializeSystem_counting now)
    have hzero : (initializeSystem now).tables.switches = 0 := rfl
    rw [hzero, Nat.zero_add] at htotal
    exact htotal

theorem run_passes (uuid4 : ℕ → String) (now : ℕ → Float) (es : List Event) (times : List Float) :
    (run uuid4 now (es ++ times.map .scheduler)).tables.roundRobin =
      RoundRobin.pass^[times.length] (run uuid4 now es).tables.roundRobin := by
  induction times using List.reverseRecOn with
  | nil => simp
  | append_singleton times time ih =>
    rw [List.map_append, ← List.append_assoc, List.map_singleton, run_concat, List.length_append,
      List.length_singleton, Function.iterate_succ_apply', ← ih]
    exact roundRobin_runScheduler (run_consistent uuid4 now _) time

theorem round_robin_exact (uuid4 : ℕ → String) (now : ℕ → Float) (es : List Event) (times : List Float) :
    (run uuid4 now (es ++ times.map .scheduler)).tables.readyQueue =
        (run uuid4 now es).tables.readyQueue.rotate times.length ∧
      (∀ i p, (run uuid4 now es).tables.readyQueue[i]? = some p →
        (run uuid4 now (es ++ times.map .scheduler)).tables.contextSwitches p =
          (run uuid4 now es).tables.contextSwitches p +
            (times.length + ((run uuid4 now es).tables.readyQueue.length - 1 - i)) /
              (run uuid4 now es).tables.readyQueue.length) ∧
      ∀ p ∉ (run uuid4 now es).tables.readyQueue,
        (run uuid4 now (es ++ times.map .scheduler)).tables.contextSwitches p =
          (run uuid4 now es).tables.contextSwitches p := by
  have hpasses := run_passes uuid4 now es times
  refine ⟨?_, ?_, ?_⟩
  · have h := congrArg RoundRobin.queue hpasses
    rw [RoundRobin.iterate_pass_queue] at h
    exact h
  · intro i p hi
    have h := congrArg (fun s => s.turns p) hpasses
    exact h.trans (RoundRobin.iterate_pass_turns (run_consistent uuid4 now es).nodup hi _)
  · intro p hp
    have h := congrArg (fun s => s.turns p) hpasses
    exact h.trans (RoundRobin.iterate_pass_turns_of_not_mem hp _)

end CoreSystem

end TrinityOS
