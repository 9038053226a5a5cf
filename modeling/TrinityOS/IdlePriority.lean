import TrinityOS.Fairness
import TrinityOS.LiveResources

namespace TrinityOS

open ReadyTable (Consistent)
open RoundRobin (OneKind oneKind_concat oneKind_congr)

namespace SystemTables

def Idle (t : SystemTables) (p : ℤ) : Prop := (t.processes.get? p).map (·.priority) = some .idle

instance (t : SystemTables) (p : ℤ) : Decidable (t.Idle p) := inferInstanceAs (Decidable (_ = _))

def IdleWaits (t : SystemTables) : Prop :=
  ∀ time p, t.contextSwitches p < (t.runScheduler time).contextSwitches p → t.Idle p → ∀ q ∈ t.readyQueue, t.Idle q

def passes (t : SystemTables) (times : List Float) : SystemTables := times.foldl runScheduler t

def QueueOf (t : SystemTables) (idle : Prop) : Prop := ∀ q ∈ t.readyQueue, (t.Idle q ↔ idle)

variable {t : SystemTables} {p q : ℤ}

theorem executed_iff (hc : Consistent .ready .blocked t.readyTable) (time : Float) :
    t.contextSwitches p < (t.runScheduler time).contextSwitches p ↔ t.readyQueue.head? = some p := by
  have hturns : (t.runScheduler time).contextSwitches = t.roundRobin.pass.turns := by
    rw [← roundRobin_runScheduler hc time]
    rfl
  rw [hturns]
  cases hq : t.readyQueue with
  | nil =>
    rw [RoundRobin.pass_nil hq]
    simp [roundRobin]
  | cons x rest =>
    rw [RoundRobin.pass_cons (s := t.roundRobin) hq]
    by_cases hxp : p = x
    · subst hxp
      simp [roundRobin]
    · simp [roundRobin, hxp, Ne.symm hxp]

theorem idle_runScheduler (time : Float) : (t.runScheduler time).Idle = t.Idle := by
  funext q
  rcases runScheduler_get? t q time with h | ⟨process, -, hq, h⟩
  · rw [Idle, h, Idle]
  · rw [Idle, h, Idle, hq]
    rfl

theorem runScheduler_consistent (hc : Consistent .ready .blocked t.readyTable) (time : Float) :
    Consistent .ready .blocked (t.runScheduler time).readyTable :=
  (runScheduler_step hc time).consistent (by decide) hc

theorem passes_spec (hc : Consistent .ready .blocked t.readyTable) (times : List Float) :
    Consistent .ready .blocked (t.passes times).readyTable ∧ (t.passes times).Idle = t.Idle ∧
      (t.passes times).roundRobin = RoundRobin.pass^[times.length] t.roundRobin := by
  induction times generalizing t with
  | nil => exact ⟨hc, rfl, rfl⟩
  | cons time times ih =>
    obtain ⟨hc', hidle, hview⟩ := ih (runScheduler_consistent hc time)
    refine ⟨hc', hidle.trans (idle_runScheduler time), ?_⟩
    rw [List.length_cons, Function.iterate_succ_apply, ← roundRobin_runScheduler hc time]
    exact hview

theorem idleWaits_passes_iff (hc : Consistent .ready .blocked t.readyTable) :
    (∀ times, (t.passes times).IdleWaits) ↔ OneKind t.Idle t.readyQueue := by
  have hview : OneKind t.Idle t.readyQueue ↔ _ := RoundRobin.oneKind_iff (K := t.Idle) t.roundRobin
  rw [hview]
  constructor
  · intro h n x hx hidle q hq
    obtain ⟨hc', hidle', hview⟩ := passes_spec hc (List.replicate n 0)
    rw [List.length_replicate] at hview
    have hqueue : (t.passes (List.replicate n 0)).readyQueue = (RoundRobin.pass^[n] t.roundRobin).queue := by
      rw [← hview]
      rfl
    have hwaits := h (List.replicate n 0) 0 x
    rw [executed_iff hc', hidle', hqueue] at hwaits
    exact hwaits hx hidle q hq
  · intro h times time p hp hidle q hq
    obtain ⟨hc', hidle', hview⟩ := passes_spec hc times
    rw [executed_iff hc'] at hp
    rw [hidle'] at hidle ⊢
    have hqueue : (t.passes times).readyQueue = (RoundRobin.pass^[times.length] t.roundRobin).queue := by
      rw [← hview]
      rfl
    rw [hqueue] at hp hq
    exact h times.length p hp hidle q hq

theorem oneKind_admitProcess {newProcess : ProcessInfo} {times : ℕ → Float}
    (hfresh : ∀ q ∈ t.readyQueue, q ≠ newProcess.processId) :
    OneKind (t.admitProcess newProcess times).Idle (t.admitProcess newProcess times).readyQueue ↔
      OneKind t.Idle t.readyQueue ∧ t.QueueOf (newProcess.priority = .idle) := by
  have hnew : (t.admitProcess newProcess times).Idle newProcess.processId ↔ newProcess.priority = .idle := by
    rw [Idle, admitProcess_get?, if_pos rfl, Option.map_some, Option.some_inj]
  have hold : ∀ q ∈ t.readyQueue, ((t.admitProcess newProcess times).Idle q ↔ t.Idle q) := by
    intro q hq
    rw [Idle, Idle, admitProcess_get?, if_neg (hfresh q hq)]
  rw [admitProcess_readyQueue, oneKind_concat, oneKind_congr hold, hnew]
  refine and_congr_right fun _ => ?_
  exact forall₂_congr fun q hq => by rw [hold q hq]

theorem idle_wakeTarget : (t.wakeTarget p).Idle = t.Idle := by
  funext q
  unfold wakeTarget
  split
  · exact congrArg (· = some ProcessPriority.idle) (map_get?_of_modify (setState_get? t p q .ready) fun _ => rfl)
  · rfl

theorem oneKind_wakeTarget (h : t.blockedProcesses.get? p = some "ipc_receive") :
    OneKind (t.wakeTarget p).Idle (t.wakeTarget p).readyQueue ↔
      OneKind t.Idle t.readyQueue ∧ t.QueueOf (t.Idle p) := by
  have hqueue : (t.wakeTarget p).readyQueue = t.readyQueue ++ [p] := by
    rw [wakeTarget_of_listening t p h]
  rw [idle_wakeTarget, hqueue]
  exact oneKind_concat

theorem ne_nextPid (hc : Consistent .ready .blocked t.readyTable) (hb : t.PidsBelow) :
    ∀ q ∈ t.readyQueue, q ≠ t.nextPid := by
  rintro q hq rfl
  obtain ⟨process, hprocess, -⟩ := (mem_readyQueue_iff_ready hc).mp hq
  exact hb.fresh (Dict.mem_of_get? hprocess)

end SystemTables

def Syscall.EntersAmongItsKind (t : SystemTables) (p : ℤ) : Syscall → Prop
  | .processCreate name priority policy => ∀ priority' policy', name.truthy = true →
      clampPriority priority = .ok priority' → clampPolicy policy = .ok policy' → t.QueueOf (priority' = .idle)
  | .ipcSend targetId _ messageType _ => ∀ w, t.SendAccepted p targetId messageType w →
      t.blockedProcesses.get? w.val = some "ipc_receive" → t.QueueOf (t.Idle w.val)
  | _ => True

open SystemTables

variable {uuid4 : ℕ → String} {t t' : SystemTables} {p : ℤ} {now : ℕ → Float} {call : Syscall}
  {r : Except PyException SyscallResult}

theorem Effect.oneKind (h : Effect uuid4 t p now call t' r) (hc : Consistent .ready .blocked t.readyTable)
    (hb : t.PidsBelow) (hok : call.EntersAmongItsKind t p) (hone : OneKind t.Idle t.readyQueue) :
    OneKind t'.Idle t'.readyQueue := by
  have hidle : ∀ q ∈ t.readyQueue, (t'.Idle q ↔ t.Idle q) := by
    intro q hq
    rw [Idle, Idle, h.map_get? (fun _ _ _ _ => rfl) (ne_nextPid hc hb q hq)]
  have hsame : OneKind t'.Idle t.readyQueue := (oneKind_congr hidle).mpr hone
  cases h with
  | created priority' policy' hname hpriority hpolicy =>
    apply (oneKind_admitProcess (ne_nextPid hc hb)).mpr
    exact ⟨hone, hok priority' policy' hname hpriority hpolicy⟩
  | exited =>
    rw [terminateProcess_readyQueue]
    exact hsame.subset List.erase_subset
  | waiting | strayWait | listening => exact hsame.subset List.erase_subset
  | sent w messageType' hp hkey hw htype =>
    generalize hsent : t.drawUuid.appendMessage w.val (newMessage _ _ _ _ _ _ _) = sent
    have hlisten : sent.blockedProcesses.get? w.val = some "ipc_receive" → t.QueueOf (t.Idle w.val) := by
      rw [← hsent]
      exact hok w ⟨hp, hkey, hw, messageType', htype⟩
    have hview : sent.Idle = t.Idle ∧ sent.readyQueue = t.readyQueue := by
      rw [← hsent]
      exact ⟨rfl, rfl⟩
    by_cases hlistening : sent.blockedProcesses.get? w.val = some "ipc_receive"
    · rw [oneKind_wakeTarget hlistening, QueueOf, hview.1, hview.2]
      exact ⟨hone, hlisten hlistening⟩
    · rw [wakeTarget_of_not_listening _ _ hlistening, hview.1, hview.2]
      exact hone
  | _ => exact hsame

theorem entersAmongItsKind_of_oneKind (hc : Consistent .ready .blocked t.readyTable) (hb : t.PidsBelow)
    (hone : OneKind (performSyscall uuid4 t p now call).1.Idle (performSyscall uuid4 t p now call).1.readyQueue) :
    call.EntersAmongItsKind t p := by
  cases call with
  | processCreate name priority policy =>
    intro priority' policy' hname hpriority hpolicy
    rw [performSyscall, processCreate_of_truthy hname hpriority hpolicy] at hone
    exact ((oneKind_admitProcess (ne_nextPid hc hb)).mp hone).2
  | ipcSend targetId subject messageType payload =>
    intro w hs hlistening
    obtain ⟨message, ht⟩ := @ipcSend_of_accepted uuid4 t p now _ subject _ payload w hs
    rw [performSyscall, ht] at hone
    have hlistening' : (t.drawUuid.appendMessage w.val message).blockedProcesses.get? w.val = some "ipc_receive" :=
      hlistening
    exact ((oneKind_wakeTarget hlistening').mp hone).2
  | _ => trivial

namespace CoreSystem

theorem idle_waits_iff (uuid4 : ℕ → String) (now : ℕ → Float) (es : List Event) :
    Run.Always (next uuid4) (fun s => ∀ times, (s.tables.passes times).IdleWaits) (initializeSystem now) es ↔
      Run.Guarded (next uuid4) (Allows fun t p call => call.EntersAmongItsKind t p) (initializeSystem now) es := by
  apply always_iff_allows (P := fun t => ∀ times, (t.passes times).IdleWaits)
    (J := fun t => t.PidsBelow ∧ Consistent .ready .blocked t.readyTable ∧ OneKind t.Idle t.readyQueue)
  · rintro t ⟨-, hc, hone⟩
    exact (idleWaits_passes_iff hc).mpr hone
  · rintro t p now call t' r ⟨hb, hc, hone⟩ hok he
    refine ⟨he.pidsBelow hb, (he.readyTable_step hc hb.fresh).consistent (by decide) hc, ?_⟩
    exact he.oneKind hc hb hok hone
  · rintro t time ⟨hb, hc, hone⟩
    refine ⟨runScheduler_pidsBelow hb time, runScheduler_consistent hc time, ?_⟩
    have hqueue : (t.runScheduler time).readyQueue = t.roundRobin.pass.queue :=
      congrArg RoundRobin.queue (roundRobin_runScheduler hc time)
    rw [idle_runScheduler, hqueue, RoundRobin.pass_queue]
    exact hone.subset fun q hq => List.mem_rotate.mp hq
  · rintro t p now call ⟨hb, hc, hone⟩ hwaits
    have he := @performSyscall_effect uuid4 t p now call
    have hc' := (he.readyTable_step hc hb.fresh).consistent (by decide) hc
    exact entersAmongItsKind_of_oneKind hc hb ((idleWaits_passes_iff hc').mp hwaits)
  · refine ⟨initializeSystem_pidsBelow now, initializeSystem_consistent now, ?_⟩
    have hqueue : (initializeSystem now).tables.readyQueue = [1] := rfl
    rw [hqueue]
    intro p hp q hq hidle
    rwa [List.mem_singleton.mp hq, ← List.mem_singleton.mp hp]

def idleCreation : Event :=
  Sample.call 1 1 [("name", .str "background"), ("priority", .int 0), ("policy", .int 1)]

theorem idle_executed_before_init : ¬ (Sample.run [idleCreation, .scheduler 0]).tables.IdleWaits := by
  intro h
  have hc := run_consistent Sample.uuid4 Sample.timing.now [idleCreation, .scheduler 0]
  have hwaits := h 0 1000 ((executed_iff hc 0).mpr rfl) rfl 1 (by decide)
  exact absurd hwaits (by decide)

end CoreSystem

end TrinityOS
