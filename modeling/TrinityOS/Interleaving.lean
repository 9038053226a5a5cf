import TrinityOS.EffectFrames
import TrinityOS.SchedulerConsistency
import Mathlib.Logic.Relation

namespace TrinityOS

structure InFlight where
  processId : ℤ
  syscallNumber : ℤ
  args : Kwargs
  timing : Timing
  rest : Continuation

section

variable (uuid4 : ℕ → String)

def beginSyscall (t : SystemTables) (processId : ℤ) (now : ℕ → Float) : Syscall → SystemTables × Progress
  | .ipcSend targetId subject messageType payload =>
    ipcSendLocked uuid4 t processId targetId subject messageType payload now
  | .ipcReceive wait => ipcReceiveLocked t processId wait
  | call =>
    let handled := performSyscall uuid4 t processId now call
    (handled.1, .finished handled.2)

theorem complete_beginSyscall (t : SystemTables) (p : ℤ) (now : ℕ → Float) (call : Syscall) :
    Progress.complete (beginSyscall uuid4 t p now call) = performSyscall uuid4 t p now call := by
  cases call <;> rfl

namespace CoreSystem

def enterSyscall (s : CoreSystem) (processId syscallNumber : ℤ) (args : Kwargs) (timing : Timing) :
    CoreSystem × (SyscallResult ⊕ InFlight) :=
  match findSyscall syscallNumber with
  | none => (s, .inl (.failure s!"Invalid system call number: {syscallNumber}"))
  | some entry =>
    let s := s.countCall syscallNumber
    match entry.bind args with
    | .error e =>
      let settled := s.settle syscallNumber timing (.error e)
      (settled.1, .inl settled.2)
    | .ok call =>
      match beginSyscall uuid4 s.tables processId timing.now call with
      | (t, .finished outcome) =>
        let settled := { s with tables := t }.settle syscallNumber timing outcome
        (settled.1, .inl settled.2)
      | (t, .needsProcLock rest) =>
        ({ s with tables := t }, .inr ⟨processId, syscallNumber, args, timing, rest⟩)

def leaveSyscall (s : CoreSystem) (f : InFlight) : CoreSystem × SyscallResult :=
  let handled := f.rest.run s.tables
  { s with tables := handled.1 }.settle f.syscallNumber f.timing handled.2

def pass (s : CoreSystem) (now : Float) : CoreSystem := { s with tables := s.tables.runScheduler now }

end CoreSystem

/-- The system as threads see it. `_syscall_lock` admits one call at a time; scheduler passes
run whenever `_proc_lock` is free, also while a call is in flight. A memory call shares nothing
with a pass but the process table, where the two write different fields, so it is one step. -/
structure Machine where
  system : CoreSystem
  inFlight : Option InFlight
  log : List CallRecord

namespace Machine

inductive Step : Machine → Machine → Prop
  | finish {s s' log r} (p n args timing) (h : s.enterSyscall uuid4 p n args timing = (s', .inl r)) :
      Step ⟨s, none, log⟩ ⟨s', none, log ++ [⟨p, n, args, r⟩]⟩
  | enter {s s' log f} (p n args timing) (h : s.enterSyscall uuid4 p n args timing = (s', .inr f)) :
      Step ⟨s, none, log⟩ ⟨s', some f, log⟩
  | leave {s log} (f : InFlight) :
      Step ⟨s, some f, log⟩
        ⟨(s.leaveSyscall f).1, none, log ++ [⟨f.processId, f.syscallNumber, f.args, (s.leaveSyscall f).2⟩]⟩
  | pass {s f log} (now : Float) : Step ⟨s, f, log⟩ ⟨s.pass now, f, log⟩

def start (now : ℕ → Float) : Machine := ⟨.initializeSystem now, none, []⟩

def Reachable (now : ℕ → Float) (m : Machine) : Prop :=
  Relation.ReflTransGen (Step uuid4) (start now) m

end Machine

end

open SystemTables

variable {uuid4 : ℕ → String} {t t' : SystemTables} {p : ℤ} {now : ℕ → Float} {call : Syscall}

theorem ipcSendLocked_needsProcLock {targetId subject messageType payload : PyValue} {rest : Continuation} :
    ipcSendLocked uuid4 t p targetId subject messageType payload now = (t', .needsProcLock rest) ↔
      p ∈ t.processes ∧ ∃ q messageType', targetId.intKey = .ok (some q) ∧ q.val ∈ t.processes ∧
        PyValue.member "IPCMessageType" IPCMessageType.ofValue? messageType = .ok messageType' ∧
        t' = t.drawUuid.appendMessage q.val
          (newMessage (uuid4 t.uuidCount) messageType' p q.val subject payload (now 0)) ∧
        rest = .wakeTarget q.val (uuid4 t.uuidCount) := by
  constructor
  · intro h
    unfold ipcSendLocked at h
    split at h
    · cases h
    case isFalse hp =>
      refine ⟨not_not.mp hp, ?_⟩
      cases hkey : targetId.intKey with
      | error e => simp [hkey] at h
      | ok key =>
        cases key with
        | none => simp [hkey] at h
        | some q =>
          simp only [hkey] at h
          split at h
          · cases h
          case isFalse hq =>
            cases htype : PyValue.member "IPCMessageType" IPCMessageType.ofValue? messageType with
            | error e => simp [htype] at h
            | ok messageType' =>
              simp only [htype, Prod.mk.injEq, Progress.needsProcLock.injEq] at h
              exact ⟨q, messageType', rfl, not_not.mp hq, rfl, h.1.symm, h.2.symm⟩
  · rintro ⟨hp, q, messageType', hkey, hq, htype, rfl, rfl⟩
    simp only [ipcSendLocked, hp, not_true_eq_false, ↓reduceIte, hkey, hq, htype]

theorem ipcReceiveLocked_needsProcLock {wait : PyValue} {rest : Continuation} :
    ipcReceiveLocked t p wait = (t', .needsProcLock rest) ↔
      p ∈ t.processes ∧ t.messageQueues.getD p [] = [] ∧ wait.truthy = true ∧ t' = t ∧
        rest = .blockReceiver p := by
  constructor
  · intro h
    unfold ipcReceiveLocked at h
    split at h
    · cases h
    case isFalse hp =>
      cases hqueue : t.messageQueues.getD p [] with
      | cons message messages => simp [hqueue] at h
      | nil =>
        simp only [hqueue] at h
        split at h
        · cases h
        case isFalse hwait =>
          simp only [Prod.mk.injEq, Progress.needsProcLock.injEq] at h
          exact ⟨not_not.mp hp, rfl, not_not.mp hwait, h.1.symm, h.2.symm⟩
  · rintro ⟨hp, hqueue, hwait, rfl, rfl⟩
    simp only [ipcReceiveLocked, hp, not_true_eq_false, ↓reduceIte, hqueue, hwait]

theorem beginSyscall_needsProcLock {rest : Continuation}
    (h : beginSyscall uuid4 t p now call = (t', .needsProcLock rest)) :
    (∃ q message, call.SendsTo q ∧ t' = t.drawUuid.appendMessage q message ∧
      rest = .wakeTarget q message.messageId) ∨
    (∃ wait, call = .ipcReceive wait ∧ t' = t ∧ rest = .blockReceiver p) := by
  cases call with
  | ipcSend targetId subject messageType payload =>
    obtain ⟨-, q, messageType', hkey, -, -, ht, hrest⟩ := ipcSendLocked_needsProcLock.mp h
    exact .inl ⟨q.val, _, ⟨_, _, _, _, q, rfl, hkey, rfl⟩, ht, hrest⟩
  | ipcReceive wait =>
    obtain ⟨-, -, -, ht, hrest⟩ := ipcReceiveLocked_needsProcLock.mp h
    exact .inr ⟨wait, rfl, ht, hrest⟩
  | _ => simp [beginSyscall] at h

theorem beginSyscall_runScheduler {rest : Continuation}
    (h : beginSyscall uuid4 t p now call = (t', .needsProcLock rest)) (time : Float) :
    beginSyscall uuid4 (t.runScheduler time) p now call = (t'.runScheduler time, .needsProcLock rest) := by
  cases call with
  | ipcSend targetId subject messageType payload =>
    obtain ⟨hp, q, messageType', hkey, hq, htype, ht, hrest⟩ := ipcSendLocked_needsProcLock.mp h
    apply ipcSendLocked_needsProcLock.mpr
    refine ⟨(runScheduler_mem t p time).mpr hp, q, messageType', hkey,
      (runScheduler_mem t q.val time).mpr hq, htype, ?_, ?_⟩
    · rw [ht, runScheduler_appendMessage, runScheduler_uuidCount]
    · rw [hrest, runScheduler_uuidCount]
  | ipcReceive wait =>
    obtain ⟨hp, hqueue, hwait, ht, hrest⟩ := ipcReceiveLocked_needsProcLock.mp h
    apply ipcReceiveLocked_needsProcLock.mpr
    refine ⟨(runScheduler_mem t p time).mpr hp, ?_, hwait, by rw [ht], hrest⟩
    rw [runScheduler_messageQueues]
    exact hqueue
  | _ => simp [beginSyscall] at h

namespace CoreSystem

variable {s s' : CoreSystem} {n : ℤ} {args : Kwargs} {timing : Timing} {f : InFlight}

theorem enterSyscall_inr : s.enterSyscall uuid4 p n args timing = (s', .inr f) ↔
    ∃ entry call t rest, findSyscall n = some entry ∧ entry.bind args = .ok call ∧
      beginSyscall uuid4 s.tables p timing.now call = (t, .needsProcLock rest) ∧
      s' = { s.countCall n with tables := t } ∧ f = ⟨p, n, args, timing, rest⟩ := by
  constructor
  · intro h
    unfold enterSyscall at h
    cases hentry : findSyscall n with
    | none => simp [hentry] at h
    | some entry =>
      simp only [hentry] at h
      cases hbind : entry.bind args with
      | error e => simp [hbind] at h
      | ok call =>
        simp only [hbind] at h
        cases hbegin : beginSyscall uuid4 (s.countCall n).tables p timing.now call with
        | mk t progress =>
          rw [hbegin] at h
          cases progress with
          | finished outcome => cases h
          | needsProcLock rest =>
            cases h
            exact ⟨entry, call, t, rest, rfl, hbind, hbegin, rfl, rfl⟩
  · rintro ⟨entry, call, t, rest, hentry, hbind, hbegin, rfl, rfl⟩
    have hcounted : beginSyscall uuid4 (s.countCall n).tables p timing.now call =
        (t, .needsProcLock rest) := hbegin
    simp only [enterSyscall, hentry, hbind, hcounted]

theorem enterSyscall_begin (h : s.enterSyscall uuid4 p n args timing = (s', .inr f)) :
    ∃ call, boundCall n args = some call ∧
      beginSyscall uuid4 s.tables p timing.now call = (s'.tables, .needsProcLock f.rest) := by
  obtain ⟨entry, call, t, rest, hentry, hbind, hbegin, rfl, rfl⟩ := enterSyscall_inr.mp h
  exact ⟨call, by simp [boundCall, hentry, hbind, Except.toOption], hbegin⟩

theorem enterSyscall_pass (h : s.enterSyscall uuid4 p n args timing = (s', .inr f)) (time : Float) :
    (s.pass time).enterSyscall uuid4 p n args timing = (s'.pass time, .inr f) := by
  obtain ⟨entry, call, t, rest, hentry, hbind, hbegin, rfl, rfl⟩ := enterSyscall_inr.mp h
  have hpass := beginSyscall_runScheduler hbegin time
  exact enterSyscall_inr.mpr ⟨entry, call, t.runScheduler time, rest, hentry, hbind, hpass, rfl, rfl⟩

theorem invokeSyscall_of_enter (h : s.enterSyscall uuid4 p n args timing = (s', .inr f)) :
    s.invokeSyscall uuid4 p n args timing = s'.leaveSyscall f ∧
      f.processId = p ∧ f.syscallNumber = n ∧ f.args = args := by
  obtain ⟨entry, call, t, rest, hentry, hbind, hbegin, rfl, rfl⟩ := enterSyscall_inr.mp h
  have hperform : performSyscall uuid4 (s.countCall n).tables p timing.now call = rest.run t := by
    rw [← complete_beginSyscall]
    exact congrArg Progress.complete hbegin
  refine ⟨?_, rfl, rfl, rfl⟩
  simp only [invokeSyscall, hentry, hbind, hperform]
  rfl

theorem invokeSyscall_of_finish {r : SyscallResult}
    (h : s.enterSyscall uuid4 p n args timing = (s', .inl r)) :
    s.invokeSyscall uuid4 p n args timing = (s', r) := by
  unfold enterSyscall at h
  unfold invokeSyscall
  cases hentry : findSyscall n with
  | none => simp only [hentry] at h ⊢; cases h; rfl
  | some entry =>
    simp only [hentry] at h ⊢
    cases hbind : entry.bind args with
    | error e => simp only [hbind] at h ⊢; cases h; rfl
    | ok call =>
      simp only [hbind] at h ⊢
      rw [← complete_beginSyscall]
      cases hbegin : beginSyscall uuid4 (s.countCall n).tables p timing.now call with
      | mk t progress =>
        rw [hbegin] at h
        cases progress with
        | finished outcome => cases h; rfl
        | needsProcLock rest => cases h

end CoreSystem

namespace Machine

open CoreSystem

/-- The machine refines the system whose calls are atomic: between calls it is in a state of
an atomic run with the same completed calls, and during a call it is where the first part of
that call leaves such a state. -/
def Serialised (uuid4 : ℕ → String) (now : ℕ → Float) (m : Machine) : Prop :=
  ∃ es, m.log = runHistory uuid4 now es ∧
    match m.inFlight with
    | none => m.system = run uuid4 now es
    | some f => ∃ timing, (run uuid4 now es).enterSyscall uuid4 f.processId f.syscallNumber f.args timing =
        (m.system, .inr f)

theorem serialised_call {es : List Event} {s' : CoreSystem} {n : ℤ} {args : Kwargs} {timing : Timing}
    {r : SyscallResult} (h : (run uuid4 now es).invokeSyscall uuid4 p n args timing = (s', r)) :
    Serialised uuid4 now ⟨s', none, runHistory uuid4 now es ++ [⟨p, n, args, r⟩]⟩ := by
  refine ⟨es ++ [.syscall p n args timing], ?_, ?_⟩
  · rw [runHistory_concat, record, h]
  · change s' = run uuid4 now _
    rw [run_concat]
    rw [CoreSystem.next, h]

theorem Reachable.serialised {m : Machine} (h : Reachable uuid4 now m) : Serialised uuid4 now m := by
  induction h with
  | refl => exact ⟨[], rfl, rfl⟩
  | tail _ hstep ih =>
    obtain ⟨es, hlog, hsystem⟩ := ih
    cases hstep with
    | finish p n args timing henter =>
      dsimp only at hlog hsystem
      subst hlog hsystem
      exact serialised_call (invokeSyscall_of_finish henter)
    | enter p n args timing henter =>
      dsimp only at hlog hsystem
      subst hsystem
      obtain ⟨-, rfl, rfl, rfl⟩ := invokeSyscall_of_enter henter
      exact ⟨es, hlog, timing, henter⟩
    | leave f =>
      dsimp only at hlog hsystem
      subst hlog
      obtain ⟨timing, henter⟩ := hsystem
      exact serialised_call (invokeSyscall_of_enter henter).1
    | @pass s f log time =>
      dsimp only at hlog hsystem
      have hhistory : runHistory uuid4 now (es ++ [.scheduler time]) = runHistory uuid4 now es :=
        (runHistory_concat uuid4 now es _).trans (List.append_nil _)
      have hrun : run uuid4 now (es ++ [.scheduler time]) = (run uuid4 now es).pass time :=
        run_concat uuid4 now es _
      refine ⟨es ++ [.scheduler time], hlog.trans hhistory.symm, ?_⟩
      cases f with
      | none =>
        dsimp only at hsystem ⊢
        rw [hrun, hsystem]
      | some f =>
        -- the pass moves in front of the first part of the call
        obtain ⟨timing, henter⟩ := hsystem
        refine ⟨timing, ?_⟩
        rw [hrun]
        exact enterSyscall_pass henter time

theorem reachable_run (uuid4 : ℕ → String) (now : ℕ → Float) (es : List Event) :
    Reachable uuid4 now ⟨run uuid4 now es, none, runHistory uuid4 now es⟩ := by
  induction es using List.reverseRecOn with
  | nil => exact .refl
  | append_singleton es e ih =>
    rw [runHistory_concat, run_concat]
    cases e with
    | scheduler time =>
      rw [record, List.append_nil]
      exact ih.tail (.pass time)
    | syscall p n args timing =>
      rw [record, CoreSystem.next]
      cases henter : (run uuid4 now es).enterSyscall uuid4 p n args timing with
      | mk s' progress =>
        cases progress with
        | inl r =>
          rw [invokeSyscall_of_finish henter]
          exact ih.tail (.finish p n args timing henter)
        | inr f =>
          obtain ⟨hinvoke, rfl, rfl, rfl⟩ := invokeSyscall_of_enter henter
          rw [hinvoke]
          exact (ih.tail (.enter _ _ _ timing henter)).tail (.leave f)

theorem reachable_iff_serialised (uuid4 : ℕ → String) (now : ℕ → Float) (m : Machine) :
    Reachable uuid4 now m ↔ Serialised uuid4 now m := by
  constructor
  · exact Reachable.serialised
  · obtain ⟨s, inFlight, log⟩ := m
    rintro ⟨es, hlog, hsystem⟩
    dsimp only at hlog hsystem
    subst hlog
    cases inFlight with
    | none =>
      dsimp only at hsystem
      subst hsystem
      exact reachable_run uuid4 now es
    | some f =>
      obtain ⟨timing, henter⟩ := hsystem
      exact (reachable_run uuid4 now es).tail (.enter f.processId f.syscallNumber f.args timing henter)

theorem Serialised.readyTable {m : Machine} (h : Serialised uuid4 now m) :
    ∃ es, m.system.tables.readyTable = (run uuid4 now es).tables.readyTable := by
  obtain ⟨es, -, hsystem⟩ := h
  refine ⟨es, ?_⟩
  cases hf : m.inFlight with
  | none =>
    rw [hf] at hsystem
    exact congrArg (fun s : CoreSystem => s.tables.readyTable) hsystem
  | some f =>
    rw [hf] at hsystem
    obtain ⟨timing, henter⟩ := hsystem
    obtain ⟨call, -, hbegin⟩ := enterSyscall_begin henter
    -- the message in flight and its identifier are not part of the view
    rcases beginSyscall_needsProcLock hbegin with ⟨q, message, -, ht, -⟩ | ⟨-, -, ht, -⟩
    · rw [ht]; rfl
    · rw [ht]

theorem Reachable.schedulerConsistent {m : Machine} (h : Reachable uuid4 now m) :
    m.system.tables.SchedulerConsistent := by
  obtain ⟨es, he⟩ := h.serialised.readyTable
  rw [schedulerConsistent_iff, he]
  exact run_consistent uuid4 now es

theorem Reachable.schedulerConsistent_init_receives :
    ((initializeSystem Sample.timing.now).enterSyscall Sample.uuid4 1 21 .empty
      Sample.timing).1.tables.SchedulerConsistent :=
  have h : Step Sample.uuid4 (start Sample.timing.now)
      ⟨((initializeSystem Sample.timing.now).enterSyscall Sample.uuid4 1 21 .empty Sample.timing).1,
        some ⟨1, 21, .empty, Sample.timing, .blockReceiver 1⟩, []⟩ := .enter 1 21 .empty Sample.timing rfl
  Reachable.schedulerConsistent (.single h)

end Machine

end TrinityOS
