import TrinityOS.EffectFrames
import TrinityOS.Interleaving
import TrinityOS.Mailbox

namespace TrinityOS

open SystemTables

structure Delivery where
  messageId : String
  messageType : String
  senderId : ℤ
  subject : PyValue
  payload : PyValue

def IPCMessage.delivery (message : IPCMessage) : Delivery :=
  ⟨message.messageId, message.messageType.name, message.senderId, message.subject, message.payload⟩

def Syscall.mail (call : Syscall) (p : ℤ) (result : SyscallResult) : List (MailEvent ℤ Delivery) :=
  match result.success, call, result.value with
  | true, .ipcSend targetId subject messageType payload, .messageId messageId =>
    match targetId.intKey, PyValue.member "IPCMessageType" IPCMessageType.ofValue? messageType with
    | .ok (some q), .ok messageType => [.send q.val ⟨messageId, messageType.name, p, subject, payload⟩]
    | _, _ => []
  | true, .ipcReceive _, .message messageId messageType senderId subject payload _ _ =>
    [.receive p ⟨messageId, messageType, senderId, subject, payload⟩]
  | true, .processExit _, _ => [.clear p]
  | _, _, _ => []

def CallRecord.mail (c : CallRecord) : List (MailEvent ℤ Delivery) :=
  match boundCall c.syscallNumber c.args with
  | none => []
  | some call => call.mail c.processId c.result

namespace SystemTables

def mailboxes (t : SystemTables) (p : ℤ) : List Delivery :=
  (t.messageQueues.getD p []).map IPCMessage.delivery

def QueuesOwned (t : SystemTables) : Prop := ∀ p ∈ t.messageQueues, p ∈ t.processes

def NoLostWakeup (t : SystemTables) : Prop :=
  ∀ p, t.blockedProcesses.get? p = some "ipc_receive" → t.messageQueues.getD p [] = []

def Woken (t : SystemTables) (p : ℤ) : Prop :=
  (∃ process, t.processes.get? p = some process ∧ process.state = .ready) ∧
    p ∉ t.blockedProcesses ∧ t.readyQueue.count p = 1

end SystemTables

variable {uuid4 : ℕ → String} {t t' : SystemTables} {p : ℤ} {now : ℕ → Float} {call : Syscall}
  {r : Except PyException SyscallResult}

theorem Syscall.mail_of_failed (hr : Failed r) : call.mail p (SyscallResult.ofOutcome r) = [] := by
  have hf := Failed.ofOutcome.mp hr
  unfold mail
  rw [hf]

theorem mailboxes_set (queue : List IPCMessage) (h : t'.messageQueues = t.messageQueues.set p queue) :
    t'.mailboxes = Function.update t.mailboxes p (queue.map IPCMessage.delivery) := by
  funext q
  rw [Function.update_apply, mailboxes, h, Dict.getD_set]
  split_ifs <;> rfl

theorem mailboxes_del (h : t'.messageQueues = t.messageQueues.del p) :
    t'.mailboxes = Function.update t.mailboxes p [] := by
  funext q
  rw [Function.update_apply, mailboxes, h, Dict.getD_del]
  split_ifs <;> rfl

theorem mailboxes_congr (h : t'.messageQueues = t.messageQueues) : t'.mailboxes = t.mailboxes := by
  funext q
  rw [mailboxes, h, mailboxes]

theorem Effect.mail_step (h : Effect uuid4 t p now call t' r) (hq : t.QueuesOwned)
    (hfresh : t.nextPid ∉ t.processes) :
    Mailbox.Step t.mailboxes (call.mail p (SyscallResult.ofOutcome r)) t'.mailboxes := by
  cases h with
  | refused n u _ _ hr =>
    rw [Syscall.mail_of_failed hr]
    exact .stay
  | @created name _ _ priority policy =>
    -- the queue that the new pid gets was absent before
    have hempty : t.mailboxes t.nextPid = [] := by
      have hn : t.nextPid ∉ t.messageQueues := fun hm => hfresh (hq _ hm)
      rw [mailboxes, Dict.getD_of_not_mem hn]
      rfl
    have hboxes := mailboxes_set [] (admitProcess_messageQueues { t with nextPid := t.nextPid + 1 }
      (newProcessInfo t.nextPid p name priority policy (now 0)) (fun i => now (i + 1)))
    rw [hboxes]
    change Mailbox.Step t.mailboxes [] (Function.update t.mailboxes t.nextPid [])
    rw [← hempty, Function.update_eq_self]
    exact .stay
  | exited =>
    rw [mailboxes_del (terminateProcess_messageQueues t p _)]
    exact .clear p
  | @strayWait _ e =>
    rw [Syscall.mail_of_failed (r := .error e) trivial]
    exact .stay
  | received message messages hp hqueue =>
    have hboxes : ({ t with messageQueues := t.messageQueues.set p messages } : SystemTables).mailboxes =
        Function.update t.mailboxes p (messages.map IPCMessage.delivery) := mailboxes_set messages rfl
    rw [hboxes]
    apply Mailbox.Step.receive p message.delivery
    rw [mailboxes, hqueue]
    rfl
  | @sent targetId subject messageType payload w messageType' hp hkey hw htype =>
    have hmail : Syscall.mail (.ipcSend targetId subject messageType payload) p
        (SyscallResult.ofOutcome (.ok (.ok (.messageId (uuid4 t.uuidCount))))) =
        [.send w.val ⟨uuid4 t.uuidCount, messageType'.name, p, subject, payload⟩] := by
      simp only [Syscall.mail, SyscallResult.ofOutcome, SyscallResult.ok, hkey, htype]
    have hboxes := mailboxes_set _ (wakeTarget_messageQueues (t.drawUuid.appendMessage w.val
      (newMessage (uuid4 t.uuidCount) messageType' p w.val subject payload (now 0))) w.val)
    rw [hmail, hboxes, List.map_append]
    exact .send w.val _
  | _ => exact .stay

theorem Effect.mem_processes_mono (h : Effect uuid4 t p now call t' r) {q : ℤ} (hq : q ∈ t.processes) :
    q ∈ t'.processes := by
  cases h with
  | created =>
    rw [admitProcess_mem]
    exact .inr hq
  | _ => simpa using hq

theorem Effect.queuesOwned (h : Effect uuid4 t p now call t' r) (hq : t.QueuesOwned) : t'.QueuesOwned := by
  intro q hm
  have hmono (hm : q ∈ t.messageQueues) : q ∈ t'.processes := h.mem_processes_mono (hq q hm)
  cases h with
  | created =>
    rw [admitProcess_messageQueues, Dict.mem_set] at hm
    rw [admitProcess_mem]
    exact hm.imp_right (hq q)
  | exited =>
    rw [terminateProcess_messageQueues, Dict.mem_del] at hm
    exact hmono hm.2
  | received _ _ hp =>
    rcases Dict.mem_set.mp hm with rfl | hm
    · exact hp
    · exact hq q hm
  | sent w _ _ _ hw =>
    rw [wakeTarget_messageQueues, appendMessage_messageQueues, Dict.mem_set] at hm
    rcases hm with rfl | hm
    · rwa [wakeTarget_mem]
    · exact hmono hm
  | _ => exact hmono hm

theorem waitReason_ne_listening (w : PyInt) : waitReason w ≠ "ipc_receive" :=
  (listening_ne_wait w.format).symm

theorem Effect.noLostWakeup (h : Effect uuid4 t p now call t' r) (hw : t.NoLostWakeup) : t'.NoLostWakeup := by
  intro q hb
  rcases h.blocked hb with hold | ⟨rfl, -, hempty, hsame⟩ | ⟨-, w, hreason, -⟩
  · have hempty := hw q hold
    cases h with
    | created =>
      rw [admitProcess_messageQueues, Dict.getD_set]
      split_ifs
      · rfl
      · exact hempty
    | exited =>
      rw [terminateProcess_messageQueues, Dict.getD_del]
      split_ifs
      · rfl
      · exact hempty
    | received message messages _ hqueue =>
      rw [Dict.getD_set]
      split_ifs with hqp
      · rw [hqp, hqueue] at hempty
        cases hempty
      · exact hempty
    | sent w =>
      have hne : q ≠ w.val := by
        rintro rfl
        exact wakeTarget_not_listening _ _ hb
      rw [wakeTarget_messageQueues, appendMessage_messageQueues, Dict.getD_set, if_neg hne]
      exact hempty
    | _ => simpa using hempty
  · rw [hsame]
    exact hempty
  · exact absurd hreason.symm (waitReason_ne_listening w)

namespace CoreSystem

theorem run_queuesOwned (uuid4 : ℕ → String) (now : ℕ → Float) (es : List Event) :
    (run uuid4 now es).tables.QueuesOwned := by
  apply run_tables
  · intro now p hp
    cases hp
  · intro t p now call t' r hq h
    exact h.queuesOwned hq
  · intro t time hq p hp
    rw [runScheduler_messageQueues] at hp
    exact (runScheduler_mem t p time).mpr (hq p hp)

theorem run_noLostWakeup (uuid4 : ℕ → String) (now : ℕ → Float) (es : List Event) :
    (run uuid4 now es).tables.NoLostWakeup := by
  apply run_tables
  · intro now p hp
    cases hp
  · intro t p now call t' r hw h
    exact h.noLostWakeup hw
  · intro t time hw p hp
    rw [runScheduler_blockedProcesses] at hp
    rw [runScheduler_messageQueues]
    exact hw p hp

theorem record_mail_step (s : CoreSystem) (e : Event) (hb : s.tables.PidsBelow) (hq : s.tables.QueuesOwned) :
    Mailbox.Step s.tables.mailboxes ((s.record uuid4 e).flatMap CallRecord.mail)
      (s.next uuid4 e).tables.mailboxes := by
  cases e with
  | scheduler time =>
    have hsame : (s.next uuid4 (.scheduler time)).tables.mailboxes = s.tables.mailboxes :=
      mailboxes_congr (runScheduler_messageQueues s.tables time)
    rw [hsame]
    exact .stay
  | syscall p n args timing =>
    simp only [record, List.flatMap_cons, List.flatMap_nil, List.append_nil, CallRecord.mail, next]
    cases hcall : boundCall n args with
    | none =>
      rw [(invokeSyscall_unbound s p timing hcall).1]
      exact .stay
    | some call =>
      obtain ⟨ht, hr⟩ := @invokeSyscall_bound uuid4 s p n args timing call hcall
      rw [ht, hr]
      exact (performSyscall_effect call).mail_step hq hb.fresh

theorem run_balanced (uuid4 : ℕ → String) (now : ℕ → Float) (es : List Event) :
    Mailbox.Balanced ((runHistory uuid4 now es).flatMap CallRecord.mail) (run uuid4 now es).tables.mailboxes := by
  induction es using List.reverseRecOn with
  | nil => exact .nil
  | append_singleton es e ih =>
    rw [runHistory_concat, run_concat, List.flatMap_append]
    exact ih.step (record_mail_step _ e (run_pidsBelow uuid4 now es) (run_queuesOwned uuid4 now es))

end CoreSystem

namespace Sample

def letter (subject : String) : Kwargs := .ofList [("target_id", .int 1), ("subject", .str subject)]

def letters : List Event :=
  [.syscall 0 20 (letter "first") timing, .syscall 0 20 (letter "second") timing, .syscall 1 21 .empty timing]

def sleeping : Machine where
  system := ((run [.syscall 1 21 .empty timing]).enterSyscall Sample.uuid4 0 20 (letter "first") timing).1
  inFlight := some ⟨0, 20, letter "first", timing, .wakeTarget 1 (Sample.uuid4 0)⟩
  log := CoreSystem.runHistory Sample.uuid4 timing.now [.syscall 1 21 .empty timing]

end Sample

namespace Machine

open CoreSystem (runHistory)

theorem Reachable.fifo_exactly_once {m : Machine} (h : Reachable uuid4 now m) (hfree : m.inFlight = none) :
    ∀ p, Mailbox.sent p (m.log.flatMap CallRecord.mail) =
      Mailbox.received p (m.log.flatMap CallRecord.mail) ++ m.system.tables.mailboxes p := by
  obtain ⟨es, hlog, hsystem⟩ := h.serialised
  rw [hfree] at hsystem
  have hbalanced := CoreSystem.run_balanced uuid4 now es
  intro p
  rw [hlog, hsystem]
  exact hbalanced p

theorem Reachable.fifo_exactly_once_init :
    (Mailbox.received 1
        ((runHistory Sample.uuid4 Sample.timing.now Sample.letters).flatMap CallRecord.mail)).length = 1 ∧
      ∀ p, Mailbox.sent p ((runHistory Sample.uuid4 Sample.timing.now Sample.letters).flatMap CallRecord.mail) =
        Mailbox.received p ((runHistory Sample.uuid4 Sample.timing.now Sample.letters).flatMap CallRecord.mail) ++
          (Sample.run Sample.letters).tables.mailboxes p :=
  ⟨rfl, Reachable.fifo_exactly_once (reachable_run Sample.uuid4 Sample.timing.now Sample.letters) rfl⟩

theorem wakeTarget_woken {q : ℤ} (hc : ReadyTable.Consistent .ready .blocked t.readyTable)
    (hl : t.blockedProcesses.get? q = some "ipc_receive") : (t.wakeTarget q).Woken q := by
  have hb : t.readyTable.status q = some .blocked := (hc.blocked_isSome q).mp (by simp [readyTable, hl])
  obtain ⟨process, hq, -⟩ := status_eq_some.mp hb
  have hn : q ∉ t.readyQueue := hc.not_mem_of_status (by simp [hb])
  rw [wakeTarget_of_listening t q hl]
  refine ⟨⟨{ process with state := .ready }, by simp [hq], rfl⟩, by simp [Dict.mem_del], ?_⟩
  rw [List.count_append, List.count_eq_zero_of_not_mem hn, List.count_singleton_self]

theorem Serialised.sends_to {m : Machine} (h : Serialised uuid4 now m) {f : InFlight} (hf : m.inFlight = some f)
    {q : ℤ} (hcall : boundCall f.syscallNumber f.args = some call) (hs : call.SendsTo q) :
    ∃ messageId, f.rest = .wakeTarget q messageId := by
  obtain ⟨es, -, hsystem⟩ := h
  rw [hf] at hsystem
  obtain ⟨timing, henter⟩ := hsystem
  obtain ⟨call', hcall', hbegin⟩ := CoreSystem.enterSyscall_begin henter
  obtain rfl : call = call' := Option.some.inj (hcall.symm.trans hcall')
  rcases beginSyscall_needsProcLock hbegin with ⟨q', message, hs', -, hrest⟩ | ⟨wait, rfl, -, -⟩
  · rw [hs.unique hs']
    exact ⟨message.messageId, hrest⟩
  · obtain ⟨_, _, _, _, _, hne, -⟩ := hs
    cases hne

theorem Reachable.no_lost_wakeup {m : Machine} (h : Reachable uuid4 now m) :
    (m.inFlight = none → m.system.tables.NoLostWakeup) ∧
    ∀ f call q, m.inFlight = some f → boundCall f.syscallNumber f.args = some call → call.SendsTo q →
      m.system.tables.blockedProcesses.get? q = some "ipc_receive" →
      (m.system.leaveSyscall f).2.success = true ∧ (m.system.leaveSyscall f).1.tables.Woken q := by
  have hserial := h.serialised
  constructor
  · intro hfree
    obtain ⟨es, -, hsystem⟩ := hserial
    rw [hfree] at hsystem
    rw [hsystem]
    exact CoreSystem.run_noLostWakeup uuid4 now es
  · intro f call q hf hcall hs hl
    obtain ⟨messageId, hrest⟩ := hserial.sends_to hf hcall hs
    obtain ⟨es, hview⟩ := hserial.readyTable
    have hc : ReadyTable.Consistent .ready .blocked m.system.tables.readyTable := by
      rw [hview]
      exact CoreSystem.run_consistent uuid4 now es
    rw [CoreSystem.leaveSyscall, hrest, CoreSystem.settle_result, CoreSystem.settle_tables]
    exact ⟨rfl, wakeTarget_woken hc hl⟩

theorem Reachable.no_lost_wakeup_init :
    Sample.sleeping.system.tables.mailboxes 1 ≠ [] ∧
      ∀ f, Sample.sleeping.inFlight = some f → (Sample.sleeping.system.leaveSyscall f).1.tables.Woken 1 := by
  refine ⟨fun h => absurd (congrArg List.length h) (by decide), ?_⟩
  have hlistening := reachable_run Sample.uuid4 Sample.timing.now [.syscall 1 21 .empty Sample.timing]
  have henter : Reachable Sample.uuid4 Sample.timing.now Sample.sleeping :=
    hlistening.tail (.enter 0 20 (Sample.letter "first") Sample.timing rfl)
  intro f hf
  cases hf
  exact ((Reachable.no_lost_wakeup henter).2 _ _ 1 rfl rfl ⟨_, _, _, _, .int 1, rfl, rfl, rfl⟩ rfl).2

end Machine

end TrinityOS
