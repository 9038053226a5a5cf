import TrinityOS.Delivery
import TrinityOS.Fairness

namespace TrinityOS

open SystemTables

variable {uuid4 : ℕ → String} {t t' : SystemTables} {p q : ℤ} {now : ℕ → Float} {call : Syscall}
  {r : Except PyException SyscallResult} {message : Delivery}

theorem Syscall.mail_cases {result : SyscallResult} {m : MailEvent ℤ Delivery} (h : m ∈ call.mail p result) :
    (∃ q message, m = .send q message) ∨ (m = .clear p ∨ ∃ message, m = .receive p message) ∧
      call.number ∈ leavingCalls := by
  unfold mail at h
  split at h
  · split at h
    · exact .inl ⟨_, _, List.mem_singleton.mp h⟩
    · cases h
  · exact .inr ⟨.inr ⟨_, List.mem_singleton.mp h⟩, by simp [leavingCalls, Syscall.number]⟩
  · exact .inr ⟨.inl (List.mem_singleton.mp h), by simp [leavingCalls, Syscall.number]⟩
  · cases h

theorem Effect.woken_of_send (h : Effect uuid4 t p now call t' r)
    (hmail : call.mail p (SyscallResult.ofOutcome r) = [.send q message])
    (hlistens : t.blockedProcesses.get? q = some "ipc_receive") : t'.readyQueue = t.readyQueue ++ [q] := by
  cases h with
  | refused _ _ _ _ hr =>
    rw [Syscall.mail_of_failed hr] at hmail
    cases hmail
  | @sent targetId subject messageType payload w messageType' hp hkey hw htype =>
    simp only [Syscall.mail, SyscallResult.ofOutcome, SyscallResult.ok, hkey, htype] at hmail
    obtain rfl : w.val = q := (MailEvent.send.inj (List.singleton_inj.mp hmail)).1
    have hl : (t.drawUuid.appendMessage w.val (newMessage (uuid4 t.uuidCount) messageType' p w.val subject payload
        (now 0))).blockedProcesses.get? w.val = some "ipc_receive" := hlistens
    rw [wakeTarget_of_listening _ _ hl]
    rfl
  | _ => cases hmail

theorem mail_of_receive (wait : PyValue) (hq : q ∈ t.processes) {rest : List Delivery}
    (hbox : t.mailboxes q = message :: rest) :
    (Syscall.ipcReceive wait).mail q (SyscallResult.ofOutcome (performSyscall uuid4 t q now (.ipcReceive wait)).2) =
      [.receive q message] := by
  cases hqueue : t.messageQueues.getD q [] with
  | nil =>
    rw [mailboxes, hqueue] at hbox
    cases hbox
  | cons first others =>
    rw [mailboxes, hqueue, List.map_cons] at hbox
    obtain rfl := (List.cons.inj hbox).1
    simp only [performSyscall, syscallIpcReceive, ipcReceiveLocked, hq, not_true_eq_false, ↓reduceIte, hqueue,
      Progress.complete]
    rfl

theorem SystemTables.woken_of_mem_readyQueue (hc : ReadyTable.Consistent .ready .blocked t.readyTable)
    (hq : q ∈ t.readyQueue) : t.Woken q := by
  have hready : t.readyTable.status q = some .ready := (hc.mem_ready q).mp hq
  have hunblocked : t.readyTable.blocked q = none := hc.blocked_eq_none (by simp [hready])
  exact ⟨status_eq_some.mp hready, Dict.not_mem_iff.mpr hunblocked, List.count_eq_one_of_mem hc.nodup hq⟩

namespace CoreSystem

theorem record_mail_keeps (s : CoreSystem) {e : Event} (hkeep : e.Keeps q) {m : MailEvent ℤ Delivery}
    (hm : m ∈ (s.record uuid4 e).flatMap CallRecord.mail) :
    (∃ q' message, m = .send q' message) ∨ ∃ p, p ≠ q ∧ (m = .clear p ∨ ∃ message, m = .receive p message) := by
  cases e with
  | scheduler time => cases hm
  | syscall p n args timing =>
    simp only [record, List.flatMap_cons, List.flatMap_nil, List.append_nil, CallRecord.mail] at hm
    cases hcall : boundCall n args with
    | none =>
      rw [hcall] at hm
      cases hm
    | some call =>
      rw [hcall] at hm
      rcases Syscall.mail_cases hm with hsend | ⟨htaken, hleaving⟩
      · exact .inl hsend
      · refine .inr ⟨p, ?_, htaken⟩
        rintro rfl
        rw [boundCall_number hcall] at hleaving
        exact hkeep n hleaving ⟨rfl, rfl⟩

theorem mailboxes_grow (uuid4 : ℕ → String) (now : ℕ → Float) (es fs : List Event) (q : ℤ)
    (hkeeps : ∀ f ∈ fs, f.Keeps q) :
    (run uuid4 now es).tables.mailboxes q <+: (run uuid4 now (es ++ fs)).tables.mailboxes q := by
  induction fs using List.reverseRecOn with
  | nil => rw [List.append_nil]
  | append_singleton fs f ih =>
    have hgrown := ih fun f' hf' => hkeeps f' (List.mem_append_left [f] hf')
    have hkeep := hkeeps f (List.mem_append_right fs List.mem_cons_self)
    rw [← List.append_assoc, run_concat]
    have hstep := @record_mail_step uuid4 (run uuid4 now (es ++ fs)) f (run_pidsBelow uuid4 now _)
      (run_queuesOwned uuid4 now _)
    refine hgrown.trans (hstep.grows (fun message hm => ?_) fun hm => ?_)
    · rcases record_mail_keeps _ hkeep hm with ⟨_, _, hsend⟩ | ⟨p, hp, hclear | ⟨_, hreceive⟩⟩
      · cases hsend
      · cases hclear
      · exact hp (MailEvent.receive.inj hreceive).1.symm
    · rcases record_mail_keeps _ hkeep hm with ⟨_, _, hsend⟩ | ⟨p, hp, hclear | ⟨_, hreceive⟩⟩
      · cases hsend
      · exact hp (MailEvent.clear.inj hclear).symm
      · cases hreceive

theorem readyQueue_of_send (s : CoreSystem) {e : Event}
    (hsends : (s.record uuid4 e).flatMap CallRecord.mail = [.send q message])
    (hlistens : s.tables.blockedProcesses.get? q = some "ipc_receive") :
    (s.next uuid4 e).tables.readyQueue = s.tables.readyQueue ++ [q] := by
  cases e with
  | scheduler time => cases hsends
  | syscall p n args timing =>
    simp only [record, List.flatMap_cons, List.flatMap_nil, List.append_nil, CallRecord.mail] at hsends
    cases hcall : boundCall n args with
    | none =>
      rw [hcall] at hsends
      cases hsends
    | some call =>
      obtain ⟨ht, hr⟩ := @invokeSyscall_bound uuid4 s p n args timing call hcall
      simp only [hcall, hr] at hsends
      simp only [next, ht]
      exact (performSyscall_effect call).woken_of_send hsends hlistens

theorem record_receive (s : CoreSystem) (hqueues : s.tables.QueuesOwned) {n : ℤ} {args : Kwargs} {wait : PyValue}
    (hcall : boundCall n args = some (.ipcReceive wait)) (timing : Timing) {rest : List Delivery}
    (hbox : s.tables.mailboxes q = message :: rest) :
    (s.record uuid4 (.syscall q n args timing)).flatMap CallRecord.mail = [.receive q message] := by
  have hq : q ∈ s.tables.processes := by
    apply hqueues
    by_contra hnot
    rw [mailboxes, Dict.getD_of_not_mem hnot] at hbox
    cases hbox
  obtain ⟨-, hr⟩ := @invokeSyscall_bound uuid4 s q n args timing _ hcall
  simp only [record, List.flatMap_cons, List.flatMap_nil, List.append_nil, CallRecord.mail, hcall, hr]
  exact mail_of_receive wait hq hbox

theorem awaited_message_received (uuid4 : ℕ → String) (now : ℕ → Float) (es fs : List Event) (e : Event) (q : ℤ)
    (message : Delivery) (n : ℤ) (args : Kwargs) (timing : Timing) (wait : PyValue)
    (hlistens : (run uuid4 now es).tables.blockedProcesses.get? q = some "ipc_receive")
    (hsends : ((run uuid4 now es).record uuid4 e).flatMap CallRecord.mail = [.send q message])
    (hkeeps : ∀ f ∈ fs, f.Keeps q) (hreceives : boundCall n args = some (.ipcReceive wait)) :
    (run uuid4 now (es ++ [e])).tables.Woken q ∧
      ((run uuid4 now (es ++ [e])).tables.readyQueue.length ≤ fs.countP Event.isPass →
        (run uuid4 now (es ++ [e])).tables.contextSwitches q <
          (run uuid4 now (es ++ [e] ++ fs)).tables.contextSwitches q) ∧
      ((run uuid4 now (es ++ [e] ++ fs)).record uuid4 (.syscall q n args timing)).flatMap CallRecord.mail =
        [.receive q message] := by
  have hempty : (run uuid4 now es).tables.mailboxes q = [] := by
    rw [mailboxes, run_noLostWakeup uuid4 now es q hlistens]
    rfl
  have hbox : (run uuid4 now (es ++ [e])).tables.mailboxes q = [message] := by
    have hstep := @record_mail_step uuid4 (run uuid4 now es) e (run_pidsBelow uuid4 now es)
      (run_queuesOwned uuid4 now es)
    rw [hsends] at hstep
    rw [run_concat, hstep.sends, Function.update_self, hempty]
    rfl
  have hqueue : (run uuid4 now (es ++ [e])).tables.readyQueue = (run uuid4 now es).tables.readyQueue ++ [q] := by
    rw [run_concat]
    exact readyQueue_of_send _ hsends hlistens
  refine ⟨?_, fun hpasses => ?_, ?_⟩
  · apply woken_of_mem_readyQueue (run_consistent uuid4 now _)
    rw [hqueue]
    exact List.mem_append_right _ (List.mem_singleton_self q)
  · have hi : (run uuid4 now (es ++ [e])).tables.readyQueue[(run uuid4 now es).tables.readyQueue.length]? = some q := by
      rw [hqueue, List.getElem?_concat_length]
    rw [hqueue, List.length_append, List.length_singleton] at hpasses
    have hsteps := @roundRobin_steps uuid4 now (es ++ [e]) fs (· = q) ?_
    · exact hsteps.served rfl hi hpasses
    · rintro f hf q rfl
      exact hkeeps f hf
  · have hgrown := mailboxes_grow uuid4 now (es ++ [e]) fs q hkeeps
    rw [hbox] at hgrown
    obtain ⟨rest, hrest⟩ := hgrown
    exact record_receive _ (run_queuesOwned uuid4 now _) hreceives timing hrest.symm

theorem awaited_message_received_letter :
    let es := [Event.syscall 1 21 .empty Sample.timing]
    let e := Event.syscall 0 20 (Sample.letter "first") Sample.timing
    let fs := [Event.scheduler 0, creation, .scheduler 0]
    let message : Delivery := ⟨Sample.uuid4 0, "SIGNAL", 0, .str "first", .none⟩
    (Sample.run (es ++ [e])).tables.Woken 1 ∧
      (Sample.run (es ++ [e])).tables.contextSwitches 1 < (Sample.run (es ++ [e] ++ fs)).tables.contextSwitches 1 ∧
      ((Sample.run (es ++ [e] ++ fs)).record Sample.uuid4 (.syscall 1 21 .empty Sample.timing)).flatMap CallRecord.mail =
        [.receive 1 message] := by
  intro es e fs message
  have hreceived := awaited_message_received Sample.uuid4 Sample.timing.now es fs e 1 message 21 .empty Sample.timing
    (.bool true) rfl rfl (by simp [fs, Event.Keeps, leavingCalls, creation, Sample.call, Event.Calls]) rfl
  exact ⟨hreceived.1, hreceived.2.1 (by decide), hreceived.2.2⟩

end CoreSystem

end TrinityOS
