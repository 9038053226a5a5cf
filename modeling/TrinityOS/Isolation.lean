import TrinityOS.RegionIndex

namespace TrinityOS

open SystemTables

def SameOrder (l l' : List ℤ) : Prop := l'.filter (· ∈ l) = l.filter (· ∈ l')

theorem sameOrder_refl (l : List ℤ) : SameOrder l l := rfl

theorem sameOrder_concat {l : List ℤ} {x : ℤ} (h : x ∉ l) : SameOrder l (l ++ [x]) := by
  have hold : l.filter (· ∈ l) = l := List.filter_eq_self.mpr (by simp)
  have hnew : l.filter (· ∈ l ++ [x]) = l := List.filter_eq_self.mpr (by simp +contextual)
  rw [SameOrder, List.filter_append, hold, hnew]
  simp [h]

theorem sameOrder_erase {l : List ℤ} (h : l.Nodup) (x : ℤ) : SameOrder l (l.erase x) := by
  have hnew : (l.erase x).filter (· ∈ l) = l.erase x := by
    apply List.filter_eq_self.mpr
    intro y hy
    simpa using List.mem_of_mem_erase hy
  rw [SameOrder, hnew, h.erase_eq_filter]
  apply List.filter_congr
  intro y hy
  by_cases hyx : y = x <;> simp [hy, hyx]

namespace SystemTables

structure Undisturbed (q : ℤ) (t t' : SystemTables) : Prop where
  regions : ∀ id region, region.ownerPid = q →
    (t'.memoryRegions.get? id = some region ↔ t.memoryRegions.get? id = some region)
  index : t'.processMemory.get? q = t.processMemory.get? q
  order : SameOrder t.readyQueue t'.readyQueue

structure Untouched (q : ℤ) (t t' : SystemTables) : Prop where
  entry : t'.processes.get? q = t.processes.get? q
  blocked : t'.blockedProcesses.get? q = t.blockedProcesses.get? q
  ready : q ∈ t'.readyQueue ↔ q ∈ t.readyQueue

structure WokenFrom (q : ℤ) (t t' : SystemTables) : Prop where
  entry : t'.processes.get? q = (t.processes.get? q).map fun process => { process with state := .ready }
  blocked : q ∉ t'.blockedProcesses
  ready : t'.readyQueue = t.readyQueue ++ [q]

end SystemTables

variable {uuid4 : ℕ → String} {t t' : SystemTables} {p q : ℤ} {now : ℕ → Float} {call : Syscall}
  {r : Except PyException SyscallResult}

theorem Effect.index_of_ne (h : Effect uuid4 t p now call t' r) (hqp : q ≠ p) (hnew : q ≠ t.nextPid) :
    t'.processMemory.get? q = t.processMemory.get? q := by
  cases h with
  | created =>
    rw [admitProcess_processMemory]
    exact Dict.get?_set_of_ne _ _ hnew
  | exited => rw [terminateProcess_processMemory_get?, if_neg hqp]
  | allocated => exact Dict.get?_set_of_ne _ _ hqp
  | freed => exact Dict.get?_modify_of_ne _ _ hqp
  | mapped => exact Dict.get?_set_of_ne _ _ hqp
  | sent => rw [wakeTarget_processMemory]; rfl
  | _ => rfl

theorem Effect.sameOrder (h : Effect uuid4 t p now call t' r)
    (hc : ReadyTable.Consistent .ready .blocked t.readyTable) (hfresh : t.nextPid ∉ t.processes) :
    SameOrder t.readyQueue t'.readyQueue := by
  cases h with
  | created =>
    have hn : t.nextPid ∉ t.readyQueue := hc.not_mem_of_status (by simp [status_of_not_mem hfresh])
    exact sameOrder_concat hn
  | exited =>
    rw [terminateProcess_readyQueue]
    exact sameOrder_erase hc.nodup p
  | waiting | listening | strayWait => exact sameOrder_erase hc.nodup p
  | sent w =>
    unfold wakeTarget
    split
    case isTrue hl =>
      have hb : t.readyTable.status w.val = some .blocked := (hc.blocked_isSome w.val).mp (by
        have hl' : t.blockedProcesses.get? w.val = some "ipc_receive" := hl
        simp [readyTable, hl'])
      have hn : w.val ∉ t.readyQueue := hc.not_mem_of_status (by simp [hb])
      exact sameOrder_concat hn
    case isFalse => exact sameOrder_refl _
  | _ => exact sameOrder_refl _

theorem Effect.undisturbed (h : Effect uuid4 t p now call t' r) (hu : UuidFresh uuid4) (hk : t.MemoryKept uuid4)
    (hc : ReadyTable.Consistent .ready .blocked t.readyTable) (hqp : q ≠ p) (hnew : q ≠ t.nextPid) :
    Undisturbed q t t' where
  regions := ((h.regionTable_step hu hk.named).frame hk.sound (Syscall.holder_ne hqp hnew)).2
  index := h.index_of_ne hqp hnew
  order := h.sameOrder hc hk.pids.fresh

theorem Effect.ready_of_ne (h : Effect uuid4 t p now call t' r) (hqp : q ≠ p) (hnew : q ≠ t.nextPid)
    (hs : call.SendsTo q → Failed r) : q ∈ t'.readyQueue ↔ q ∈ t.readyQueue := by
  cases h with
  | created => simp [newProcessInfo, hnew]
  | exited => simp [List.mem_erase_of_ne hqp]
  | waiting | listening => simp [List.mem_erase_of_ne hqp]
  | strayWait => simp [List.mem_erase_of_ne hqp]
  | @sent targetId subject messageType payload w messageType' hp hkey hw htype =>
    have hwq : q ≠ w.val := by
      rintro rfl
      have hf := hs ⟨targetId, subject, messageType, payload, w, rfl, hkey, rfl⟩
      simp [Failed, SyscallResult.ok] at hf
    unfold wakeTarget
    split <;> simp [hwq]
  | _ => rfl

theorem Effect.sends_effect (h : Effect uuid4 t p now call t' r) (hs : call.SendsTo q) (hr : ¬ Failed r) :
    (∃ message, message.senderId = p ∧ message.targetId = q ∧
      t'.messageQueues.get? q = some (t.messageQueues.getD q [] ++ [message])) ∧
    (t.blockedProcesses.get? q ≠ some "ipc_receive" → Untouched q t t') ∧
    (t.blockedProcesses.get? q = some "ipc_receive" → WokenFrom q t t') := by
  obtain ⟨_, subject, _, payload, messageType, -, -, -, -, rfl, -⟩ := h.sends_to hs hr
  set message := newMessage (uuid4 t.uuidCount) messageType p q subject payload (now 0) with hmessage
  refine ⟨⟨message, rfl, rfl, ?_⟩, ?_, ?_⟩
  · rw [wakeTarget_messageQueues]
    exact Dict.get?_set_self _ _ _
  · intro hl
    rw [wakeTarget_of_not_listening (t.drawUuid.appendMessage q message) q hl]
    exact ⟨rfl, rfl, Iff.rfl⟩
  · intro hl
    rw [wakeTarget_of_listening (t.drawUuid.appendMessage q message) q hl]
    exact ⟨by simp, by simp [Dict.mem_del], rfl⟩

namespace CoreSystem

theorem process_isolation (hu : UuidFresh uuid4) (now : ℕ → Float) (es : List Event) (p n : ℤ) (args : Kwargs)
    (timing : Timing) (q : ℤ) (hqp : q ≠ p) (hq : q ∈ (run uuid4 now es).tables.processes) :
    let s := run uuid4 now es
    let t' := (s.invokeSyscall uuid4 p n args timing).1.tables
    let sent := ∃ call, boundCall n args = some call ∧ call.SendsTo q ∧
      (s.invokeSyscall uuid4 p n args timing).2.success = true
    Undisturbed q s.tables t' ∧
    (¬ sent → Untouched q s.tables t' ∧ t'.messageQueues.get? q = s.tables.messageQueues.get? q) ∧
    (sent → (∃ message, message.senderId = p ∧ message.targetId = q ∧
        t'.messageQueues.get? q = some (s.tables.messageQueues.getD q [] ++ [message])) ∧
      (s.tables.blockedProcesses.get? q ≠ some "ipc_receive" → Untouched q s.tables t') ∧
      (s.tables.blockedProcesses.get? q = some "ipc_receive" → WokenFrom q s.tables t')) := by
  intro s t' sent
  have hk := run_memoryKept hu now es
  have hc := run_consistent uuid4 now es
  have hnew : q ≠ s.tables.nextPid := fun heq => hk.pids.fresh (heq ▸ hq)
  cases hcall : boundCall n args with
  | none =>
    have ht : t' = s.tables := (invokeSyscall_unbound s p timing hcall).1
    have hsent : ¬ sent := by
      rintro ⟨call, hsome, -⟩
      rw [hcall] at hsome
      cases hsome
    rw [ht]
    refine ⟨⟨fun _ _ _ => Iff.rfl, rfl, sameOrder_refl _⟩, ?_, fun h => absurd h hsent⟩
    intro _
    exact ⟨⟨rfl, rfl, Iff.rfl⟩, rfl⟩
  | some call =>
    obtain ⟨ht, hr⟩ := @invokeSyscall_bound uuid4 s p n args timing call hcall
    have he := @performSyscall_effect uuid4 s.tables p timing.now call
    rw [← ht] at he
    refine ⟨he.undisturbed hu hk hc hqp hnew, ?_, ?_⟩
    · intro hsent
      have hfailed : call.SendsTo q → Failed (performSyscall uuid4 s.tables p timing.now call).2 := by
        intro hs
        rw [Failed.ofOutcome, ← hr, ← Bool.not_eq_true]
        exact fun hsuccess => hsent ⟨call, hcall, hs, hsuccess⟩
      obtain ⟨hentry, hblocked, hqueue⟩ := he.frame hqp hnew hfailed
      exact ⟨⟨hentry, hblocked, he.ready_of_ne hqp hnew hfailed⟩, hqueue⟩
    · rintro ⟨call', hcall', hs, hsuccess⟩
      obtain rfl : call = call' := Option.some.inj (hcall.symm.trans hcall')
      apply he.sends_effect hs
      rw [Failed.ofOutcome, ← hr, hsuccess]
      simp

theorem process_isolation_init :
    WokenFrom 0 (Sample.run [Sample.call 0 21 []]).tables
      ((Sample.run [Sample.call 0 21 []]).invokeSyscall Sample.uuid4 1 20
        (.ofList [("target_id", .int 0), ("subject", .str "wake")]) Sample.timing).1.tables :=
  ((process_isolation Sample.uuid4_fresh Sample.timing.now [Sample.call 0 21 []] 1 20
    (.ofList [("target_id", .int 0), ("subject", .str "wake")]) Sample.timing 0 (by decide) (by decide)).2.2
    ⟨_, rfl, ⟨_, _, _, _, .int 0, rfl, rfl, rfl⟩, rfl⟩).2.2 rfl

end CoreSystem

end TrinityOS
