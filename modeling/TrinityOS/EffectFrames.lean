import TrinityOS.SystemRuns

namespace TrinityOS

open SystemTables

def Syscall.SendsTo (call : Syscall) (q : ℤ) : Prop :=
  ∃ targetId subject messageType payload w,
    call = .ipcSend targetId subject messageType payload ∧ targetId.intKey = .ok (some w) ∧ w.val = q

theorem Syscall.SendsTo.unique {call : Syscall} {q q' : ℤ} (h : call.SendsTo q) (h' : call.SendsTo q') :
    q = q' := by
  obtain ⟨targetId, _, _, _, w, rfl, hkey, rfl⟩ := h
  obtain ⟨_, _, _, _, w', hcall, hkey', rfl⟩ := h'
  cases hcall
  rw [hkey] at hkey'
  cases hkey'
  rfl

def SystemTables.Live (t : SystemTables) (q : ℤ) : Prop :=
  ∃ process, t.processes.get? q = some process ∧ process.state ≠ .terminated

theorem SystemTables.not_live_of_terminated {t : SystemTables} {q : ℤ}
    (h : (t.processes.get? q).map (·.state) = some .terminated) : ¬ t.Live q := by
  rintro ⟨process, hq, hstate⟩
  rw [hq, Option.map_some] at h
  exact hstate (Option.some.inj h)

variable {uuid4 : ℕ → String} {t t' : SystemTables} {p q : ℤ} {now : ℕ → Float} {call : Syscall}
  {r : Except PyException SyscallResult}

theorem Effect.sends_to (h : Effect uuid4 t p now call t' r) (hs : call.SendsTo q) (hr : ¬ Failed r) :
    ∃ targetId subject messageType payload messageType',
      call = .ipcSend targetId subject messageType payload ∧ p ∈ t.processes ∧ q ∈ t.processes ∧
      PyValue.member "IPCMessageType" IPCMessageType.ofValue? messageType = .ok messageType' ∧
      t' = (t.drawUuid.appendMessage q
        (newMessage (uuid4 t.uuidCount) messageType' p q subject payload (now 0))).wakeTarget q ∧
      r = .ok (.ok (.messageId (uuid4 t.uuidCount))) := by
  obtain ⟨targetId, subject, messageType, payload, w, rfl, hkey, rfl⟩ := hs
  cases h with
  | refused _ _ _ _ hf => exact absurd hf hr
  | sent v messageType' hp hkey' hq htype =>
    obtain rfl : w = v := by simpa [hkey] using hkey'
    exact ⟨targetId, subject, messageType, payload, messageType', rfl, hp, hq, htype, rfl, rfl⟩

theorem Effect.frame (h : Effect uuid4 t p now call t' r) (hqp : q ≠ p) (hq : q ≠ t.nextPid)
    (hs : call.SendsTo q → Failed r) :
    t'.processes.get? q = t.processes.get? q ∧ t'.blockedProcesses.get? q = t.blockedProcesses.get? q ∧
      t'.messageQueues.get? q = t.messageQueues.get? q := by
  cases h with
  | created => simp [newProcessInfo, hq, Dict.get?_set]
  | exited => simp [hqp, Dict.get?_del]
  | waiting => simp [hqp, Dict.get?_set]
  | listening => simp [hqp, Dict.get?_set]
  | allocated => simp [hqp]
  | freed => simp [hqp]
  | received => simp [hqp, Dict.get?_set]
  | @sent targetId subject messageType payload w messageType' hp hkey hw htype =>
    have hwq : q ≠ w.val := by
      rintro rfl
      have hf := hs ⟨targetId, subject, messageType, payload, w, rfl, hkey, rfl⟩
      simp [Failed, SyscallResult.ok] at hf
    unfold wakeTarget
    split <;> simp [hwq, Dict.get?_set, Dict.get?_del]
  | _ => simp

theorem listening_ne_wait (s : String) : "ipc_receive" ≠ "wait:" ++ s := by
  intro h
  have hl := congrArg String.toList h
  rw [String.toList_append] at hl
  exact absurd (List.cons.inj hl).1 (by decide)

theorem Effect.blocked (h : Effect uuid4 t p now call t' r) {reason : String}
    (hb : t'.blockedProcesses.get? q = some reason) :
    t.blockedProcesses.get? q = some reason ∨
      (q = p ∧ reason = "ipc_receive" ∧ t.messageQueues.getD p [] = [] ∧ t'.messageQueues = t.messageQueues) ∨
      (q = p ∧ ∃ w, reason = waitReason w ∧ t.Live w.val) := by
  cases h with
  | exited =>
    left
    rw [terminateProcess_blockedProcesses, Dict.get?_del] at hb
    split_ifs at hb
    exact hb
  | waiting w target hkey hw hlive =>
    rw [parkProcess_blockedProcesses, Dict.get?_set] at hb
    split_ifs at hb with hqp
    · exact .inr (.inr ⟨hqp, w, (Option.some.inj hb).symm, target, hw, hlive⟩)
    · exact .inl hb
  | listening hp hqueue =>
    rw [parkProcess_blockedProcesses, Dict.get?_set] at hb
    split_ifs at hb with hqp
    · exact .inr (.inl ⟨hqp, (Option.some.inj hb).symm, hqueue, rfl⟩)
    · exact .inl hb
  | sent w =>
    left
    unfold wakeTarget at hb
    split at hb
    · rw [Dict.get?_del] at hb
      split_ifs at hb
      exact hb
    · exact hb
  | _ => left; simpa using hb

theorem Effect.mem_readyQueue (h : Effect uuid4 t p now call t' r) (hq : q ∈ t'.readyQueue) :
    q ∈ t.readyQueue ∨ q = t.nextPid ∨ t.blockedProcesses.get? q = some "ipc_receive" := by
  cases h with
  | created =>
    rw [admitProcess_readyQueue] at hq
    exact (List.mem_append.mp hq).imp_right fun h => .inl (List.mem_singleton.mp h)
  | exited => exact .inl (List.mem_of_mem_erase (by simpa using hq))
  | waiting | listening => exact .inl (List.mem_of_mem_erase (by simpa using hq))
  | strayWait => exact .inl (List.mem_of_mem_erase hq)
  | sent w =>
    unfold wakeTarget at hq
    split at hq
    case isTrue hl =>
      rcases List.mem_append.mp hq with h | h
      · exact .inl h
      · rw [List.mem_singleton.mp h]; exact .inr (.inr hl)
    case isFalse => exact .inl hq
  | _ => exact .inl hq

theorem SystemTables.Live.modify {f : ProcessInfo → ProcessInfo} (hl : t.Live q)
    (hget : t'.processes.get? q = if q = p then (t.processes.get? p).map f else t.processes.get? q)
    (hf : ∀ process, process.state ≠ .terminated → (f process).state ≠ .terminated) : t'.Live q := by
  obtain ⟨process, hq, hstate⟩ := hl
  by_cases hqp : q = p
  · rw [if_pos hqp, ← hqp, hq, Option.map_some] at hget
    exact ⟨f process, hget, hf process hstate⟩
  · rw [if_neg hqp, hq] at hget
    exact ⟨process, hget, hstate⟩

theorem Effect.live (h : Effect uuid4 t p now call t' r) (hb : t.nextPid ∉ t.processes) (hl : t.Live q)
    (hexit : ∀ exitCode, call = .processExit exitCode → ¬ Failed r → q ≠ p) : t'.Live q := by
  have hold := hl
  obtain ⟨process, hq, hstate⟩ := hl
  cases h with
  | created =>
    have hne : q ≠ t.nextPid := fun he => hb (he ▸ Dict.mem_of_get? hq)
    exact ⟨process, by simp [newProcessInfo, hne, hq], hstate⟩
  | exited =>
    have hqp : q ≠ p := hexit _ rfl (by simp [Failed, SyscallResult.ok])
    exact ⟨process, by simp [hqp, hq], hstate⟩
  | waiting | listening =>
    apply hold.modify (parkProcess_get? { t with readyQueue := t.readyQueue.erase p } p q _)
    simp
  | allocated n =>
    apply hold.modify (addMemoryUsage_get? _ p q n.val)
    exact fun _ h => h
  | freed id region =>
    apply hold.modify (deleteRegion_get? t p q region id)
    exact fun _ h => h
  | sent w =>
    unfold wakeTarget
    split
    · apply hold.modify (setState_get? _ w.val q .ready)
      simp
    · exact hold
  | _ => exact hold

theorem SystemTables.map_get?_of_modify {α : Type} {φ : ProcessInfo → α} {f : ProcessInfo → ProcessInfo}
    (hget : t'.processes.get? q = if q = p then (t.processes.get? p).map f else t.processes.get? q)
    (hf : ∀ process, φ (f process) = φ process) :
    (t'.processes.get? q).map φ = (t.processes.get? q).map φ := by
  rw [hget]
  split_ifs with hqp
  · rw [hqp, Option.map_map]
    congr 1
    funext process
    exact hf process
  · rfl

theorem Effect.map_get? {α : Type} {φ : ProcessInfo → α} (h : Effect uuid4 t p now call t' r)
    (hφ : ∀ process state metadata memoryUsage, φ { process with state, metadata, memoryUsage } = φ process)
    (hq : q ≠ t.nextPid) : (t'.processes.get? q).map φ = (t.processes.get? q).map φ := by
  cases h with
  | created => simp [newProcessInfo, hq]
  | exited =>
    apply map_get?_of_modify (terminateProcess_get? t p q _)
    intro process
    exact hφ process _ _ _
  | waiting | listening =>
    apply map_get?_of_modify (parkProcess_get? { t with readyQueue := t.readyQueue.erase p } p q _)
    intro process
    exact hφ process _ _ _
  | allocated n =>
    apply map_get?_of_modify (addMemoryUsage_get? _ p q n.val)
    intro process
    exact hφ process _ _ _
  | freed id region =>
    apply map_get?_of_modify (deleteRegion_get? t p q region id)
    intro process
    exact hφ process _ _ _
  | sent w =>
    unfold wakeTarget
    split
    · apply map_get?_of_modify (setState_get? _ w.val q .ready)
      intro process
      exact hφ process _ _ _
    · rfl
  | _ => rfl

theorem runScheduler_live (hl : t.Live q) (time : Float) : (t.runScheduler time).Live q := by
  obtain ⟨process, hq, hstate⟩ := hl
  rcases runScheduler_get? t q time with h | ⟨process', -, -, h⟩
  · exact ⟨process, h.trans hq, hstate⟩
  · exact ⟨_, h, by simp [scheduled]⟩

end TrinityOS
