import TrinityOS.Reports

namespace TrinityOS

open SystemTables
open ReadyTable (Consistent)

namespace SystemTables

def StatesUsed (t : SystemTables) : Prop :=
  ∀ q state, t.readyTable.status q = some state →
    state = .ready ∨ state = .blocked ∨ state = .terminated ∨ state = .running ∧ q = 0

def TypesUsed (t : SystemTables) : Prop :=
  ∀ id region, t.memoryRegions.get? id = some region →
    region.memoryType = .normal ∨ region.memoryType = .shared ∨
      region.memoryType = .locked ∧ id = "kernel_main" ∧ region.size = 64 * 1024 * 1024

end SystemTables

variable {uuid4 : ℕ → String} {t t' : SystemTables} {p q : ℤ} {now : ℕ → Float} {call : Syscall}
  {r : Except PyException SyscallResult}

theorem SystemTables.status_modify {w : ℤ} {f : ProcessInfo → ProcessInfo} {state : ProcessState}
    (hget : t'.processes.get? q = if q = w then (t.processes.get? w).map f else t.processes.get? q)
    (hf : ∀ process, (f process).state = state) :
    t'.readyTable.status q = t.readyTable.status q ∨ q = w ∧ t'.readyTable.status q = some state := by
  by_cases hq : q = w
  · subst hq
    simp only [readyTable, hget, ↓reduceIte]
    cases t.processes.get? q with
    | none => exact .inl rfl
    | some process => exact .inr ⟨trivial, congrArg some (hf process)⟩
  · left
    simp only [readyTable, hget, hq, ↓reduceIte]

theorem Effect.status (h : Effect uuid4 t p now call t' r) :
    t'.readyTable.status q = t.readyTable.status q ∨
      t'.readyTable.status q = some .ready ∨ t'.readyTable.status q = some .blocked ∨
      t'.readyTable.status q = some .terminated ∧ call.number = 2 ∧ p = q ∧ ¬ Failed r := by
  cases h with
  | created =>
    by_cases hq : q = t.nextPid
    · exact .inr (.inl (by simp [readyTable, newProcessInfo, hq]))
    · left
      simp [readyTable, newProcessInfo, hq]
  | exited =>
    rcases status_modify (terminateProcess_get? t p q _) (fun _ => rfl) with h | ⟨hq, h⟩
    · exact .inl h
    · exact .inr (.inr (.inr ⟨h, rfl, hq.symm, by simp [Failed, SyscallResult.ok]⟩))
  | waiting | listening =>
    rcases status_modify (parkProcess_get? { t with readyQueue := t.readyQueue.erase p } p q _) (fun _ => rfl) with
      h | ⟨-, h⟩
    · exact .inl h
    · exact .inr (.inr (.inl h))
  | allocated | freed =>
    left
    exact congrArg (fun v => v.status q) (readyTable_addMemoryUsage _)
  | sent w =>
    unfold wakeTarget
    split
    · rcases status_modify (t := t) (setState_get? _ w.val q .ready) (fun _ => rfl) with h | ⟨-, h⟩
      · exact .inl h
      · exact .inr (.inl h)
    · exact .inl rfl
  | _ => exact .inl rfl

namespace SystemTables

theorem StatesUsed.effect (h : t.StatesUsed) (he : Effect uuid4 t p now call t' r) : t'.StatesUsed := by
  intro q state hstate
  rcases he.status (q := q) with hsame | hready | hblocked | ⟨hterminated, -⟩
  · rw [hsame] at hstate
    exact h q state hstate
  · exact .inl (Option.some.inj (hstate.symm.trans hready))
  · exact .inr (.inl (Option.some.inj (hstate.symm.trans hblocked)))
  · exact .inr (.inr (.inl (Option.some.inj (hstate.symm.trans hterminated))))

theorem StatesUsed.runScheduler (h : t.StatesUsed) (time : Float) : (t.runScheduler time).StatesUsed := by
  intro q state hstate
  rcases runScheduler_get? t q time with hget | ⟨process, -, -, hget⟩
  · simp only [readyTable, hget] at hstate
    exact h q state hstate
  · simp only [readyTable, hget] at hstate
    exact .inl (Option.some.inj hstate).symm

theorem TypesUsed.register {region : MemoryRegion} (h : t.TypesUsed)
    (htype : region.memoryType = .normal ∨ region.memoryType = .shared) : (t.registerRegion p region).TypesUsed := by
  intro id region' hr
  rw [registerRegion_memoryRegions, Dict.get?_set] at hr
  split_ifs at hr with hid
  · obtain rfl := Option.some.inj hr
    tauto
  · exact h id region' hr

theorem TypesUsed.effect (h : t.TypesUsed) (he : Effect uuid4 t p now call t' r) : t'.TypesUsed := by
  intro id region hr
  cases he with
  | created =>
    rcases admitProcess_memoryRegions_get? hr with ⟨hnew, -⟩ | hold
    · simp only [initialRegions, List.mem_cons, List.not_mem_nil, or_false] at hnew
      rcases hnew with rfl | rfl | rfl <;> exact .inl rfl
    · exact h id region hold
  | exited => exact h id region (terminateProcess_memoryRegions_of_get? hr)
  | allocated => exact h.register (p := p) (.inl rfl) id region hr
  | freed =>
    rw [deleteRegion_memoryRegions, Dict.get?_del] at hr
    split_ifs at hr
    exact h id region hr
  | mapped => exact h.register (p := p) (.inr rfl) id region hr
  | sent =>
    rw [wakeTarget_memoryRegions] at hr
    exact h id region hr
  | _ => exact h id region hr

end SystemTables

/-- The kernel's entry is never removed, so that its creation dates the start of the system. -/
def SystemTables.BootedAt (boot : Float) (t : SystemTables) : Prop :=
  0 < t.nextPid ∧ (t.processes.get? 0).map (·.creationTime) = some boot

theorem SystemTables.BootedAt.effect {boot : Float} (h : t.BootedAt boot) (he : Effect uuid4 t p now call t' r) :
    t'.BootedAt boot := by
  obtain ⟨hpid, hboot⟩ := h
  have hle := he.nextPid_le
  refine ⟨by omega, ?_⟩
  rw [he.map_get? (fun _ _ _ _ => rfl) (by omega), hboot]

theorem SystemTables.BootedAt.runScheduler {boot : Float} (h : t.BootedAt boot) (time : Float) :
    (t.runScheduler time).BootedAt boot := by
  obtain ⟨hpid, hboot⟩ := h
  refine ⟨by simpa using hpid, ?_⟩
  rcases runScheduler_get? t 0 time with hget | ⟨process, -, hprocess, hget⟩
  · rw [hget, hboot]
  · rw [hget, ← hboot, hprocess]
    rfl

namespace CoreSystem

section report

variable {s : CoreSystem} {capabilities : Capabilities} {time : Float}

end report

variable {uuid4 : ℕ → String}

def CallsCounted (history : List CallRecord) (s : CoreSystem) : Prop :=
  (∀ n, (findSyscall n).isSome → n ∈ s.syscallStats) ∧
    (s.syscallStats.values.map (·.calls)).sum = history.countP fun c => (findSyscall c.syscallNumber).isSome

theorem sum_calls_settle {s : CoreSystem} {n : ℤ} (hn : n ∈ s.syscallStats) (t : SystemTables) (timing : Timing)
    (outcome : Except PyException SyscallResult) :
    ((({ s.countCall n with tables := t } : CoreSystem).settle n timing outcome).1.syscallStats.values.map
      (·.calls)).sum = (s.syscallStats.values.map (·.calls)).sum + 1 := by
  have hcount : ((s.countCall n).syscallStats.values.map (·.calls)).sum =
      (s.syscallStats.values.map (·.calls)).sum + 1 := Dict.sum_map_values_modify hn fun _ => rfl
  have hn' : n ∈ (s.countCall n).syscallStats := Dict.mem_modify.mpr hn
  rw [← hcount]
  -- what is added after the call is an error or a time, never a call
  cases outcome with
  | ok result => exact Dict.sum_map_values_modify (w := 0) hn' fun _ => rfl
  | error e => exact Dict.sum_map_values_modify (w := 0) hn' fun _ => rfl

theorem CallsCounted.next {history : List CallRecord} {s : CoreSystem} (h : s.CallsCounted history) (e : Event) :
    (s.next uuid4 e).CallsCounted (history ++ s.record uuid4 e) := by
  obtain ⟨hmem, hsum⟩ := h
  cases e with
  | scheduler now => simpa [CallsCounted, CoreSystem.next, record] using ⟨hmem, hsum⟩
  | syscall p n args timing =>
    rw [CallsCounted, List.countP_append, ← hsum]
    cases hentry : findSyscall n with
    | none => simpa [CoreSystem.next, invokeSyscall, hentry, record] using hmem
    | some entry =>
      obtain ⟨t, outcome, hinvoke, -⟩ := @invokeSyscall_settle uuid4 s n entry hentry p args timing
      rw [CoreSystem.next, hinvoke]
      refine ⟨?_, ?_⟩
      · intro m hm
        cases outcome <;> simpa [settle, countCall] using hmem m hm
      · rw [sum_calls_settle (hmem n (by simp [hentry]))]
        simp [record, hentry]

theorem CallsCounted.final {history : List CallRecord} {s : CoreSystem} (h : s.CallsCounted history)
    (es : List Event) : (Run.final (CoreSystem.next uuid4) s es).CallsCounted (history ++ s.history uuid4 es) := by
  induction es generalizing s history with
  | nil => simpa [CoreSystem.history] using h
  | cons e es ih =>
    rw [CoreSystem.history, ← List.append_assoc]
    exact ih (h.next e)

end CoreSystem

end TrinityOS
