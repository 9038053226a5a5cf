import TrinityOS.TableFields

namespace TrinityOS

/-- The handler call that `invoke_syscall` reaches, if the number is registered and the
arguments bind. -/
def boundCall (syscallNumber : ℤ) (args : Kwargs) : Option Syscall :=
  (findSyscall syscallNumber).bind fun entry => (entry.bind args).toOption

def Syscall.number : Syscall → ℤ
  | .processCreate _ _ _ => 1
  | .processExit _ => 2
  | .processWait _ => 3
  | .memoryAllocate _ _ => 10
  | .memoryFree _ => 11
  | .memoryMap _ _ _ => 12
  | .ipcSend _ _ _ _ => 20
  | .ipcReceive _ => 21

theorem call_number {entry : SyscallEntry} (h : entry ∈ syscalls) (args : Kwargs) :
    (entry.call args).number = entry.number := by
  simp only [syscalls, List.mem_cons, List.not_mem_nil, or_false] at h
  rcases h with rfl | rfl | rfl | rfl | rfl | rfl | rfl | rfl
  all_goals rfl

theorem boundCall_number {n : ℤ} {args : Kwargs} {call : Syscall} (h : boundCall n args = some call) :
    call.number = n := by
  obtain ⟨entry, hentry, hcall⟩ := Option.bind_eq_some_iff.mp h
  have hnumber : entry.number = n := by simpa using List.find?_some hentry
  unfold SyscallEntry.bind at hcall
  split at hcall
  · cases hcall
  · obtain rfl : entry.call args = call := Option.some.inj hcall
    rw [call_number (List.mem_of_find?_eq_some hentry), hnumber]

theorem boundCall_entry {n : ℤ} {args : Kwargs} {call : Syscall} (h : boundCall n args = some call) :
    ∃ entry, findSyscall n = some entry ∧ call = entry.call args := by
  obtain ⟨entry, hentry, hcall⟩ := Option.bind_eq_some_iff.mp h
  refine ⟨entry, hentry, ?_⟩
  unfold SyscallEntry.bind at hcall
  split at hcall
  · cases hcall
  · exact (Option.some.inj hcall).symm

def SyscallResult.ofOutcome : Except PyException SyscallResult → SyscallResult
  | .ok result => result
  | .error e => .raised e

theorem Failed.ofOutcome {r : Except PyException SyscallResult} :
    Failed r ↔ (SyscallResult.ofOutcome r).success = false := by
  cases r <;> simp [Failed, SyscallResult.ofOutcome, SyscallResult.raised]

namespace CoreSystem

variable {uuid4 : ℕ → String}

@[simp] theorem settle_tables (s : CoreSystem) (n : ℤ) (timing : Timing)
    (r : Except PyException SyscallResult) : (s.settle n timing r).1.tables = s.tables := by
  cases r <;> rfl

@[simp] theorem settle_result (s : CoreSystem) (n : ℤ) (timing : Timing)
    (r : Except PyException SyscallResult) : (s.settle n timing r).2 = SyscallResult.ofOutcome r := by
  cases r <;> rfl

theorem invokeSyscall_bound (s : CoreSystem) (p : ℤ) {n : ℤ} {args : Kwargs} (timing : Timing)
    {call : Syscall} (h : boundCall n args = some call) :
    (s.invokeSyscall uuid4 p n args timing).1.tables = (performSyscall uuid4 s.tables p timing.now call).1 ∧
      (s.invokeSyscall uuid4 p n args timing).2 =
        SyscallResult.ofOutcome (performSyscall uuid4 s.tables p timing.now call).2 := by
  obtain ⟨entry, hentry, hcall⟩ := Option.bind_eq_some_iff.mp h
  unfold invokeSyscall
  cases hbind : entry.bind args with
  | error e => simp [hbind, Except.toOption] at hcall
  | ok call' =>
    have he : call' = call := by simpa [hbind, Except.toOption] using hcall
    subst he
    simp [hentry, hbind, countCall]

theorem invokeSyscall_unbound (s : CoreSystem) (p : ℤ) {n : ℤ} {args : Kwargs} (timing : Timing)
    (h : boundCall n args = none) :
    (s.invokeSyscall uuid4 p n args timing).1.tables = s.tables ∧
      (s.invokeSyscall uuid4 p n args timing).2.success = false := by
  unfold invokeSyscall
  cases hentry : findSyscall n with
  | none => exact ⟨rfl, rfl⟩
  | some entry =>
    cases hbind : entry.bind args with
    | error e => simp [hbind, countCall, SyscallResult.ofOutcome, SyscallResult.raised]
    | ok call => simp [boundCall, hentry, hbind, Except.toOption] at h

end CoreSystem

inductive TableStep (uuid4 : ℕ → String) (t : SystemTables) : Event → SystemTables → Prop
  | rejected {p n args timing} (h : boundCall n args = none) :
      TableStep uuid4 t (.syscall p n args timing) t
  | called {p n args timing call t' r} (h : boundCall n args = some call)
      (heffect : Effect uuid4 t p timing.now call t' r) : TableStep uuid4 t (.syscall p n args timing) t'
  | scheduled {now} : TableStep uuid4 t (.scheduler now) (t.runScheduler now)

namespace CoreSystem

variable (uuid4 : ℕ → String)

theorem next_tableStep (s : CoreSystem) (e : Event) :
    ∃ t', (s.next uuid4 e).tables = t' ∧ TableStep uuid4 s.tables e t' := by
  cases e with
  | scheduler now => exact ⟨_, rfl, .scheduled⟩
  | syscall p n args timing =>
    cases h : boundCall n args with
    | none => exact ⟨_, (invokeSyscall_unbound s p timing h).1, .rejected h⟩
    | some call => exact ⟨_, (invokeSyscall_bound s p timing h).1, .called h (performSyscall_effect call)⟩

def Allows (ok : SystemTables → ℤ → Syscall → Prop) (s : CoreSystem) : Event → Prop
  | .syscall p n args _ => ∀ call, boundCall n args = some call → ok s.tables p call
  | .scheduler _ => True

variable {uuid4}

theorem allowed_step {P : SystemTables → Prop} {ok : SystemTables → ℤ → Syscall → Prop}
    (hcall : ∀ t p now call t' r, P t → ok t p call → Effect uuid4 t p now call t' r → P t')
    (hscheduler : ∀ t now, P t → P (t.runScheduler now)) (s : CoreSystem) (e : Event) (h : P s.tables)
    (hok : s.Allows ok e) : P (s.next uuid4 e).tables := by
  obtain ⟨t', ht, hstep⟩ := next_tableStep uuid4 s e
  rw [ht]
  cases hstep with
  | rejected => exact h
  | called hbound heffect => exact hcall _ _ _ _ _ _ h (hok _ hbound) heffect
  | scheduled => exact hscheduler _ _ h

theorem tables_step {P : SystemTables → Prop}
    (hcall : ∀ t p now call t' r, P t → Effect uuid4 t p now call t' r → P t')
    (hscheduler : ∀ t now, P t → P (t.runScheduler now)) (s : CoreSystem) (e : Event) (h : P s.tables) :
    P (s.next uuid4 e).tables := by
  have hok : s.Allows (fun _ _ _ => True) e := by cases e <;> simp [Allows]
  apply allowed_step _ hscheduler s e h hok
  intro t p now call t' r hp _
  exact hcall t p now call t' r hp

theorem always_iff_allows {J P : SystemTables → Prop} {ok : SystemTables → ℤ → Syscall → Prop}
    (hJP : ∀ t, J t → P t)
    (hcall : ∀ t p now call t' r, J t → ok t p call → Effect uuid4 t p now call t' r → J t')
    (hscheduler : ∀ t now, J t → J (t.runScheduler now))
    (hbad : ∀ t p now call, J t → P (performSyscall uuid4 t p now call).1 → ok t p call)
    {s : CoreSystem} (h : J s.tables) (es : List Event) :
    Run.Always (next uuid4) (fun s => P s.tables) s es ↔ Run.Guarded (next uuid4) (Allows ok) s es := by
  apply Run.always_iff_guarded (J := fun s => J s.tables)
  · intro s hJ
    exact hJP s.tables hJ
  · intro s e hJ hok
    exact allowed_step hcall hscheduler s e hJ hok
  · intro s e hJ hP
    cases e with
    | scheduler => trivial
    | syscall p n args timing =>
      intro call hbound
      apply hbad s.tables p timing.now call hJ
      rw [← (invokeSyscall_bound s p timing hbound).1]
      exact hP
  · exact h

theorem run_tables {P : SystemTables → Prop}
    (hinit : ∀ now, P (initializeSystem now).tables)
    (hcall : ∀ t p now call t' r, P t → Effect uuid4 t p now call t' r → P t')
    (hscheduler : ∀ t now, P t → P (t.runScheduler now)) (now : ℕ → Float) (es : List Event) :
    P (run uuid4 now es).tables :=
  Run.invariant (P := fun s : CoreSystem => P s.tables) (tables_step hcall hscheduler) (hinit now) es

end CoreSystem

structure CallRecord where
  processId : ℤ
  syscallNumber : ℤ
  args : Kwargs
  result : SyscallResult

def Event.isCall : Event → Bool
  | .syscall _ _ _ _ => true
  | .scheduler _ => false

namespace CoreSystem

variable (uuid4 : ℕ → String)

def record (s : CoreSystem) : Event → List CallRecord
  | .syscall processId syscallNumber args timing =>
    [⟨processId, syscallNumber, args, (s.invokeSyscall uuid4 processId syscallNumber args timing).2⟩]
  | .scheduler _ => []

def history (s : CoreSystem) : List Event → List CallRecord
  | [] => []
  | e :: es => s.record uuid4 e ++ (s.next uuid4 e).history es

theorem history_concat (s : CoreSystem) (es : List Event) (e : Event) :
    s.history uuid4 (es ++ [e]) = s.history uuid4 es ++ (Run.final (next uuid4) s es).record uuid4 e := by
  induction es generalizing s with
  | nil => simp [history]
  | cons d es ih => simp [history, ih, Run.final]

theorem run_concat (now : ℕ → Float) (es : List Event) (e : Event) :
    run uuid4 now (es ++ [e]) = (run uuid4 now es).next uuid4 e := Run.final_concat _ _ _

def runHistory (now : ℕ → Float) (es : List Event) : List CallRecord :=
  (initializeSystem now).history uuid4 es

theorem runHistory_concat (now : ℕ → Float) (es : List Event) (e : Event) :
    runHistory uuid4 now (es ++ [e]) = runHistory uuid4 now es ++ (run uuid4 now es).record uuid4 e :=
  history_concat uuid4 _ es e

end CoreSystem

/-! A concrete environment in which runs can be evaluated. -/
namespace Sample

def uuid4 (n : ℕ) : String := "00000000-0000-4000-8000-00000000000" ++ toString n

def timing : Timing := ⟨0, 0, fun _ => 0⟩

def call (processId syscallNumber : ℤ) (args : List (String × PyValue)) : Event :=
  .syscall processId syscallNumber (.ofList args) timing

def run (events : List Event) : CoreSystem := CoreSystem.run uuid4 timing.now events

end Sample

end TrinityOS
