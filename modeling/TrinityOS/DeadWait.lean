import TrinityOS.EffectFrames
import TrinityOS.SchedulerConsistency
import Mathlib

namespace TrinityOS

open SystemTables

/-- A reason that names the pid `q` was written by a wait for the integer `q`: waiting for `True`
leaves another text. -/
theorem waitReason_eq {w : PyInt} {q : ℤ} (h : waitReason w = s!"wait:{q}") : w = .int q := by
  have hw : w.format = toString q := (String.append_right_inj "wait:").mp h
  cases w with
  | int n => exact congrArg PyInt.int (Int.repr_injective hw)
  | bool b =>
    exfalso
    cases b with
    | true =>
      have hc : 'T' ∈ (toString q).toList := by rw [← hw]; decide
      exact absurd (mem_toString_int hc) (by decide)
    | false =>
      have hc : 'F' ∈ (toString q).toList := by rw [← hw]; decide
      exact absurd (mem_toString_int hc) (by decide)

def SystemTables.NoDeadWait (t : SystemTables) : Prop :=
  ∀ p q : ℤ, t.blockedProcesses.get? p = some s!"wait:{q}" → t.Live q

def ExitsUnawaited (t : SystemTables) (q : ℤ) (call : Syscall) : Prop :=
  ∀ exitCode, call = .processExit exitCode → q ∈ t.processes →
    ∀ p, p ≠ q → t.blockedProcesses.get? p ≠ some s!"wait:{q}"

variable {uuid4 : ℕ → String} {t t' : SystemTables} {p q : ℤ} {now : ℕ → Float} {call : Syscall}
  {r : Except PyException SyscallResult}

namespace SystemTables.NoDeadWait

theorem runScheduler (h : t.NoDeadWait) (time : Float) : (t.runScheduler time).NoDeadWait := by
  intro p q hb
  rw [runScheduler_blockedProcesses] at hb
  exact runScheduler_live (h p q hb) time

theorem effect (h : t.NoDeadWait) (hfresh : t.nextPid ∉ t.processes) (he : Effect uuid4 t p now call t' r)
    (hok : ExitsUnawaited t p call) : t'.NoDeadWait := by
  intro w q hb
  have hlive (hq : t.Live q) : t'.Live q := by
    apply he.live hfresh hq
    rintro exitCode rfl hr rfl
    cases he with
    | refused _ _ _ _ hf => exact hr hf
    | exited hp =>
      -- the exit removes the entry of `q` and leaves that of every other waiter
      rw [terminateProcess_blockedProcesses, Dict.get?_del] at hb
      split_ifs at hb with hw
      exact hok exitCode rfl hp w hw hb
  rcases he.blocked hb with hold | ⟨-, hreason, -⟩ | ⟨-, k, hreason, hk⟩
  · exact hlive (h w q hold)
  · exact absurd hreason.symm (listening_ne_wait (toString q))
  · rw [waitReason_eq hreason.symm] at hk
    exact hlive hk

theorem initializeSystem (now : ℕ → Float) : (CoreSystem.initializeSystem now).tables.NoDeadWait := by
  intro p q hb
  cases hb

theorem of_exit {exitCode : PyValue} (h : (t.terminateProcess p exitCode).NoDeadWait) {w : ℤ} (hw : w ≠ p) :
    t.blockedProcesses.get? w ≠ some s!"wait:{p}" := by
  intro hb
  have hb' : (t.terminateProcess p exitCode).blockedProcesses.get? w = some s!"wait:{p}" := by
    rw [terminateProcess_blockedProcesses, Dict.get?_del_of_ne _ hw, hb]
  obtain ⟨process, hp, hstate⟩ := h w p hb'
  rw [terminateProcess_get?, if_pos rfl] at hp
  obtain ⟨process', -, rfl⟩ := Option.map_eq_some_iff.mp hp
  exact hstate rfl

end SystemTables.NoDeadWait

namespace CoreSystem

theorem noDeadWait_always_iff (uuid4 : ℕ → String) (now : ℕ → Float) (es : List Event) :
    Run.Always (next uuid4) (fun s => s.tables.NoDeadWait) (initializeSystem now) es ↔
      Run.Guarded (next uuid4) (Allows ExitsUnawaited) (initializeSystem now) es := by
  apply always_iff_allows (J := fun t => t.PidsBelow ∧ t.NoDeadWait)
  · rintro t ⟨-, h⟩
    exact h
  · rintro t p now call t' r ⟨hb, h⟩ hok he
    exact ⟨he.pidsBelow hb, h.effect hb.fresh he hok⟩
  · rintro t time ⟨hb, h⟩
    exact ⟨runScheduler_pidsBelow hb time, h.runScheduler time⟩
  · rintro t p now call - h exitCode rfl hp
    rw [performSyscall, processExit_of_mem exitCode hp] at h
    intro w hw
    exact h.of_exit hw
  · exact ⟨initializeSystem_pidsBelow now, SystemTables.NoDeadWait.initializeSystem now⟩

theorem waiter_left_blocked : ¬ Run.Always (next Sample.uuid4) (fun s => s.tables.NoDeadWait)
    (initializeSystem Sample.timing.now)
    [Sample.call 0 3 [("wait_pid", .int 1)], Sample.call 1 2 []] := by
  intro h
  have hlive : (Sample.run [Sample.call 0 3 [("wait_pid", .int 1)], Sample.call 1 2 []]).tables.Live 1 :=
    h.last 0 1 (by decide)
  exact not_live_of_terminated (by decide) hlive

end CoreSystem

end TrinityOS
