import TrinityOS.Core.Dispatcher

namespace TrinityOS.Core.SyscallDispatcher

structure MailLive (d : SyscallDispatcher) : Prop where
  queued : ∀ pid, d.messageQueues.getD pid [] ≠ [] → pid ∈ d.processes
  received : ∀ args pid result, parsedPid args = some pid → pid ∉ d.processes →
    (d.invokeSyscall .ipcReceive args).2 = .ok result → result.ipcMessage = none

def ExitsEmptied (d : SyscallDispatcher) (c : Syscall × List (List UInt8)) : Prop :=
  c.1 = .processExit → ∀ pid, parsedPid c.2 = some pid → pid ∈ d.processes → d.messageQueues.getD pid [] = []

variable {d d' : SyscallDispatcher} {call : Syscall} {args : List (List UInt8)} {out : Outcome}

theorem ipcReceive_of_empty {pid : ℤ} (hparse : parsedPid args = some pid)
    (hempty : d.messageQueues.getD pid [] = []) : d.syscallIpcReceive args = (d, failure "no message") := by
  cases args with
  | nil => cases hparse
  | cons arg rest =>
    simp only [syscallIpcReceive, stoi_of_parsedPid hparse]
    cases hqueue : d.messageQueues.get? pid with
    | none => rfl
    | some queue =>
      rw [Dict.getD_of_get? hqueue] at hempty
      subst hempty
      rfl

theorem mailLive_iff : d.MailLive ↔ ∀ pid, d.messageQueues.getD pid [] ≠ [] → pid ∈ d.processes := by
  constructor
  · exact MailLive.queued
  · intro h
    refine ⟨h, fun args pid result hparse hpid hout => ?_⟩
    have hempty : d.messageQueues.getD pid [] = [] := by
      by_contra hmail
      exact hpid (h pid hmail)
    change (d.syscallIpcReceive args).2 = .ok result at hout
    rw [ipcReceive_of_empty hparse hempty] at hout
    rw [← Except.ok.inj hout]

theorem MailLive.effect (h : d.MailLive) (he : Effect d call args d' out) (hok : d.ExitsEmptied (call, args)) :
    d'.MailLive := by
  rw [mailLive_iff] at h ⊢
  intro q hmail
  cases he with
  | failed => exact h q hmail
  | created =>
    have hq := h q hmail
    change q ∈ (if d.nextPid ∈ d.processes then d.processes else d.processes.set d.nextPid ⟨d.nextPid⟩)
    split_ifs
    · exact hq
    · exact Dict.mem_set.mpr (.inr hq)
  | exited pid hparse hpid =>
    apply Dict.mem_del.mpr
    refine ⟨?_, h q hmail⟩
    rintro rfl
    exact hmail (hok rfl q hparse hpid)
  | sent target msg hparse hpid =>
    by_cases hq : q = target
    · rw [hq]
      exact hpid
    · apply h q
      change (d.messageQueues.set target _).getD q [] ≠ [] at hmail
      rwa [Dict.getD_set, if_neg hq] at hmail
  | received pid msg rest hparse hqueue =>
    apply h q
    by_cases hq : q = pid
    · rw [hq, Dict.getD_of_get? hqueue]
      simp
    · change (d.messageQueues.set pid rest).getD q [] ≠ [] at hmail
      rwa [Dict.getD_set, if_neg hq] at hmail

theorem exitsEmptied_of_mailLive (h : (d.invokeSyscall call args).1.MailLive) : d.ExitsEmptied (call, args) := by
  rintro hcall pid hparse hpid
  change call = .processExit at hcall
  subst hcall
  change (d.syscallProcessExit args).1.MailLive at h
  rw [processExit_of_live hparse hpid] at h
  by_contra hmail
  exact (Dict.mem_del.mp (h.queued pid hmail)).1 rfl

theorem mailLive_always_iff (calls : List (Syscall × List (List UInt8))) :
    Run.Always next MailLive .initial calls ↔ Run.Guarded next ExitsEmptied .initial calls := by
  apply Run.always_iff_guarded (J := MailLive)
  · intro d h
    exact h
  · intro d c h hok
    exact h.effect (d.invokeSyscall_effect c.1 c.2) hok
  · intro d c _ h
    exact exitsEmptied_of_mailLive h
  · rw [mailLive_iff]
    intro pid hmail
    exact absurd rfl hmail

/-- The arguments are "1", and "1", "0", "". -/
theorem mail_outlives_process : ¬ Run.Always next MailLive .initial
    [(.processCreate, []), (.ipcSend, [[49], [48], []]), (.processExit, [[49]])] := by
  intro h
  have hlive := h.last.queued 1 (by decide)
  exact absurd hlive (by decide)

end TrinityOS.Core.SyscallDispatcher
