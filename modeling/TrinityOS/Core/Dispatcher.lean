import TrinityOS.Core.Syscall
import TrinityOS.Mailbox
import TrinityOS.Registry
import TrinityOS.Run
import Mathlib.Algebra.Order.Ring.Nat

namespace TrinityOS.Core

def Outcome.Failed : Outcome → Prop
  | .ok result => result.success = false
  | .error _ => True

def Outcome.Succeeded (out : Outcome) : Prop := ∃ result, out = .ok result ∧ result.success = true

def parsedPid : List (List UInt8) → Option ℤ
  | [] => none
  | arg :: _ => (stoi arg).toOption

def parsedMessage : List (List UInt8) → Option (ℤ × IPCMessage)
  | targetArg :: typeArg :: data :: _ => do
    let target ← (stoi targetArg).toOption
    let type ← (stoi typeArg).toOption
    return (target, ⟨⟨type⟩, data⟩)
  | _ => none

def Throws (call : Syscall) (args : List (List UInt8)) : Prop :=
  (call = .processExit ∨ call = .ipcReceive) ∧ args ≠ [] ∧ parsedPid args = none ∨
    call = .ipcSend ∧ 3 ≤ args.length ∧ parsedMessage args = none

structure CallRecord where
  call : Syscall
  args : List (List UInt8)
  outcome : Outcome

def CallRecord.registryEvents (r : CallRecord) : List (RegistryEvent ℤ) :=
  match r.outcome with
  | .error _ => []
  | .ok result =>
    if result.success = false then []
    else if r.call = .processCreate then [.issue result.value]
    else if r.call = .processExit then (parsedPid r.args).toList.map .retire
    else []

def CallRecord.mailEvents (r : CallRecord) : List (MailEvent ℤ IPCMessage) :=
  match r.outcome with
  | .error _ => []
  | .ok result =>
    if result.success = false then []
    else if r.call = .ipcSend then (parsedMessage r.args).toList.map fun (target, msg) => .send target msg
    else if r.call = .ipcReceive then
      (parsedPid r.args).toList.flatMap fun pid => result.ipcMessage.toList.map (.receive pid)
    else []

namespace SyscallDispatcher

def next (d : SyscallDispatcher) (c : Syscall × List (List UInt8)) : SyscallDispatcher :=
  (d.invokeSyscall c.1 c.2).1

def record (d : SyscallDispatcher) (c : Syscall × List (List UInt8)) : CallRecord :=
  ⟨c.1, c.2, (d.invokeSyscall c.1 c.2).2⟩

inductive Effect (d : SyscallDispatcher) : Syscall → List (List UInt8) → SyscallDispatcher → Outcome → Prop
  | failed {call args out} (hout : out.Failed) : Effect d call args d out
  | created {args} : Effect d .processCreate args
      { d with
        nextPid := d.nextPid + 1
        processes := if d.nextPid ∈ d.processes then d.processes else d.processes.set d.nextPid ⟨d.nextPid⟩ }
      (.ok ⟨true, d.nextPid, "process created", none⟩)
  | exited {args} (pid) (hparse : parsedPid args = some pid) (hpid : pid ∈ d.processes) :
      Effect d .processExit args { d with processes := d.processes.del pid } (.ok ⟨true, 0, "process exited", none⟩)
  | sent {args} (target msg) (hparse : parsedMessage args = some (target, msg)) (hpid : target ∈ d.processes) :
      Effect d .ipcSend args
        { d with messageQueues := d.messageQueues.set target (d.messageQueues.getD target [] ++ [msg]) }
        (.ok ⟨true, 0, "message sent", none⟩)
  | received {args} (pid msg rest) (hparse : parsedPid args = some pid)
      (hqueue : d.messageQueues.get? pid = some (msg :: rest)) :
      Effect d .ipcReceive args { d with messageQueues := d.messageQueues.set pid rest }
        (.ok ⟨true, 0, "message received", some msg⟩)

variable {d d' : SyscallDispatcher} {call : Syscall} {args : List (List UInt8)} {out : Outcome}

theorem parsedPid_of_ok {arg : List UInt8} {rest : List (List UInt8)} {pid : ℤ} (h : stoi arg = .ok pid) :
    parsedPid (arg :: rest) = some pid := by
  rw [parsedPid, h]
  rfl

theorem parsedMessage_of_ok {targetArg typeArg data : List UInt8} {rest : List (List UInt8)} {target type : ℤ}
    (htarget : stoi targetArg = .ok target) (htype : stoi typeArg = .ok type) :
    parsedMessage (targetArg :: typeArg :: data :: rest) = some (target, ⟨⟨type⟩, data⟩) := by
  rw [parsedMessage, htarget, htype]
  rfl

theorem processExit_effect (d : SyscallDispatcher) (args : List (List UInt8)) :
    Effect d .processExit args (d.syscallProcessExit args).1 (d.syscallProcessExit args).2 := by
  unfold syscallProcessExit
  cases args with
  | nil => exact .failed rfl
  | cons arg rest =>
    cases hparse : stoi arg with
    | error e =>
      simp only [hparse]
      exact .failed trivial
    | ok pid =>
      simp only [hparse]
      by_cases hpid : pid ∈ d.processes
      · rw [if_neg (not_not.mpr hpid)]
        exact .exited pid (parsedPid_of_ok hparse) hpid
      · rw [if_pos hpid]
        exact .failed rfl

theorem ipcSend_effect (d : SyscallDispatcher) (args : List (List UInt8)) :
    Effect d .ipcSend args (d.syscallIpcSend args).1 (d.syscallIpcSend args).2 := by
  unfold syscallIpcSend
  split
  case h_1 targetArg typeArg data rest =>
    cases htarget : stoi targetArg with
    | error e => exact .failed trivial
    | ok target =>
      cases htype : stoi typeArg with
      | error e => exact .failed trivial
      | ok type =>
        dsimp only
        by_cases hpid : target ∈ d.processes
        · rw [if_neg (not_not.mpr hpid)]
          exact .sent target _ (parsedMessage_of_ok htarget htype) hpid
        · rw [if_pos hpid]
          exact .failed rfl
  case h_2 => exact .failed rfl

theorem ipcReceive_effect (d : SyscallDispatcher) (args : List (List UInt8)) :
    Effect d .ipcReceive args (d.syscallIpcReceive args).1 (d.syscallIpcReceive args).2 := by
  unfold syscallIpcReceive
  cases args with
  | nil => exact .failed rfl
  | cons arg rest =>
    cases hparse : stoi arg with
    | error e =>
      simp only [hparse]
      exact .failed trivial
    | ok pid =>
      simp only [hparse]
      cases hqueue : d.messageQueues.get? pid with
      | none => exact .failed rfl
      | some queue =>
        cases queue with
        | nil => exact .failed rfl
        | cons msg queue => exact .received pid msg queue (parsedPid_of_ok hparse) hqueue

theorem invokeSyscall_effect (d : SyscallDispatcher) (call : Syscall) (args : List (List UInt8)) :
    Effect d call args (d.invokeSyscall call args).1 (d.invokeSyscall call args).2 := by
  by_cases hcreate : call = .processCreate
  · subst hcreate
    exact .created
  · by_cases hexit : call = .processExit
    · subst hexit
      exact processExit_effect d args
    · by_cases hsend : call = .ipcSend
      · subst hsend
        exact ipcSend_effect d args
      · by_cases hreceive : call = .ipcReceive
        · subst hreceive
          exact ipcReceive_effect d args
        · have hunknown : handlers.lookup call = none := by
            apply List.lookup_eq_none_iff.mpr
            simp [handlers, hcreate, hexit, hsend, hreceive]
          rw [invokeSyscall, hunknown]
          exact .failed rfl

theorem stoi_of_parsedPid {arg : List UInt8} {rest : List (List UInt8)} {pid : ℤ}
    (h : parsedPid (arg :: rest) = some pid) : stoi arg = .ok pid := by
  cases hparse : stoi arg with
  | error e => simp [parsedPid, hparse, Except.toOption] at h
  | ok value =>
    rw [parsedPid_of_ok hparse] at h
    rw [Option.some.inj h]

theorem processExit_of_live {pid : ℤ} (hparse : parsedPid args = some pid) (hpid : pid ∈ d.processes) :
    d.syscallProcessExit args =
      ({ d with processes := d.processes.del pid }, .ok ⟨true, 0, "process exited", none⟩) := by
  cases args with
  | nil => cases hparse
  | cons arg rest =>
    simp only [syscallProcessExit, stoi_of_parsedPid hparse]
    exact if_neg (not_not.mpr hpid)

theorem ipcSend_of_live {target : ℤ} {msg : IPCMessage} (hparse : parsedMessage args = some (target, msg))
    (hpid : target ∈ d.processes) : (d.syscallIpcSend args).2 = .ok ⟨true, 0, "message sent", none⟩ := by
  unfold parsedMessage at hparse
  split at hparse
  case h_1 targetArg typeArg data rest =>
    cases htarget : stoi targetArg with
    | error e => simp [htarget, Except.toOption] at hparse
    | ok target' =>
      cases htype : stoi typeArg with
      | error e => simp [htarget, htype, Except.toOption] at hparse
      | ok type =>
        obtain ⟨rfl, -⟩ := Prod.mk.inj (Option.some.inj (by simpa [htarget, htype, Except.toOption] using hparse))
        simp only [syscallIpcSend, htarget, htype]
        rw [if_neg (not_not.mpr hpid)]
  case h_2 => cases hparse

theorem ipcReceive_of_queued {pid : ℤ} {msg : IPCMessage} {rest : List IPCMessage}
    (hparse : parsedPid args = some pid) (hqueue : d.messageQueues.getD pid [] = msg :: rest) :
    (d.syscallIpcReceive args).2 = .ok ⟨true, 0, "message received", some msg⟩ := by
  cases args with
  | nil => cases hparse
  | cons arg args =>
    have hget : d.messageQueues.get? pid = some (msg :: rest) := by
      cases hget : d.messageQueues.get? pid with
      | none => simp [Dict.getD, hget] at hqueue
      | some queue => rwa [Dict.getD_of_get? hget, ← Option.some_inj] at hqueue
    simp only [syscallIpcReceive, stoi_of_parsedPid hparse, hget]

theorem parsedPid_of_parsedMessage {target : ℤ} {msg : IPCMessage} (h : parsedMessage args = some (target, msg)) :
    parsedPid args = some target ∧ 3 ≤ args.length := by
  unfold parsedMessage at h
  split at h
  case h_1 targetArg typeArg data rest =>
    cases htarget : stoi targetArg with
    | error e => simp [htarget, Except.toOption] at h
    | ok target' =>
      cases htype : stoi typeArg with
      | error e => simp [htarget, htype, Except.toOption] at h
      | ok type =>
        obtain ⟨rfl, -⟩ := Prod.mk.inj (Option.some.inj (by simpa [htarget, htype, Except.toOption] using h))
        exact ⟨parsedPid_of_ok htarget, by simp⟩
  case h_2 => cases h

theorem processExit_succeeded_iff :
    (d.syscallProcessExit args).2.Succeeded ↔ ∃ pid, parsedPid args = some pid ∧ pid ∈ d.processes := by
  constructor
  · rintro ⟨result, hout, hsuccess⟩
    have he := d.processExit_effect args
    rw [hout] at he
    generalize (d.syscallProcessExit args).1 = d' at he
    cases he with
    | failed hfailed => exact absurd (hfailed.symm.trans hsuccess) Bool.false_ne_true
    | exited pid hparse hpid => exact ⟨pid, hparse, hpid⟩
  · rintro ⟨pid, hparse, hpid⟩
    rw [processExit_of_live hparse hpid]
    exact ⟨_, rfl, rfl⟩

theorem ipcSend_succeeded_iff : (d.syscallIpcSend args).2.Succeeded ↔
    3 ≤ args.length ∧ ¬Throws .ipcSend args ∧ ∃ target, parsedPid args = some target ∧ target ∈ d.processes := by
  constructor
  · rintro ⟨result, hout, hsuccess⟩
    have he := d.ipcSend_effect args
    rw [hout] at he
    generalize (d.syscallIpcSend args).1 = d' at he
    cases he with
    | failed hfailed => exact absurd (hfailed.symm.trans hsuccess) Bool.false_ne_true
    | sent target msg hparse hpid =>
      obtain ⟨hfirst, hlength⟩ := parsedPid_of_parsedMessage hparse
      refine ⟨hlength, ?_, target, hfirst, hpid⟩
      rintro (⟨hcall, -⟩ | ⟨-, -, hnone⟩)
      · exact absurd hcall (by decide)
      · rw [hparse] at hnone
        cases hnone
  · rintro ⟨hlength, hparses, target, hfirst, hpid⟩
    cases hparse : parsedMessage args with
    | none => exact absurd (.inr ⟨rfl, hlength, hparse⟩) hparses
    | some parsed =>
      obtain ⟨target', msg⟩ := parsed
      obtain rfl := Option.some.inj (hfirst.symm.trans (parsedPid_of_parsedMessage hparse).1)
      exact ⟨_, ipcSend_of_live hparse hpid, rfl⟩

theorem ipcReceive_succeeded_iff {message : Option IPCMessage} :
    (∃ result, (d.syscallIpcReceive args).2 = .ok result ∧ result.success = true ∧ result.ipcMessage = message) ↔
      ∃ pid msg rest, parsedPid args = some pid ∧ d.messageQueues.getD pid [] = msg :: rest ∧ message = some msg := by
  constructor
  · rintro ⟨result, hout, hsuccess, rfl⟩
    have he := d.ipcReceive_effect args
    rw [hout] at he
    generalize (d.syscallIpcReceive args).1 = d' at he
    cases he with
    | failed hfailed => exact absurd (hfailed.symm.trans hsuccess) Bool.false_ne_true
    | received pid msg rest hparse hqueue => exact ⟨pid, msg, rest, hparse, Dict.getD_of_get? hqueue [], rfl⟩
  · rintro ⟨pid, msg, rest, hparse, hqueue, rfl⟩
    exact ⟨_, ipcReceive_of_queued hparse hqueue, rfl, rfl⟩

theorem parsedPid_eq_none {arg : List UInt8} {rest : List (List UInt8)} :
    parsedPid (arg :: rest) = none ↔ ∃ e, stoi arg = .error e := by
  cases hparse : stoi arg <;> simp [parsedPid, hparse, Except.toOption]

theorem processExit_throws_iff :
    (∃ e, (d.syscallProcessExit args).2 = .error e) ↔ args ≠ [] ∧ parsedPid args = none := by
  cases args with
  | nil => simp [syscallProcessExit, failure]
  | cons arg rest =>
    rw [parsedPid_eq_none]
    cases hparse : stoi arg with
    | error e => simp [syscallProcessExit, hparse]
    | ok pid =>
      simp only [syscallProcessExit, hparse]
      split_ifs <;> simp [failure]

theorem ipcReceive_throws_iff :
    (∃ e, (d.syscallIpcReceive args).2 = .error e) ↔ args ≠ [] ∧ parsedPid args = none := by
  cases args with
  | nil => simp [syscallIpcReceive, failure]
  | cons arg rest =>
    rw [parsedPid_eq_none]
    cases hparse : stoi arg with
    | error e => simp [syscallIpcReceive, hparse]
    | ok pid =>
      simp only [syscallIpcReceive, hparse]
      split <;> simp [failure]

theorem ipcSend_throws_iff :
    (∃ e, (d.syscallIpcSend args).2 = .error e) ↔ 3 ≤ args.length ∧ parsedMessage args = none := by
  match args with
  | [] | [_] | [_, _] => simp [syscallIpcSend, failure]
  | targetArg :: typeArg :: data :: rest =>
    cases htarget : stoi targetArg with
    | error e => simp [syscallIpcSend, parsedMessage, htarget, Except.toOption]
    | ok target =>
      cases htype : stoi typeArg with
      | error e => simp [syscallIpcSend, parsedMessage, htarget, htype, Except.toOption]
      | ok type =>
        rw [parsedMessage_of_ok htarget htype]
        simp only [syscallIpcSend, htarget, htype]
        split_ifs <;> simp [failure]

theorem throws_iff (d : SyscallDispatcher) (call : Syscall) (args : List (List UInt8)) :
    (∃ e, (d.invokeSyscall call args).2 = .error e) ↔ Throws call args := by
  unfold Throws
  by_cases hexit : call = .processExit
  · subst hexit
    have hother : Syscall.processExit ≠ .ipcSend := by decide
    simp only [true_or, true_and, hother, false_and, or_false]
    exact processExit_throws_iff
  by_cases hreceive : call = .ipcReceive
  · subst hreceive
    have hother : Syscall.ipcReceive ≠ .ipcSend := by decide
    simp only [or_true, true_and, hother, false_and, or_false]
    exact ipcReceive_throws_iff
  by_cases hsend : call = .ipcSend
  · subst hsend
    simp only [hexit, hreceive, false_and, or_self, false_or, true_and]
    exact ipcSend_throws_iff
  simp only [hexit, hreceive, hsend, false_and, or_self, iff_false, not_exists]
  intro e
  by_cases hcreate : call = .processCreate
  · subst hcreate
    exact fun h => by cases h
  · have hunknown : handlers.lookup call = none := by
      apply List.lookup_eq_none_iff.mpr
      simp [handlers, hcreate, hexit, hsend, hreceive]
    rw [invokeSyscall, hunknown]
    exact fun h => by cases h

theorem Effect.unchanged (he : Effect d call args d' out) (hfailed : out.Failed) : d' = d := by
  cases he with
  | failed => rfl
  | _ => cases hfailed

end SyscallDispatcher

open SyscallDispatcher

namespace CallRecord

variable {call : Syscall} {args : List (List UInt8)} {out : Outcome}

theorem events_of_failed (hfailed : out.Failed) :
    (CallRecord.mk call args out).registryEvents = [] ∧ (CallRecord.mk call args out).mailEvents = [] := by
  cases out with
  | error e => exact ⟨rfl, rfl⟩
  | ok result => exact ⟨if_pos hfailed, if_pos hfailed⟩

theorem events_of_exit {pid : ℤ} {message : String} (hparse : parsedPid args = some pid) :
    (CallRecord.mk .processExit args (.ok ⟨true, 0, message, none⟩)).registryEvents = [.retire pid] := by
  simp [registryEvents, hparse, Syscall.processExit, Syscall.processCreate]

theorem events_of_send {target : ℤ} {msg : IPCMessage} {message : String}
    (hparse : parsedMessage args = some (target, msg)) :
    (CallRecord.mk .ipcSend args (.ok ⟨true, 0, message, none⟩)).mailEvents = [.send target msg] := by
  simp [mailEvents, hparse]

theorem events_of_receive {pid : ℤ} {msg : IPCMessage} {message : String} (hparse : parsedPid args = some pid) :
    (CallRecord.mk .ipcReceive args (.ok ⟨true, 0, message, some msg⟩)).mailEvents = [.receive pid msg] := by
  simp [mailEvents, hparse, Syscall.ipcReceive, Syscall.ipcSend]

end CallRecord

structure Refines (h : List CallRecord) (d : SyscallDispatcher) : Prop where
  registered : Registry.Registered (h.flatMap CallRecord.registryEvents) (· ∈ d.processes)
  issued_below : ∀ pid ∈ Registry.issued (h.flatMap CallRecord.registryEvents), pid < d.nextPid
  retired_below : ∀ pid ∈ Registry.retired (h.flatMap CallRecord.registryEvents), pid < d.nextPid
  balanced : Mailbox.Balanced (h.flatMap CallRecord.mailEvents) (d.messageQueues.getD · [])

namespace Refines

variable {h : List CallRecord} {d d' : SyscallDispatcher} {call : Syscall} {args : List (List UInt8)} {out : Outcome}

theorem below (hr : Refines h d) {pid : ℤ} (hpid : pid ∈ d.processes) : pid < d.nextPid :=
  hr.issued_below pid ((hr.registered.live_iff pid).mp hpid).1

theorem not_issued (hr : Refines h d) : d.nextPid ∉ Registry.issued (h.flatMap CallRecord.registryEvents) := by
  intro hmem
  have hlt := hr.issued_below d.nextPid hmem
  omega

theorem not_retired (hr : Refines h d) : d.nextPid ∉ Registry.retired (h.flatMap CallRecord.registryEvents) := by
  intro hmem
  have hlt := hr.retired_below d.nextPid hmem
  omega

theorem of_steps {r : CallRecord} (hr : Refines h d) (hpid : d.nextPid ≤ d'.nextPid)
    (hissued : ∀ pid ∈ Registry.issued r.registryEvents, pid < d'.nextPid)
    (hretired : ∀ pid ∈ Registry.retired r.registryEvents, pid < d'.nextPid)
    (hregistry : Registry.Step (h.flatMap CallRecord.registryEvents) (· ∈ d.processes) r.registryEvents
      (· ∈ d'.processes))
    (hmail : Mailbox.Step (d.messageQueues.getD · []) r.mailEvents (d'.messageQueues.getD · [])) :
    Refines (h ++ [r]) d' := by
  have hregistryEvents : (h ++ [r]).flatMap CallRecord.registryEvents =
      h.flatMap CallRecord.registryEvents ++ r.registryEvents := by simp
  have hmailEvents : (h ++ [r]).flatMap CallRecord.mailEvents =
      h.flatMap CallRecord.mailEvents ++ r.mailEvents := by simp
  constructor
  · rw [hregistryEvents]
    exact hr.registered.step hregistry
  · rw [hregistryEvents, Registry.issued_append]
    intro pid hmem
    rcases List.mem_append.mp hmem with hmem | hmem
    · exact (hr.issued_below pid hmem).trans_le hpid
    · exact hissued pid hmem
  · rw [hregistryEvents, Registry.retired_append]
    intro pid hmem
    rcases List.mem_append.mp hmem with hmem | hmem
    · exact (hr.retired_below pid hmem).trans_le hpid
    · exact hretired pid hmem
  · rw [hmailEvents]
    exact hr.balanced.step hmail

theorem of_mail {r : CallRecord} (hr : Refines h d) (hregistry : r.registryEvents = [])
    (hprocesses : d'.processes = d.processes) (hpid : d'.nextPid = d.nextPid)
    (hmail : Mailbox.Step (d.messageQueues.getD · []) r.mailEvents (d'.messageQueues.getD · [])) :
    Refines (h ++ [r]) d' := by
  apply hr.of_steps (le_of_eq hpid.symm)
  · simp [hregistry, Registry.issued]
  · simp [hregistry, Registry.retired]
  · rw [hregistry, hprocesses]
    exact .stay
  · exact hmail

theorem effect (hr : Refines h d) (he : Effect d call args d' out) : Refines (h ++ [⟨call, args, out⟩]) d' := by
  cases he with
  | failed hfailed =>
    obtain ⟨hregistry, hmail⟩ := @CallRecord.events_of_failed call args out hfailed
    apply hr.of_mail hregistry rfl rfl
    rw [hmail]
    exact .stay
  | created =>
    have hfresh : d.nextPid ∉ d.processes := by
      intro hmem
      have hlt := hr.below hmem
      omega
    rw [if_neg hfresh]
    have hregistry : (CallRecord.mk .processCreate args
        (.ok ⟨true, d.nextPid, "process created", none⟩)).registryEvents = [.issue d.nextPid] := rfl
    have hprocesses : (· ∈ d.processes.set d.nextPid ⟨d.nextPid⟩) = fun pid => pid = d.nextPid ∨ pid ∈ d.processes := by
      funext pid
      exact propext Dict.mem_set
    refine hr.of_steps ?_ ?_ ?_ ?_ .stay
    · change d.nextPid ≤ d.nextPid + 1
      omega
    · rw [hregistry]
      intro pid hmem
      obtain rfl := List.mem_singleton.mp hmem
      change d.nextPid < d.nextPid + 1
      omega
    · rw [hregistry]
      intro pid hmem
      cases hmem
    · rw [hregistry]
      change Registry.Step _ _ _ (· ∈ d.processes.set d.nextPid ⟨d.nextPid⟩)
      rw [hprocesses]
      exact .issue d.nextPid hr.not_issued hr.not_retired
  | exited pid hparse hpid =>
    have hregistry := @CallRecord.events_of_exit args pid "process exited" hparse
    have hprocesses : (· ∈ d.processes.del pid) = fun q => q ≠ pid ∧ q ∈ d.processes := by
      funext q
      exact propext Dict.mem_del
    refine hr.of_steps (Int.le_refl _) ?_ ?_ ?_ .stay
    · rw [hregistry]
      intro q hmem
      cases hmem
    · rw [hregistry]
      intro q hmem
      obtain rfl := List.mem_singleton.mp hmem
      exact hr.below hpid
    · rw [hregistry]
      change Registry.Step _ _ _ (· ∈ d.processes.del pid)
      rw [hprocesses]
      exact .retire pid
  | sent target msg hparse hpid =>
    have hmail := @CallRecord.events_of_send args target msg "message sent" hparse
    refine hr.of_mail rfl rfl rfl ?_
    rw [hmail]
    change Mailbox.Step _ _ ((d.messageQueues.set target _).getD · [])
    rw [Dict.getD_set_eq_update]
    exact .send target msg
  | received pid msg rest hparse hqueue =>
    have hmail := @CallRecord.events_of_receive args pid msg "message received" hparse
    refine hr.of_mail rfl rfl rfl ?_
    rw [hmail]
    change Mailbox.Step _ _ ((d.messageQueues.set pid rest).getD · [])
    rw [Dict.getD_set_eq_update]
    exact .receive pid msg rest (Dict.getD_of_get? hqueue [])

theorem initial : Refines [] .initial := by
  constructor
  · have hnone : (· ∈ SyscallDispatcher.initial.processes) = fun _ => False := by
      funext pid
      exact eq_false (Dict.not_mem_empty pid)
    rw [hnone]
    exact Registry.Registered.nil
  · intro pid hmem
    cases hmem
  · intro pid hmem
    cases hmem
  · exact Mailbox.Balanced.nil

end Refines

def created (h : List CallRecord) : List ℤ := Registry.issued (h.flatMap CallRecord.registryEvents)

def exited (h : List CallRecord) : List ℤ := Registry.retired (h.flatMap CallRecord.registryEvents)

def sent (h : List CallRecord) (pid : ℤ) : List IPCMessage := Mailbox.sent pid (h.flatMap CallRecord.mailEvents)

def received (h : List CallRecord) (pid : ℤ) : List IPCMessage :=
  Mailbox.received pid (h.flatMap CallRecord.mailEvents)

theorem run_refines (calls : List (Syscall × List (List UInt8))) :
    Refines (Run.trace next record .initial calls) (Run.final next .initial calls) := by
  refine Run.invariant_trace (P := Refines) ?_ Refines.initial calls
  intro h d c hr
  exact hr.effect (d.invokeSyscall_effect c.1 c.2)

theorem dispatcher_refines (calls : List (Syscall × List (List UInt8))) :
    let h := Run.trace next record .initial calls
    let d := Run.final next .initial calls
    (created h).Nodup ∧
      (∀ pid, pid ∈ d.processes ↔ pid ∈ created h ∧ pid ∉ exited h) ∧
      (∀ pid, sent h pid = received h pid ++ d.messageQueues.getD pid []) ∧
      (∀ args, ∃ result, (d.invokeSyscall .processCreate args).2 = .ok result ∧ result.success = true ∧
        result.value ∉ created h) ∧
      (∀ args, (d.invokeSyscall .processExit args).2.Succeeded ↔
        ∃ pid, parsedPid args = some pid ∧ pid ∈ created h ∧ pid ∉ exited h) ∧
      (∀ args, (d.invokeSyscall .ipcSend args).2.Succeeded ↔ 3 ≤ args.length ∧ ¬Throws .ipcSend args ∧
        ∃ target, parsedPid args = some target ∧ target ∈ created h ∧ target ∉ exited h) ∧
      (∀ args message, (∃ result, (d.invokeSyscall .ipcReceive args).2 = .ok result ∧ result.success = true ∧
          result.ipcMessage = message) ↔
        ∃ pid msg rest, parsedPid args = some pid ∧ d.messageQueues.getD pid [] = msg :: rest ∧ message = some msg) ∧
      (∀ call args, (∃ e, (d.invokeSyscall call args).2 = .error e) ↔ Throws call args) ∧
      ∀ call args, (d.invokeSyscall call args).2.Failed → (d.invokeSyscall call args).1 = d := by
  intro h d
  have hr : Refines h d := run_refines calls
  have hlive : ∀ pid, pid ∈ d.processes ↔ pid ∈ created h ∧ pid ∉ exited h := hr.registered.live_iff
  refine ⟨hr.registered.once, hlive, hr.balanced, ?_, ?_, ?_, ?_, throws_iff d, ?_⟩
  · intro args
    exact ⟨_, rfl, rfl, hr.not_issued⟩
  · intro args
    simp only [← hlive]
    exact processExit_succeeded_iff
  · intro args
    simp only [← hlive]
    exact ipcSend_succeeded_iff
  · intro args message
    exact ipcReceive_succeeded_iff
  · intro call args hfailed
    exact (d.invokeSyscall_effect call args).unchanged hfailed

end TrinityOS.Core
