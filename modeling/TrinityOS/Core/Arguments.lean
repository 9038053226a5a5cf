import TrinityOS.Core.ExitedMail
import Mathlib.Data.List.TakeWhile

namespace TrinityOS.Core

/-- The `int` that the whole of `str` is the decimal text of. -/
def decimal? (str : List UInt8) : Option ℤ :=
  let (factor, digits) := sign str
  let value := factor * digitsValue digits
  if digits ≠ [] ∧ digits.all isdigit ∧ -2147483648 ≤ value ∧ value ≤ 2147483647 then some value
  else none

def IPCMessageType.Declared (type : IPCMessageType) : Prop := type = .text ∨ type = .binary

instance (type : IPCMessageType) : Decidable type.Declared := inferInstanceAs (Decidable (_ ∨ _))

def IsDecimal (arg : List UInt8) : Prop := (decimal? arg).isSome

def NamesType (arg : List UInt8) : Prop := ∃ n, decimal? arg = some n ∧ IPCMessageType.Declared ⟨n⟩

structure WellFormed (call : Syscall) (args : List (List UInt8)) : Prop where
  pid : call = .processExit ∨ call = .ipcReceive → ∃ arg rest, args = arg :: rest ∧ IsDecimal arg
  message : call = .ipcSend → ∃ targetArg typeArg data rest,
    args = targetArg :: typeArg :: data :: rest ∧ IsDecimal targetArg ∧ NamesType typeArg

theorem wellFormed_pid {call : Syscall} (h : call = .processExit ∨ call = .ipcReceive) {arg : List UInt8}
    {rest : List (List UInt8)} : WellFormed call (arg :: rest) ↔ IsDecimal arg := by
  constructor
  · intro hwell
    obtain ⟨arg', rest', heq, hdecimal⟩ := hwell.pid h
    rwa [(List.cons.inj heq).1]
  · intro hdecimal
    refine ⟨fun _ => ⟨arg, rest, rfl, hdecimal⟩, ?_⟩
    rintro rfl
    exact absurd h (by decide)

theorem wellFormed_ipcSend {targetArg typeArg data : List UInt8} {rest : List (List UInt8)} :
    WellFormed .ipcSend (targetArg :: typeArg :: data :: rest) ↔ IsDecimal targetArg ∧ NamesType typeArg := by
  constructor
  · intro hwell
    obtain ⟨targetArg', typeArg', data', rest', heq, hvalid⟩ := hwell.message rfl
    obtain ⟨htarget, hrest⟩ := List.cons.inj heq
    rwa [htarget, (List.cons.inj hrest).1]
  · intro hvalid
    exact ⟨fun h => absurd h (by decide), fun _ => ⟨targetArg, typeArg, data, rest, rfl, hvalid⟩⟩

theorem wellFormed_other {call : Syscall} {args : List (List UInt8)} (hexit : call ≠ .processExit)
    (hreceive : call ≠ .ipcReceive) (hsend : call ≠ .ipcSend) : WellFormed call args :=
  ⟨fun h => absurd h (not_or.mpr ⟨hexit, hreceive⟩), fun h => absurd h hsend⟩

namespace SyscallDispatcher

def Validates (d : SyscallDispatcher) (c : Syscall × List (List UInt8)) : Prop :=
  ∃ result, (d.invokeSyscall c.1 c.2).2 = .ok result ∧
    (result.success = true → WellFormed c.1 c.2) ∧
    (¬ WellFormed c.1 c.2 → result.success = false ∧ (d.invokeSyscall c.1 c.2).1 = d)

def TypesDeclared (d : SyscallDispatcher) : Prop :=
  ∀ pid, ∀ msg ∈ d.messageQueues.getD pid [], msg.type.Declared

def Admits (d : SyscallDispatcher) (c : Syscall × List (List UInt8)) : Prop :=
  if c.1 = .processExit then
    ∀ arg rest, c.2 = arg :: rest → ∃ pid, stoi arg = .ok pid ∧ (pid ∈ d.processes → IsDecimal arg)
  else if c.1 = .ipcReceive then
    ∀ arg rest, c.2 = arg :: rest →
      ∃ pid, stoi arg = .ok pid ∧ (d.messageQueues.getD pid [] ≠ [] → IsDecimal arg)
  else if c.1 = .ipcSend then
    ∀ targetArg typeArg data rest, c.2 = targetArg :: typeArg :: data :: rest →
      ∃ target type, stoi targetArg = .ok target ∧ stoi typeArg = .ok type ∧
        (target ∈ d.processes → IsDecimal targetArg ∧ NamesType typeArg)
  else True

end SyscallDispatcher

theorem not_isspace_of_isdigit {c : UInt8} (h : isdigit c = true) : isspace c = false := by
  simp only [isdigit, Bool.and_eq_true, decide_eq_true_eq, UInt8.le_iff_toNat_le] at h
  simp only [isspace, Bool.or_eq_false_iff, Bool.and_eq_false_iff, decide_eq_false_iff_not,
    UInt8.le_iff_toNat_le, ← UInt8.toNat_inj]
  simp only [UInt8.reduceToNat] at h ⊢
  omega

theorem sign_of_other {c : UInt8} {rest : List UInt8} (hminus : c ≠ 45) (hplus : c ≠ 43) :
    sign (c :: rest) = (1, c :: rest) := by
  unfold sign
  split
  · next h => exact absurd (List.cons.inj h).1 hminus
  · next h => exact absurd (List.cons.inj h).1 hplus
  · rfl

theorem decimal_spec {str : List UInt8} {n : ℤ} (h : decimal? str = some n) :
    (sign str).2 ≠ [] ∧ (∀ c ∈ (sign str).2, isdigit c) ∧ n = (sign str).1 * digitsValue (sign str).2 ∧
      -2147483648 ≤ n ∧ n ≤ 2147483647 := by
  simp only [decimal?] at h
  split at h
  · next hvalid =>
    obtain rfl := Option.some.inj h
    exact ⟨hvalid.1, List.all_eq_true.mp hvalid.2.1, rfl, hvalid.2.2⟩
  · cases h

theorem not_isspace_of_decimal {c : UInt8} {rest : List UInt8} {n : ℤ} (h : decimal? (c :: rest) = some n) :
    isspace c = false := by
  by_cases hminus : c = 45
  · subst hminus
    decide
  by_cases hplus : c = 43
  · subst hplus
    decide
  obtain ⟨-, hdigits, -⟩ := decimal_spec h
  rw [sign_of_other hminus hplus] at hdigits
  exact not_isspace_of_isdigit (hdigits c (List.mem_cons_self ..))

/-- On the decimal text of an `int` the parser gives that number; it also accepts white space
before it and anything after it. -/
theorem stoi_of_decimal {str : List UInt8} {n : ℤ} (h : decimal? str = some n) : stoi str = .ok n := by
  have hdrop : str.dropWhile isspace = str := by
    cases str with
    | nil => rfl
    | cons c rest =>
      apply List.dropWhile_cons_of_neg
      rw [not_isspace_of_decimal h]
      decide
  obtain ⟨hne, hdigits, rfl, hlow, hhigh⟩ := decimal_spec h
  have hall : (sign str).2.takeWhile isdigit = (sign str).2 := List.takeWhile_eq_self_iff.mpr hdigits
  have hrange : ¬ ((sign str).1 * digitsValue (sign str).2 < -2147483648 ∨
      2147483647 < (sign str).1 * digitsValue (sign str).2) := by omega
  simp only [stoi, hdrop, hall, if_neg hne, if_neg hrange]

example : stoi [32, 49, 120] = .ok 1 ∧ decimal? [32, 49, 120] = none ∧ decimal? [45, 49] = some (-1) := by decide

namespace SyscallDispatcher

variable {d : SyscallDispatcher} {call : Syscall} {args : List (List UInt8)}

theorem validates_of_failure {message : String} (h : d.invokeSyscall call args = (d, failure message)) :
    d.Validates (call, args) := by
  refine ⟨⟨false, -1, message, none⟩, by rw [h]; rfl, ?_, ?_⟩
  · intro hsuccess
    cases hsuccess
  · intro _
    exact ⟨rfl, by rw [h]⟩

theorem not_validates_of_error {e : StoiException} (h : d.invokeSyscall call args = (d, .error e)) :
    ¬ d.Validates (call, args) := by
  rintro ⟨result, hresult, -⟩
  rw [h] at hresult
  cases hresult

theorem validates_of_success_iff {result : SyscallResult} {d' : SyscallDispatcher}
    (h : d.invokeSyscall call args = (d', .ok result)) (hsuccess : result.success = true) :
    d.Validates (call, args) ↔ WellFormed call args := by
  constructor
  · rintro ⟨result', hresult, hwell, -⟩
    rw [h] at hresult
    obtain rfl := Except.ok.inj hresult
    exact hwell hsuccess
  · intro hwell
    exact ⟨result, by rw [h], fun _ => hwell, fun hbad => absurd hwell hbad⟩

theorem pidCall_validates_iff {live : ℤ → Prop}
    (hmissing : ∃ message, d.invokeSyscall call [] = (d, failure message))
    (hraised : ∀ arg rest e, stoi arg = .error e → d.invokeSyscall call (arg :: rest) = (d, .error e))
    (hrefused : ∀ arg rest pid, stoi arg = .ok pid → ¬ live pid →
      ∃ message, d.invokeSyscall call (arg :: rest) = (d, failure message))
    (hserved : ∀ arg rest pid, stoi arg = .ok pid → live pid →
      ∃ d' result, d.invokeSyscall call (arg :: rest) = (d', .ok result) ∧ result.success = true)
    (hwell : ∀ arg rest, WellFormed call (arg :: rest) ↔ IsDecimal arg) :
    d.Validates (call, args) ↔
      ∀ arg rest, args = arg :: rest → ∃ pid, stoi arg = .ok pid ∧ (live pid → IsDecimal arg) := by
  cases args with
  | nil =>
    obtain ⟨message, hinvoke⟩ := hmissing
    exact iff_of_true (validates_of_failure hinvoke) nofun
  | cons arg rest =>
    cases hparse : stoi arg with
    | error e =>
      refine iff_of_false (not_validates_of_error (hraised arg rest e hparse)) ?_
      intro h
      obtain ⟨pid, hpid, -⟩ := h arg rest rfl
      rw [hparse] at hpid
      cases hpid
    | ok pid =>
      have hadmits : (∀ arg' rest', arg :: rest = arg' :: rest' →
          ∃ pid, stoi arg' = .ok pid ∧ (live pid → IsDecimal arg')) ↔ (live pid → IsDecimal arg) := by
        constructor
        · intro h hlive
          obtain ⟨pid', hpid', hdecimal⟩ := h arg rest rfl
          rw [hparse] at hpid'
          obtain rfl := Except.ok.inj hpid'
          exact hdecimal hlive
        · intro h arg' rest' heq
          obtain ⟨rfl, rfl⟩ := List.cons.inj heq
          exact ⟨pid, hparse, h⟩
      rw [hadmits]
      by_cases hlive : live pid
      · obtain ⟨d', result, hinvoke, hsuccess⟩ := hserved arg rest pid hparse hlive
        rw [validates_of_success_iff hinvoke hsuccess, hwell]
        exact ⟨fun h _ => h, fun h => h hlive⟩
      · obtain ⟨message, hinvoke⟩ := hrefused arg rest pid hparse hlive
        exact iff_of_true (validates_of_failure hinvoke) fun h => absurd h hlive

theorem processExit_validates_iff : d.Validates (.processExit, args) ↔ d.Admits (.processExit, args) := by
  have hinvoke (args) : d.invokeSyscall .processExit args = d.syscallProcessExit args := rfl
  rw [Admits, if_pos rfl]
  apply pidCall_validates_iff
  · exact ⟨"missing pid", rfl⟩
  · intro arg rest e hparse
    simp only [hinvoke, syscallProcessExit, hparse]
  · intro arg rest pid hparse hpid
    simp only [hinvoke, syscallProcessExit, hparse]
    exact ⟨"process not found", if_pos hpid⟩
  · intro arg rest pid hparse hpid
    exact ⟨_, _, processExit_of_live (@parsedPid_of_ok arg rest pid hparse) hpid, rfl⟩
  · intro arg rest
    exact wellFormed_pid (.inl rfl)

theorem ipcReceive_validates_iff : d.Validates (.ipcReceive, args) ↔ d.Admits (.ipcReceive, args) := by
  have hinvoke (args) : d.invokeSyscall .ipcReceive args = d.syscallIpcReceive args := rfl
  have hother : Syscall.ipcReceive ≠ .processExit := by decide
  rw [Admits, if_neg hother, if_pos rfl]
  apply pidCall_validates_iff
  · exact ⟨"missing pid", rfl⟩
  · intro arg rest e hparse
    simp only [hinvoke, syscallIpcReceive, hparse]
  · intro arg rest pid hparse hempty
    exact ⟨_, ipcReceive_of_empty (@parsedPid_of_ok arg rest pid hparse) (not_not.mp hempty)⟩
  · intro arg rest pid hparse hqueued
    simp only [hinvoke, syscallIpcReceive, hparse]
    cases hqueue : d.messageQueues.get? pid with
    | none => exact absurd (Dict.getD_of_not_mem (Dict.not_mem_iff.mpr hqueue) []) hqueued
    | some queue =>
      cases queue with
      | nil => exact absurd (Dict.getD_of_get? hqueue []) hqueued
      | cons msg rest => exact ⟨_, _, rfl, rfl⟩
  · intro arg rest
    exact wellFormed_pid (.inr rfl)

theorem admits_ipcSend {targetArg typeArg data : List UInt8} {rest : List (List UInt8)} :
    d.Admits (.ipcSend, targetArg :: typeArg :: data :: rest) ↔
      ∃ target type, stoi targetArg = .ok target ∧ stoi typeArg = .ok type ∧
        (target ∈ d.processes → IsDecimal targetArg ∧ NamesType typeArg) := by
  have hother : Syscall.ipcSend ≠ .processExit ∧ Syscall.ipcSend ≠ .ipcReceive := by decide
  rw [Admits, if_neg hother.1, if_neg hother.2, if_pos rfl]
  constructor
  · intro h
    exact h targetArg typeArg data rest rfl
  · intro h targetArg' typeArg' data' rest' heq
    obtain ⟨rfl, hrest⟩ := List.cons.inj heq
    obtain ⟨rfl, -⟩ := List.cons.inj hrest
    exact h

theorem ipcSend_validates_iff : d.Validates (.ipcSend, args) ↔ d.Admits (.ipcSend, args) := by
  have hinvoke (args) : d.invokeSyscall .ipcSend args = d.syscallIpcSend args := rfl
  match args with
  | [] | [_] | [_, _] =>
    refine iff_of_true (validates_of_failure rfl) ?_
    intro targetArg typeArg data rest h
    cases h
  | targetArg :: typeArg :: data :: rest =>
    rw [admits_ipcSend]
    cases htarget : stoi targetArg with
    | error e =>
      have hraised : d.invokeSyscall .ipcSend (targetArg :: typeArg :: data :: rest) = (d, .error e) := by
        simp only [hinvoke, syscallIpcSend, htarget]
      exact iff_of_false (not_validates_of_error hraised) (by simp)
    | ok target =>
      cases htype : stoi typeArg with
      | error e =>
        have hraised : d.invokeSyscall .ipcSend (targetArg :: typeArg :: data :: rest) = (d, .error e) := by
          simp only [hinvoke, syscallIpcSend, htarget, htype]
        exact iff_of_false (not_validates_of_error hraised) (by simp)
      | ok type =>
        simp only [Except.ok.injEq, exists_eq_left', exists_and_left]
        by_cases hpid : target ∈ d.processes
        · have hsent : ∃ d' result, result.success = true ∧
              d.invokeSyscall .ipcSend (targetArg :: typeArg :: data :: rest) = (d', .ok result) := by
            simp only [hinvoke, syscallIpcSend, htarget, htype, if_neg (not_not.mpr hpid)]
            exact ⟨_, _, rfl, rfl⟩
          obtain ⟨d', result, hsuccess, hsent⟩ := hsent
          rw [validates_of_success_iff hsent hsuccess, wellFormed_ipcSend]
          exact ⟨fun h _ => h, fun h => h hpid⟩
        · have hrefused : d.invokeSyscall .ipcSend (targetArg :: typeArg :: data :: rest) =
              (d, failure "target process not found") := by
            simp only [hinvoke, syscallIpcSend, htarget, htype, if_pos hpid]
          exact iff_of_true (validates_of_failure hrefused) fun h => absurd h hpid

theorem validates_iff (d : SyscallDispatcher) (c : Syscall × List (List UInt8)) : d.Validates c ↔ d.Admits c := by
  obtain ⟨call, args⟩ := c
  by_cases hexit : call = .processExit
  · subst hexit
    exact processExit_validates_iff
  by_cases hreceive : call = .ipcReceive
  · subst hreceive
    exact ipcReceive_validates_iff
  by_cases hsend : call = .ipcSend
  · subst hsend
    exact ipcSend_validates_iff
  have hadmits : d.Admits (call, args) := by
    rw [Admits, if_neg hexit, if_neg hreceive, if_neg hsend]
    trivial
  refine iff_of_true ?_ hadmits
  have hwell : WellFormed call args := wellFormed_other hexit hreceive hsend
  by_cases hcreate : call = .processCreate
  · subst hcreate
    exact (validates_of_success_iff rfl rfl).mpr hwell
  · have hunknown : handlers.lookup call = none := by
      apply List.lookup_eq_none_iff.mpr
      simp [handlers, hcreate, hexit, hsend, hreceive]
    apply validates_of_failure
    rw [invokeSyscall, hunknown]

theorem declared_of_admits {target : ℤ} {msg : IPCMessage} (hok : d.Admits (.ipcSend, args))
    (hparse : parsedMessage args = some (target, msg)) (hpid : target ∈ d.processes) : msg.type.Declared := by
  match args with
  | [] | [_] | [_, _] => cases hparse
  | targetArg :: typeArg :: data :: rest =>
    obtain ⟨target', type, htarget, htype, hwell⟩ := admits_ipcSend.mp hok
    rw [parsedMessage_of_ok htarget htype] at hparse
    obtain ⟨rfl, rfl⟩ := Prod.mk.inj (Option.some.inj hparse)
    obtain ⟨n, hn, hdeclared⟩ := (hwell hpid).2
    rw [stoi_of_decimal hn] at htype
    obtain rfl := Except.ok.inj htype
    exact hdeclared

theorem TypesDeclared.next (h : d.TypesDeclared) {c : Syscall × List (List UInt8)} (hok : d.Admits c) :
    (d.next c).TypesDeclared := by
  obtain ⟨call, args⟩ := c
  have he := d.invokeSyscall_effect call args
  change TypesDeclared (d.invokeSyscall call args).1
  generalize (d.invokeSyscall call args).1 = d' at he ⊢
  generalize (d.invokeSyscall call args).2 = out at he
  cases he with
  | failed => exact h
  | created => exact h
  | exited => exact h
  | sent target msg hparse hpid =>
    intro pid msg' hmem
    rw [Dict.getD_set] at hmem
    split at hmem
    · next heq =>
      rcases List.mem_append.mp hmem with hmem | hmem
      · exact h target msg' hmem
      · obtain rfl := List.mem_singleton.mp hmem
        exact declared_of_admits hok hparse hpid
    · exact h pid msg' hmem
  | received pid msg rest hparse hqueue =>
    intro pid' msg' hmem
    rw [Dict.getD_set] at hmem
    split at hmem
    · next heq =>
      apply h pid msg'
      rw [Dict.getD_of_get? hqueue]
      exact List.mem_cons_of_mem _ hmem
    · exact h pid' msg' hmem

theorem arguments_validated_iff (d : SyscallDispatcher) (calls : List (Syscall × List (List UInt8))) :
    (Run.Guarded next Validates d calls ↔ Run.Guarded next Admits d calls) ∧
      (d.TypesDeclared → Run.Guarded next Admits d calls → Run.Always next TypesDeclared d calls) := by
  constructor
  · constructor
    · exact Run.Guarded.imp fun d c => (d.validates_iff c).mp
    · exact Run.Guarded.imp fun d c => (d.validates_iff c).mpr
  · intro h hok
    apply hok.always _ h
    intro d c h hc
    exact h.next hc

theorem letters_raise : ¬ Run.Guarded next Validates .initial [(.processExit, [[97, 98, 99]])] := by
  rintro ⟨⟨result, hresult, -⟩, -⟩
  cases hresult

end SyscallDispatcher

end TrinityOS.Core
