import Mathlib.Data.Int.Notation
import TrinityOS.Dict

namespace TrinityOS.Core

/-! `std::stoi` in base 10, on the bytes of a string. -/
section stoi

inductive StoiException where
  | invalidArgument | outOfRange
  deriving DecidableEq

def isspace (c : UInt8) : Bool := c = 32 || (9 ≤ c && c ≤ 13)

def isdigit (c : UInt8) : Bool := 48 ≤ c && c ≤ 57

def sign : List UInt8 → ℤ × List UInt8
  | 45 :: rest => (-1, rest)
  | 43 :: rest => (1, rest)
  | rest => (1, rest)

def digitsValue (digits : List UInt8) : ℤ := digits.foldl (fun n c => 10 * n + (c.toNat - 48 : ℤ)) 0

/-- White space, a sign and at least one digit; whatever follows the digits is ignored. -/
def stoi (str : List UInt8) : Except StoiException ℤ :=
  let (factor, rest) := sign (str.dropWhile isspace)
  let digits := rest.takeWhile isdigit
  if digits = [] then .error .invalidArgument
  else
    let value := factor * digitsValue digits
    if value < -2147483648 ∨ 2147483647 < value then .error .outOfRange else .ok value

end stoi

/-- An `enum class` over `int`: a cast gives any value, declared or not. -/
structure IPCMessageType where
  value : ℤ
  deriving DecidableEq

def IPCMessageType.text : IPCMessageType := ⟨0⟩
def IPCMessageType.binary : IPCMessageType := ⟨1⟩

structure IPCMessage where
  type : IPCMessageType
  data : List UInt8
  deriving DecidableEq

structure Syscall where
  value : ℤ
  deriving DecidableEq

namespace Syscall

def processCreate : Syscall := ⟨0⟩
def processExit : Syscall := ⟨1⟩
def ipcSend : Syscall := ⟨2⟩
def ipcReceive : Syscall := ⟨3⟩

end Syscall

structure SyscallResult where
  success : Bool
  value : ℤ
  message : String
  ipcMessage : Option IPCMessage
  deriving DecidableEq

structure ProcessInfo where
  pid : ℤ

/-- Pids stay below the largest `int`, so that `next_pid_++` does not overflow. -/
structure SyscallDispatcher where
  processes : Dict ℤ ProcessInfo
  nextPid : ℤ
  messageQueues : Dict ℤ (List IPCMessage)

abbrev Outcome := Except StoiException SyscallResult

abbrev Handler := SyscallDispatcher → List (List UInt8) → SyscallDispatcher × Outcome

namespace SyscallDispatcher

def initial : SyscallDispatcher := ⟨Dict.empty, 1, Dict.empty⟩

def failure (message : String) : Outcome := .ok ⟨false, -1, message, none⟩

def syscallProcessCreate : Handler := fun d _ =>
  let pid := d.nextPid
  -- `emplace` does not replace an entry
  let processes := if pid ∈ d.processes then d.processes else d.processes.set pid ⟨pid⟩
  ({ d with nextPid := pid + 1, processes := processes }, .ok ⟨true, pid, "process created", none⟩)

def syscallProcessExit : Handler := fun d args =>
  match args with
  | [] => (d, failure "missing pid")
  | arg :: _ =>
    match stoi arg with
    | .error e => (d, .error e)
    | .ok pid =>
      if pid ∉ d.processes then (d, failure "process not found")
      else ({ d with processes := d.processes.del pid }, .ok ⟨true, 0, "process exited", none⟩)

def syscallIpcSend : Handler := fun d args =>
  match args with
  | targetArg :: typeArg :: data :: _ =>
    match stoi targetArg with
    | .error e => (d, .error e)
    | .ok targetPid =>
      match stoi typeArg with
      | .error e => (d, .error e)
      | .ok type =>
        if targetPid ∉ d.processes then (d, failure "target process not found")
        else
          let queue := d.messageQueues.getD targetPid [] ++ [⟨⟨type⟩, data⟩]
          ({ d with messageQueues := d.messageQueues.set targetPid queue }, .ok ⟨true, 0, "message sent", none⟩)
  | _ => (d, failure "missing arguments")

def syscallIpcReceive : Handler := fun d args =>
  match args with
  | [] => (d, failure "missing pid")
  | arg :: _ =>
    match stoi arg with
    | .error e => (d, .error e)
    | .ok pid =>
      match d.messageQueues.get? pid with
      | none => (d, failure "no message")
      | some [] => (d, failure "no message")
      | some (msg :: rest) =>
        ({ d with messageQueues := d.messageQueues.set pid rest }, .ok ⟨true, 0, "message received", some msg⟩)

def handlers : List (Syscall × Handler) :=
  [(.processCreate, syscallProcessCreate), (.processExit, syscallProcessExit), (.ipcSend, syscallIpcSend),
    (.ipcReceive, syscallIpcReceive)]

def invokeSyscall (d : SyscallDispatcher) (call : Syscall) (args : List (List UInt8)) :
    SyscallDispatcher × Outcome :=
  match handlers.lookup call with
  | none => (d, failure "unknown syscall")
  | some handler => handler d args

end SyscallDispatcher

end TrinityOS.Core
