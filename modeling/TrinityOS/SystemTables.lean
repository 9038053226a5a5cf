import TrinityOS.PythonValue

namespace TrinityOS

inductive ProcessState where
  | created | ready | running | blocked | suspended | terminated | zombie
  deriving DecidableEq, Repr

inductive ProcessPriority where
  | idle | low | normal | high | realTime | system
  deriving DecidableEq, Repr

inductive SchedulingPolicy where
  | roundRobin | fifo | priority | deadline | fair
  deriving DecidableEq, Repr

inductive MemoryPermission where
  | none | read | write | readWrite | execute | readExecute | writeExecute | readWriteExecute
  deriving DecidableEq, Repr

inductive MemoryType where
  | normal | shared | locked | huge | device
  deriving DecidableEq, Repr

inductive IPCMessageType where
  | signal | data | request | response | event | control
  deriving DecidableEq, Repr

def ProcessPriority.ofValue? : ℤ → Option ProcessPriority
  | 0 => some .idle
  | 10 => some .low
  | 20 => some .normal
  | 30 => some .high
  | 40 => some .realTime
  | 50 => some .system
  | _ => none

def SchedulingPolicy.ofValue? : ℤ → Option SchedulingPolicy
  | 1 => some .roundRobin
  | 2 => some .fifo
  | 3 => some .priority
  | 4 => some .deadline
  | 5 => some .fair
  | _ => none

def SchedulingPolicy.count : ℤ := 5

def MemoryPermission.ofValue? : ℤ → Option MemoryPermission
  | 0 => some .none
  | 1 => some .read
  | 2 => some .write
  | 3 => some .readWrite
  | 4 => some .execute
  | 5 => some .readExecute
  | 6 => some .writeExecute
  | 7 => some .readWriteExecute
  | _ => none

def IPCMessageType.ofValue? : ℤ → Option IPCMessageType
  | 1 => some .signal
  | 2 => some .data
  | 3 => some .request
  | 4 => some .response
  | 5 => some .event
  | 6 => some .control
  | _ => none

def IPCMessageType.name : IPCMessageType → String
  | .signal => "SIGNAL"
  | .data => "DATA"
  | .request => "REQUEST"
  | .response => "RESPONSE"
  | .event => "EVENT"
  | .control => "CONTROL"

structure ProcessInfo where
  processId : ℤ
  parentId : ℤ
  name : PyValue
  state : ProcessState
  priority : ProcessPriority
  policy : SchedulingPolicy
  cpuAffinity : List ℤ := []
  creationTime : Float
  startTime : Float := 0
  runtime : Float := 0
  deadline : Option Float := none
  timeSlice : Float := 0.01
  weight : Float := 1.0
  quantumUsed : Float := 0
  lastRun : Float := 0
  contextSwitches : ℕ := 0
  memoryUsage : ℤ := 0
  fileDescriptors : List ℤ := []
  metadata : Dict String PyValue := .empty

structure MemoryRegion where
  id : String
  start : ℤ
  size : ℤ
  ownerPid : ℤ
  memoryType : MemoryType
  permissions : MemoryPermission
  name : String := ""
  metadata : Dict String PyValue := .empty
  isMapped : Bool := true
  createdAt : Float
  lastAccessed : Float := 0

structure IPCMessage where
  messageId : String
  messageType : IPCMessageType
  senderId : ℤ
  targetId : ℤ
  subject : PyValue
  payload : PyValue
  timestamp : Float
  headers : Dict String PyValue := .empty

/-- The tables of `CoreSystem` that the handlers and the scheduler share. `uuidCount` is the
number of identifiers drawn from `uuid4` so far. -/
structure SystemTables where
  processes : Dict ℤ ProcessInfo := .empty
  nextPid : ℤ := 1000
  readyQueue : List ℤ := []
  blockedProcesses : Dict ℤ String := .empty
  memoryRegions : Dict String MemoryRegion := .empty
  processMemory : Dict ℤ (List String) := .empty
  messageQueues : Dict ℤ (List IPCMessage) := .empty
  uuidCount : ℕ := 0

inductive SyscallValue where
  | none
  | pid (pid : ℤ)
  | exitCode (exitCode : PyValue)
  | status (status : String)
  | region (regionId : String) (address size : ℤ)
  | messageId (messageId : String)
  | message (messageId messageType : String) (senderId : ℤ) (subject payload : PyValue)
      (timestamp : Float) (headers : Dict String PyValue)

/-- The text of a failure: a handler's own words, or `str(e)` of the exception raised. -/
inductive SyscallError where
  | text (message : String)
  | str (e : PyException)

structure SyscallResult where
  success : Bool
  value : SyscallValue := .none
  error : Option SyscallError := none

namespace SyscallResult

def ok (value : SyscallValue) : SyscallResult := { success := true, value }

def failure (message : String) : SyscallResult := { success := false, error := some (.text message) }

def raised (e : PyException) : SyscallResult := { success := false, error := some (.str e) }

end SyscallResult

/-- The tables a handler leaves and its outcome: what was written before an exception stays. -/
abbrev Handled := SystemTables × Except PyException SyscallResult

end TrinityOS
