import TrinityOS.RegionIndex
import TrinityOS.SyscallStatistics
import TrinityOS.Tally

namespace TrinityOS

open ReadyTable (Consistent)

def ProcessState.name : ProcessState → String
  | .created => "CREATED"
  | .ready => "READY"
  | .running => "RUNNING"
  | .blocked => "BLOCKED"
  | .suspended => "SUSPENDED"
  | .terminated => "TERMINATED"
  | .zombie => "ZOMBIE"

def ProcessState.members : List ProcessState :=
  [.created, .ready, .running, .blocked, .suspended, .terminated, .zombie]

def ProcessPriority.name : ProcessPriority → String
  | .idle => "IDLE"
  | .low => "LOW"
  | .normal => "NORMAL"
  | .high => "HIGH"
  | .realTime => "REAL_TIME"
  | .system => "SYSTEM"

def SchedulingPolicy.name : SchedulingPolicy → String
  | .roundRobin => "ROUND_ROBIN"
  | .fifo => "FIFO"
  | .priority => "PRIORITY"
  | .deadline => "DEADLINE"
  | .fair => "FAIR"

def MemoryPermission.name : MemoryPermission → String
  | .none => "NONE"
  | .read => "READ"
  | .write => "WRITE"
  | .readWrite => "READ_WRITE"
  | .execute => "EXECUTE"
  | .readExecute => "READ_EXECUTE"
  | .writeExecute => "WRITE_EXECUTE"
  | .readWriteExecute => "READ_WRITE_EXECUTE"

def MemoryType.name : MemoryType → String
  | .normal => "NORMAL"
  | .shared => "SHARED"
  | .locked => "LOCKED"
  | .huge => "HUGE"
  | .device => "DEVICE"

def MemoryType.members : List MemoryType := [.normal, .shared, .locked, .huge, .device]

structure ProcessReport where
  pid : ℤ
  parentPid : ℤ
  name : PyValue
  state : String
  priority : String
  policy : String
  cpuAffinity : List ℤ
  creationTime : Float
  startTime : Float
  runtime : Float
  deadline : Option Float
  memoryUsage : ℤ
  contextSwitches : ℕ
  metadata : Dict String PyValue

structure RegionReport where
  id : String
  start : ℤ
  size : ℤ
  ownerPid : ℤ
  type : String
  permissions : String
  name : String
  isMapped : Bool
  createdAt : Float
  lastAccessed : Float
  metadata : Dict String PyValue

/-- What `_detect_capabilities` has found: `physical_memory_size` and `available_memory`. -/
structure Capabilities where
  physicalMemorySize : ℤ
  availableMemory : ℤ

structure SystemInfo where
  version : String
  uptime : Float
  processCount : ℕ
  processStates : Dict String ℕ
  memoryTotal : ℤ
  memoryAvailable : ℤ
  memoryUsed : ℤ
  memoryByType : Dict String ℤ
  syscallCount : ℕ

def ProcessInfo.report (process : ProcessInfo) : ProcessReport :=
  { pid := process.processId
    parentPid := process.parentId
    name := process.name
    state := process.state.name
    priority := process.priority.name
    policy := process.policy.name
    cpuAffinity := process.cpuAffinity
    creationTime := process.creationTime
    startTime := process.startTime
    runtime := process.runtime
    deadline := process.deadline
    memoryUsage := process.memoryUsage
    contextSwitches := process.contextSwitches
    metadata := process.metadata }

def MemoryRegion.report (region : MemoryRegion) : RegionReport :=
  { id := region.id
    start := region.start
    size := region.size
    ownerPid := region.ownerPid
    type := region.memoryType.name
    permissions := region.permissions.name
    name := region.name
    isMapped := region.isMapped
    createdAt := region.createdAt
    lastAccessed := region.lastAccessed
    metadata := region.metadata }

namespace SystemTables

def getProcessInfo (t : SystemTables) (pid : ℤ) : Option ProcessReport :=
  (t.processes.get? pid).map ProcessInfo.report

def getMemoryInfo (t : SystemTables) (regionId : String) : Option RegionReport :=
  (t.memoryRegions.get? regionId).map MemoryRegion.report

def getProcessList (t : SystemTables) : List (Option ProcessReport) := t.processes.keys.map t.getProcessInfo

/-- `None` asks for all regions. A listed identifier without a region is passed over, and the
sort is stable. -/
def getMemoryMap (t : SystemTables) (pid : Option ℤ) : List RegionReport :=
  let regionIds := match pid with
    | some pid => t.processMemory.getD pid []
    | none => t.memoryRegions.keys
  (regionIds.filterMap t.getMemoryInfo).mergeSort fun a b => a.start ≤ b.start

end SystemTables

def version : String := "0.2.0"

def CoreSystem.getSystemInfo (s : CoreSystem) (capabilities : Capabilities) (now : Float) : SystemInfo :=
  let t := s.tables
  let processCounts : Dict String ℕ := Dict.ofList (ProcessState.members.map fun state => (state.name, 0))
  let memoryCounts : Dict String ℤ := Dict.ofList (MemoryType.members.map fun type => (type.name, 0))
  { version
    uptime := (t.processes.get? 0).elim 0 fun process => now - process.creationTime
    processCount := t.processes.keys.length
    processStates := processCounts.tally (·.state.name) (fun _ => 1) t.processes.values
    memoryTotal := capabilities.physicalMemorySize
    memoryAvailable := capabilities.availableMemory
    memoryUsed := (t.memoryRegions.values.map (·.size)).sum
    memoryByType := memoryCounts.tally (·.memoryType.name) (·.size) t.memoryRegions.values
    syscallCount := (s.syscallStats.values.map (·.calls)).sum }

end TrinityOS
