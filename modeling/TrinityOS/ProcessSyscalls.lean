import TrinityOS.SystemTables
import Mathlib.Algebra.Ring.Int.Defs

namespace TrinityOS

namespace SystemTables

def setState (t : SystemTables) (pid : ℤ) (state : ProcessState) : SystemTables :=
  { t with processes := t.processes.modify pid fun process => { process with state } }

def initialRegions (pid : ℤ) (now : ℕ → Float) : List MemoryRegion :=
  [ { id := s!"{pid}_code"
      start := 0x20000000
      size := 1 * 1024 * 1024
      ownerPid := pid
      memoryType := .normal
      permissions := .readExecute
      name := "code"
      createdAt := now 0 },
    { id := s!"{pid}_data"
      start := 0x21000000
      size := 4 * 1024 * 1024
      ownerPid := pid
      memoryType := .normal
      permissions := .readWrite
      name := "data"
      createdAt := now 1 },
    { id := s!"{pid}_stack"
      start := 0x22000000
      size := 2 * 1024 * 1024
      ownerPid := pid
      memoryType := .normal
      permissions := .readWrite
      name := "stack"
      createdAt := now 2 } ]

def initProcessMemory (t : SystemTables) (pid : ℤ) (now : ℕ → Float) : SystemTables :=
  let regions := initialRegions pid now
  { t with
    memoryRegions := regions.foldl (fun memoryRegions region => memoryRegions.set region.id region)
      t.memoryRegions
    -- the entry is overwritten, whatever it held
    processMemory := t.processMemory.set pid (regions.map (·.id))
    processes := t.processes.modify pid fun process =>
      { process with memoryUsage := (regions.map (·.size)).sum } }

def freeProcessMemory (t : SystemTables) (pid : ℤ) : SystemTables :=
  match t.processMemory.get? pid with
  | none => t
  | some regionIds =>
    { t with
      memoryRegions := t.memoryRegions.delAll regionIds
      processMemory := t.processMemory.del pid
      processes := t.processes.modify pid fun process => { process with memoryUsage := 0 } }

/-- The part of `process_create` after validation. -/
def admitProcess (t : SystemTables) (newProcess : ProcessInfo) (now : ℕ → Float) : SystemTables :=
  let newPid := newProcess.processId
  let t := { t with processes := t.processes.set newPid newProcess }
  let t := t.setState newPid .ready
  let t := { t with readyQueue := t.readyQueue ++ [newPid] }
  let t := t.initProcessMemory newPid now
  { t with messageQueues := t.messageQueues.set newPid [] }

/-- The part of `process_exit` after the existence check. -/
def terminateProcess (t : SystemTables) (pid : ℤ) (exitCode : PyValue) : SystemTables :=
  let t := t.setState pid .terminated
  let t := { t with
    processes := t.processes.modify pid fun process =>
      { process with metadata := process.metadata.set "exit_code" exitCode } }
  let t := { t with readyQueue := t.readyQueue.erase pid }
  let t := { t with blockedProcesses := t.blockedProcesses.del pid }
  let t := t.freeProcessMemory pid
  { t with messageQueues := t.messageQueues.del pid }

def parkProcess (t : SystemTables) (pid : ℤ) (reason : String) : SystemTables :=
  { t.setState pid .blocked with blockedProcesses := t.blockedProcesses.set pid reason }

/-- The blocking part that `process_wait` and `ipc_receive` share; a caller without a table
entry has already left the ready queue when the assignment to its state raises. -/
def blockProcess (t : SystemTables) (pid : ℤ) (reason : String) : SystemTables × Except PyException Unit :=
  let t := { t with readyQueue := t.readyQueue.erase pid }
  if pid ∈ t.processes then
    (t.parkProcess pid reason, .ok ())
  else (t, .error (.keyError (.int pid)))

end SystemTables

def clampPriority (priority : PyValue) : Except PyException ProcessPriority :=
  match pyMax (.int 0) priority with
  | .error e => .error e
  | .ok n => PyValue.member "ProcessPriority" ProcessPriority.ofValue? (.num (pyMin n (.int 50)))

def clampPolicy (policy : PyValue) : Except PyException SchedulingPolicy :=
  match pyMax (.int 0) policy with
  | .error e => .error e
  | .ok n =>
    PyValue.member "SchedulingPolicy" SchedulingPolicy.ofValue?
      (.num (pyMin n (.int (SchedulingPolicy.count - 1))))

def newProcessInfo (newPid processId : ℤ) (name : PyValue) (priority : ProcessPriority)
    (policy : SchedulingPolicy) (creationTime : Float) : ProcessInfo :=
  { processId := newPid
    parentId := processId
    name
    state := .created
    priority
    policy
    creationTime }

def syscallProcessCreate (t : SystemTables) (processId : ℤ) (name priority policy : PyValue)
    (now : ℕ → Float) : Handled :=
  if ¬ name.truthy then (t, .ok (.failure "Process name cannot be empty"))
  else
    let newPid := t.nextPid
    let t := { t with nextPid := t.nextPid + 1 }
    match clampPriority priority with
    | .error e => (t, .error e)
    | .ok priority =>
      match clampPolicy policy with
      | .error e => (t, .error e)
      | .ok policy =>
        let newProcess := newProcessInfo newPid processId name priority policy (now 0)
        (t.admitProcess newProcess (fun i => now (i + 1)), .ok (.ok (.pid newPid)))

def syscallProcessExit (t : SystemTables) (processId : ℤ) (exitCode : PyValue) : Handled :=
  if processId ∉ t.processes then (t, .ok (.failure "Process does not exist"))
  else (t.terminateProcess processId exitCode, .ok (.ok .none))

def waitReason (pid : PyInt) : String := s!"wait:{pid.format}"

def syscallProcessWait (t : SystemTables) (processId : ℤ) (waitPid : PyValue) : Handled :=
  match waitPid.intKey with
  | .error e => (t, .error e)
  | .ok none => (t, .ok (.failure "Target process does not exist"))
  | .ok (some pid) =>
    match t.processes.get? pid.val with
    | none => (t, .ok (.failure "Target process does not exist"))
    | some target =>
      if target.state = .terminated then
        (t, .ok (.ok (.exitCode (target.metadata.getD "exit_code" (.int 0)))))
      else
        match t.blockProcess processId (waitReason pid) with
        | (t, .error e) => (t, .error e)
        | (t, .ok ()) => (t, .ok (.ok (.status "blocked")))

namespace SystemTables

def executeProcess (t : SystemTables) (pid : ℤ) (timeSlice : Float) : SystemTables :=
  { t with
    processes := t.processes.modify pid fun process =>
      { process with
        runtime := process.runtime + timeSlice
        contextSwitches := process.contextSwitches + 1 } }

def runScheduler (t : SystemTables) (now : Float) : SystemTables :=
  match t.readyQueue with
  | [] => t
  | pid :: rest =>
    let t := { t with readyQueue := rest }
    match t.processes.get? pid with
    | none => t
    | some process =>
      let t := t.setState pid .running
      let t := { t with processes := t.processes.modify pid fun process => { process with lastRun := now } }
      let t := t.executeProcess pid process.timeSlice
      match t.processes.get? pid with
      | none => t
      | some process =>
        if process.state = .running then
          { t.setState pid .ready with readyQueue := t.readyQueue ++ [pid] }
        else t

end SystemTables

end TrinityOS
