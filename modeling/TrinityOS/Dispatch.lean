import TrinityOS.IPCSyscalls
import TrinityOS.Run

namespace TrinityOS

structure SyscallStats where
  calls : ℕ := 0
  errors : ℕ := 0
  totalTime : Float := 0

structure CoreSystem where
  tables : SystemTables := {}
  syscallStats : Dict ℤ SyscallStats := .empty

inductive Syscall where
  | processCreate (name priority policy : PyValue)
  | processExit (exitCode : PyValue)
  | processWait (waitPid : PyValue)
  | memoryAllocate (size permissions : PyValue)
  | memoryFree (regionId : PyValue)
  | memoryMap (targetId localAddress permissions : PyValue)
  | ipcSend (targetId subject messageType payload : PyValue)
  | ipcReceive (wait : PyValue)

structure SyscallEntry where
  number : ℤ
  name : String
  required : List String
  optional : List String
  call : Kwargs → Syscall

def arg (args : Kwargs) (name : String) (default : PyValue := .none) : PyValue := args.getD name default

/-- The table filled by `_register_syscalls`, with the signature of each handler. A required
parameter is read only after `bindKeywords` found it. -/
def syscalls : List SyscallEntry :=
  [ { number := 1, name := "process_create", required := ["name"], optional := ["priority", "policy"]
      call := fun args => .processCreate (arg args "name") (arg args "priority" (.int 20))
        (arg args "policy" (.int 0)) },
    { number := 2, name := "process_exit", required := [], optional := ["exit_code"]
      call := fun args => .processExit (arg args "exit_code" (.int 0)) },
    { number := 3, name := "process_wait", required := ["wait_pid"], optional := []
      call := fun args => .processWait (arg args "wait_pid") },
    { number := 10, name := "memory_allocate", required := ["size"], optional := ["permissions"]
      call := fun args => .memoryAllocate (arg args "size") (arg args "permissions" (.int 3)) },
    { number := 11, name := "memory_free", required := ["region_id"], optional := []
      call := fun args => .memoryFree (arg args "region_id") },
    { number := 12, name := "memory_map", required := ["target_id", "local_address"]
      optional := ["permissions"]
      call := fun args => .memoryMap (arg args "target_id") (arg args "local_address")
        (arg args "permissions" (.int 1)) },
    -- `timeout` is stored in the message and never read
    { number := 20, name := "ipc_send", required := ["target_id", "subject"]
      optional := ["message_type", "payload", "timeout"]
      call := fun args => .ipcSend (arg args "target_id") (arg args "subject")
        (arg args "message_type" (.int 1)) (arg args "payload") },
    { number := 21, name := "ipc_receive", required := [], optional := ["wait"]
      call := fun args => .ipcReceive (arg args "wait" (.bool true)) } ]

def findSyscall (syscallNumber : ℤ) : Option SyscallEntry :=
  syscalls.find? (fun entry => entry.number = syscallNumber)

def SyscallEntry.bind (entry : SyscallEntry) (args : Kwargs) : Except PyException Syscall :=
  match bindKeywords s!"CoreSystem._syscall_{entry.name}()" entry.required entry.optional args with
  | .error e => .error e
  | .ok () => .ok (entry.call args)

/-- The readings of `time.time()` during one call: around the handler and inside it. -/
structure Timing where
  start : Float
  finish : Float
  now : ℕ → Float

section

variable (uuid4 : ℕ → String)

def performSyscall (t : SystemTables) (processId : ℤ) (now : ℕ → Float) : Syscall → Handled
  | .processCreate name priority policy => syscallProcessCreate t processId name priority policy now
  | .processExit exitCode => syscallProcessExit t processId exitCode
  | .processWait waitPid => syscallProcessWait t processId waitPid
  | .memoryAllocate size permissions => syscallMemoryAllocate uuid4 t processId size permissions now
  | .memoryFree regionId => syscallMemoryFree t processId regionId
  | .memoryMap targetId localAddress permissions =>
    syscallMemoryMap uuid4 t processId targetId localAddress permissions now
  | .ipcSend targetId subject messageType payload =>
    syscallIpcSend uuid4 t processId targetId subject messageType payload now
  | .ipcReceive wait => syscallIpcReceive t processId wait

namespace CoreSystem

def countCall (s : CoreSystem) (syscallNumber : ℤ) : CoreSystem :=
  { s with
    syscallStats := s.syscallStats.modify syscallNumber fun stats => { stats with calls := stats.calls + 1 } }

def settle (s : CoreSystem) (syscallNumber : ℤ) (timing : Timing) :
    Except PyException SyscallResult → CoreSystem × SyscallResult
  | .ok result =>
    ({ s with
        syscallStats := s.syscallStats.modify syscallNumber fun stats =>
          { stats with totalTime := stats.totalTime + (timing.finish - timing.start) } }, result)
  | .error e =>
    ({ s with
        syscallStats := s.syscallStats.modify syscallNumber fun stats =>
          { stats with errors := stats.errors + 1 } }, .raised e)

def invokeSyscall (s : CoreSystem) (processId syscallNumber : ℤ) (args : Kwargs) (timing : Timing) :
    CoreSystem × SyscallResult :=
  match findSyscall syscallNumber with
  | none => (s, .failure s!"Invalid system call number: {syscallNumber}")
  | some entry =>
    let s := s.countCall syscallNumber
    match entry.bind args with
    | .error e => s.settle syscallNumber timing (.error e)
    | .ok call =>
      let handled := performSyscall uuid4 s.tables processId timing.now call
      { s with tables := handled.1 }.settle syscallNumber timing handled.2

end CoreSystem

end

namespace CoreSystem

def registerSyscalls (s : CoreSystem) : CoreSystem :=
  { s with syscallStats := syscalls.foldl (fun stats entry => stats.set entry.number {}) s.syscallStats }

def kernelRegion (createdAt : Float) : MemoryRegion :=
  { id := "kernel_main"
    start := 0x1000
    size := 64 * 1024 * 1024
    ownerPid := 0
    memoryType := .locked
    permissions := .readWriteExecute
    createdAt }

def sharedRegion (createdAt : Float) : MemoryRegion :=
  { id := "system_shared"
    start := 0x10000000
    size := 32 * 1024 * 1024
    ownerPid := 0
    memoryType := .shared
    permissions := .readWrite
    createdAt }

def initMemory (t : SystemTables) (now : ℕ → Float) : SystemTables :=
  (t.registerRegion 0 (kernelRegion (now 0))).registerRegion 0 (sharedRegion (now 1))

def initializeSystem (now : ℕ → Float) : CoreSystem :=
  let s := registerSyscalls {}
  let kernelProc : ProcessInfo :=
    { processId := 0
      parentId := 0
      name := .str "kernel"
      state := .running
      priority := .system
      policy := .fifo
      creationTime := now 0 }
  let initProc : ProcessInfo :=
    { processId := 1
      parentId := 0
      name := .str "init"
      state := .ready
      priority := .system
      policy := .fifo
      creationTime := now 1 }
  let t := { s.tables with
    processes := (s.tables.processes.set 0 kernelProc).set 1 initProc
    readyQueue := s.tables.readyQueue ++ [1] }
  { s with tables := initMemory t (fun i => now (i + 2)) }

end CoreSystem

/-- A step of the system: one call, or one pass of the scheduler. `_syscall_lock` is held for
a whole call. -/
inductive Event where
  | syscall (processId syscallNumber : ℤ) (args : Kwargs) (timing : Timing)
  | scheduler (now : Float)

def Event.Calls (p n : ℤ) : Event → Prop
  | .syscall processId syscallNumber _ _ => processId = p ∧ syscallNumber = n
  | .scheduler _ => False

instance (p n : ℤ) : DecidablePred (Event.Calls p n)
  | .syscall processId syscallNumber _ _ => inferInstanceAs (Decidable (processId = p ∧ syscallNumber = n))
  | .scheduler _ => inferInstanceAs (Decidable False)

namespace CoreSystem

variable (uuid4 : ℕ → String)

def next (s : CoreSystem) : Event → CoreSystem
  | .syscall processId syscallNumber args timing =>
    (s.invokeSyscall uuid4 processId syscallNumber args timing).1
  | .scheduler now => { s with tables := s.tables.runScheduler now }

def run (now : ℕ → Float) (events : List Event) : CoreSystem :=
  Run.final (next uuid4) (initializeSystem now) events

end CoreSystem

end TrinityOS
