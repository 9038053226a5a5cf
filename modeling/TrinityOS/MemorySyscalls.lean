import TrinityOS.ProcessSyscalls

namespace TrinityOS

namespace SystemTables

def registerRegion (t : SystemTables) (pid : ℤ) (region : MemoryRegion) : SystemTables :=
  { t with
    memoryRegions := t.memoryRegions.set region.id region
    processMemory := t.processMemory.set pid (t.processMemory.getD pid [] ++ [region.id]) }

def addMemoryUsage (t : SystemTables) (pid size : ℤ) : SystemTables :=
  { t with
    processes := t.processes.modify pid fun process =>
      { process with memoryUsage := process.memoryUsage + size } }

def drawUuid (t : SystemTables) : SystemTables := { t with uuidCount := t.uuidCount + 1 }

/-- The loop of `memory_allocate` over the regions already listed; an id without a region raises. -/
def findStart (regions : Dict String MemoryRegion) : ℤ → List String → Except PyException ℤ
  | start, [] => .ok start
  | start, rid :: rids =>
    match regions.get? rid with
    | none => .error (.keyError (.str rid))
    | some region =>
      let finish := region.start + region.size
      findStart regions (if finish > start then finish else start) rids

def deleteRegion (t : SystemTables) (pid : ℤ) (region : MemoryRegion) (regionId : String) : SystemTables :=
  let t := { t with
    processMemory := t.processMemory.modify pid fun regionIds => regionIds.erase regionId }
  let t := t.addMemoryUsage pid (-region.size)
  { t with memoryRegions := t.memoryRegions.del regionId }

end SystemTables

def allocatedRegion (id : String) (start size processId : ℤ) (permissions : MemoryPermission)
    (createdAt : Float) : MemoryRegion :=
  { id
    start
    size
    ownerPid := processId
    memoryType := .normal
    permissions
    createdAt }

def mappedRegion (id : String) (start size processId : ℤ) (permissions : MemoryPermission)
    (targetId : String) (createdAt : Float) : MemoryRegion :=
  { id
    start
    size
    ownerPid := processId
    memoryType := .shared
    permissions
    metadata := Dict.empty.set "mapped_from" (.str targetId)
    createdAt }

section

variable (uuid4 : ℕ → String)

def syscallMemoryAllocate (t : SystemTables) (processId : ℤ) (size permissions : PyValue)
    (now : ℕ → Float) : Handled :=
  if processId ∉ t.processes then (t, .ok (.failure "Process does not exist"))
  else
    match size.operand with
    | .error e => (t, .error e)
    | .ok size =>
      if size.val ≤ 0 then (t, .ok (.failure "Invalid memory size"))
      else
        let regionId := uuid4 t.uuidCount
        let t := t.drawUuid
        match SystemTables.findStart t.memoryRegions 0x20000000 (t.processMemory.getD processId []) with
        | .error e => (t, .error e)
        | .ok start =>
          match PyValue.member "MemoryPermission" MemoryPermission.ofValue? permissions with
          | .error e => (t, .error e)
          | .ok permissions =>
            let region := allocatedRegion regionId start size.val processId permissions (now 0)
            let t := t.registerRegion processId region
            let t := t.addMemoryUsage processId size.val
            (t, .ok (.ok (.region regionId start size.val)))

def syscallMemoryFree (t : SystemTables) (processId : ℤ) (regionId : PyValue) : Handled :=
  match regionId.strKey with
  | .error e => (t, .error e)
  | .ok none => (t, .ok (.failure "Memory region does not exist"))
  | .ok (some regionId) =>
    match t.memoryRegions.get? regionId with
    | none => (t, .ok (.failure "Memory region does not exist"))
    | some region =>
      if region.ownerPid ≠ processId then (t, .ok (.failure "Permission denied"))
      else (t.deleteRegion processId region regionId, .ok (.ok .none))

def syscallMemoryMap (t : SystemTables) (processId : ℤ) (targetId localAddress permissions : PyValue)
    (now : ℕ → Float) : Handled :=
  match targetId.strKey with
  | .error e => (t, .error e)
  | .ok none => (t, .ok (.failure "Target memory region does not exist"))
  | .ok (some targetId) =>
    match t.memoryRegions.get? targetId with
    | none => (t, .ok (.failure "Target memory region does not exist"))
    | some targetRegion =>
      if targetRegion.memoryType ≠ .shared ∧ targetRegion.ownerPid ≠ processId then
        (t, .ok (.failure "Permission denied"))
      else
        let regionId := uuid4 t.uuidCount
        let t := t.drawUuid
        match localAddress.operand with
        | .error e => (t, .error e)
        | .ok localAddress =>
          let start := if localAddress.val > 0 then localAddress.val else 0x30000000
          match PyValue.member "MemoryPermission" MemoryPermission.ofValue? permissions with
          | .error e => (t, .error e)
          | .ok permissions =>
            let region := mappedRegion regionId start targetRegion.size processId permissions targetId (now 0)
            (t.registerRegion processId region, .ok (.ok (.region regionId start targetRegion.size)))

end

end TrinityOS
