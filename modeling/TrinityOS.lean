import TrinityOS.Termination
import TrinityOS.DeadWait
import TrinityOS.Delivery
import TrinityOS.LiveResources
import TrinityOS.Isolation
import TrinityOS.MappingRights
import TrinityOS.DanglingMappings
import TrinityOS.ProcessTree
import TrinityOS.FailedSyscalls
import TrinityOS.Memory.Reclaim
import TrinityOS.System.CoreSystem
import TrinityOS.System.Systems
import TrinityOS.Core.TaskLifecycle
import TrinityOS.Core.ExitedMail
import TrinityOS.Core.Arguments
import TrinityOS.Memory.Bounds
import TrinityOS.Memory.StackUse
import TrinityOS.Allocation
import TrinityOS.ProcessCreation
import TrinityOS.Fairness
import TrinityOS.IdlePriority
import TrinityOS.LockOrder
import TrinityOS.Core.Lifecycle
import TrinityOS.Service.Authorization
import TrinityOS.Service.Streaming
import TrinityOS.Service.Reload
import TrinityOS.SyscallStatistics
import TrinityOS.MappingPlacement
import TrinityOS.MemoryMap
import TrinityOS.CpuTime
import TrinityOS.ExitCodes
import TrinityOS.Memory.Objects
import TrinityOS.Lifecycle
import TrinityOS.SchedulerIndependence
import TrinityOS.Responsiveness
import TrinityOS.Core.Shutdown
import TrinityOS.Service.Session
import TrinityOS.Service.MessageDelivery
import TrinityOS.Interference
import TrinityOS.Disk
import TrinityOS.Service.ConcurrentDrains
import TrinityOS.Service.ConcurrentReloads
import TrinityOS.Service.OneResponse
