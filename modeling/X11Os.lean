import X11Os.Memory.FrameSpans
import X11Os.Process.Population
import X11Os.Arch.PageTable
import X11Os.Arch.PageWalk
import X11Os.Arch.SyscallPanic
import X11Os.Arch.KernelResume
import X11Os.Arch.UserResume
import X11Os.Arch.ExitStatus
import X11Os.Arch.SnapshotSlot
import X11Os.Process.Registry
import X11Os.Process.PlanMapped
import X11Os.Process.Abandonment
import X11Os.Scheduler.Names
import X11Os.Scheduler.Owner
import X11Os.Scheduler.Waiting
import X11Os.Lib.Fifo
import X11Os.Scheduler.Fairness
import X11Os.Arch.KernelYield
import X11Os.Arch.YieldMailbox
import X11Os.Arch.SpawnTransaction
import X11Os.Arch.RescheduleRequest
import X11Os.Arch.UserLaunch
import X11Os.Process.SchedulerBinding
import X11Os.Lib.Rates
import X11Os.Timer.Clock
import X11Os.Timer.LapicTimer
import X11Os.Timer.Deadline
import X11Os.Timer.Periodic
import X11Os.Arch.Acpi
import X11Os.Arch.IrqRouting
import X11Os.Arch.KernelReturn
import X11Os.Memory.RangeValidation
import X11Os.Lib.SlotTable
import X11Os.Scheduler.SleepRuns
import X11Os.Arch.RegistryMaps
import X11Os.Lib.MappedMemory
import X11Os.Arch.TableMemory
import X11Os.Arch.KernelAccess
import X11Os.Lib.TableTree
import X11Os.Arch.UserTrees
import X11Os.Arch.AddressSpaces
import X11Os.Arch.AddressSpaceRoot
import X11Os.Arch.ImageWriter
import X11Os.Arch.MapperContract
import X11Os.Arch.ReferenceTables
import X11Os.Arch.SpaceRuns
import X11Os.Arch.SpaceIsolation
import X11Os.Memory.FrameOrder
import X11Os.Arch.PlanLoading
import X11Os.Arch.ImageLoading
import X11Os.Arch.ProcessLoader
import X11Os.Arch.SpaceWrites
import X11Os.Arch.ImageWrites
import X11Os.Serial.Port
import X11Os.Serial.Numbers
import X11Os.Arch.UserConfinement
