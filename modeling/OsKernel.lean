import OsKernel.Thread.Machine
import OsKernel.Thread.Partition
import OsKernel.Thread.SchedulerSpec
import OsKernel.Thread.Invariant
import OsKernel.Thread.Refinement
import OsKernel.Thread.SchedulerSafety
import OsKernel.Sync.Semaphore
import OsKernel.Sync.Lock
import OsKernel.Device.Ioqueue
import OsKernel.Thread.Quiet
import OsKernel.Sync.Uncontended
import OsKernel.Device.IoqueueThreads
import OsKernel.Device.Keyboard
import OsKernel.Kernel.Main
import OsKernel.Lib.Runs
import OsKernel.Memory.Bitmap
import OsKernel.Memory.Pool
import OsKernel.Lib.ByteMemory
import OsKernel.Memory.Paging
import OsKernel.Memory.Allocator
import OsKernel.Memory.HeapMap
import OsKernel.Memory.KernelHeap
import OsKernel.Boot.SetupPage
import OsKernel.Memory.AddressSpace
import OsKernel.Memory.Rollback
import OsKernel.Memory.Spaces
import OsKernel.Userprog.Process
import OsKernel.Userprog.PageTables
import OsKernel.Kernel.InterruptFrame
import OsKernel.Thread.Switch
import OsKernel.Sync.SimpleLocking
import OsKernel.Thread.Creation
import OsKernel.Device.Modifiers
import OsKernel.Kernel.Print
import OsKernel.Kernel.Terminal
import OsKernel.Lib.RoundRobin
import OsKernel.Thread.TimeSlice
import OsKernel.Userprog.OnePage
import OsKernel.Userprog.PoolLocks
import OsKernel.Boot.KernelInit
import OsKernel.Boot.KernelLoaded
import OsKernel.Userprog.UserEntry
import OsKernel.Kernel.Strings
import OsKernel.Thread.InitThread
import OsKernel.Kernel.ListFamily
import OsKernel.Memory.FirstFit
import OsKernel.Memory.PoolRanges
import OsKernel.Boot.MemoryDetect
import OsKernel.Device.Console
import OsKernel.Lib.SavedFlag
import OsKernel.Thread.InterruptDiscipline
import OsKernel.Lib.Ledger
import OsKernel.Userprog.Isolation
import OsKernel.Lib.Descriptor
import OsKernel.Userprog.Descriptors
import OsKernel.Userprog.Activate
import OsKernel.Lib.Ata
import OsKernel.Boot.DiskRead
import OsKernel.Boot.Segments
import OsKernel.Boot.BootPath
import OsKernel.Thread.SwitchReturns
import OsKernel.Kernel.PutInt
import OsKernel.Thread.Accounting
