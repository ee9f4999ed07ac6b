import KernelcModerne.Lib.Transition
import KernelcModerne.Lib.Extent
import KernelcModerne.Lib.FirstFit
import KernelcModerne.Lib.Packing
import KernelcModerne.Lib.Word64
import KernelcModerne.Lib.ByteMask
import KernelcModerne.Memory.PageBitmap
import KernelcModerne.Memory.PageScan
import KernelcModerne.Memory.PageAllocator
import KernelcModerne.Memory.PageAllocatorRuns
import KernelcModerne.Memory.EnhancedPageAllocator
import KernelcModerne.Memory.EnhancedMemoryManager
import KernelcModerne.Lib.Sliding
import KernelcModerne.Lib.AListTotal
import KernelcModerne.Memory.MemoryManager
import KernelcModerne.Memory.PoolAccounting
import KernelcModerne.Memory.PoolCompaction
import KernelcModerne.Memory.PoolRuns
import KernelcModerne.Lib.PriorityQueue
import KernelcModerne.Scheduler.TaskScheduler
import KernelcModerne.Scheduler.EnhancedScheduler
import KernelcModerne.Scheduler.EnhancedSchedulerInvariant
import KernelcModerne.Scheduler.EnhancedSchedulerRuns
import KernelcModerne.Filesystem.MultiLevelCache
import KernelcModerne.Filesystem.Compression
import KernelcModerne.Filesystem.VirtualFileSystem
import KernelcModerne.Filesystem.ReadRuns
import KernelcModerne.Filesystem.CompressionPass
import KernelcModerne.Lib.Ring
import KernelcModerne.Network.RingBuffer
import KernelcModerne.Ipc.SharedMemory
import KernelcModerne.Ipc.SharedMemoryRuns
import KernelcModerne.Ipc.MessageQueue
import KernelcModerne.Ipc.MessageRuns
import KernelcModerne.Lib.FirstMatch
import KernelcModerne.Security.SecurityManager
import KernelcModerne.Scheduler.ProcessScheduler
import KernelcModerne.Lib.LongestPrefix
import KernelcModerne.Filesystem.Paths
import KernelcModerne.Filesystem.MountPoints
import KernelcModerne.Memory.PageTranslations
import KernelcModerne.Memory.PageLedger
import KernelcModerne.Memory.PoolHandles
import KernelcModerne.Lib.Throwing
import KernelcModerne.Syscall.SystemCallManager
import KernelcModerne.Syscall.SyscallAtomicity
import KernelcModerne.Boot.MemoryMap
import KernelcModerne.Boot.KernelImage
import KernelcModerne.Boot.Bootloader
import KernelcModerne.Boot.BootErrors
import KernelcModerne.Boot.Main
import KernelcModerne.Filesystem.CacheOptimization
import KernelcModerne.Filesystem.CacheRuns
import KernelcModerne.Lib.Slots
import KernelcModerne.Filesystem.OpenFiles
import KernelcModerne.Lib.WriteLog
import KernelcModerne.Filesystem.UniversalFileCache
import KernelcModerne.Filesystem.UniversalCacheRuns
import KernelcModerne.Filesystem.BufferPoolRuns
import KernelcModerne.Memory.ManagerStatistics
import KernelcModerne.Memory.GameMemory
import KernelcModerne.Drivers.DriverManager
import KernelcModerne.Com.ComManager
import KernelcModerne.Lib.Stacking
import KernelcModerne.Ui.WindowManager
import KernelcModerne.Ui.WindowFocus
import KernelcModerne.Ui.WindowOrder
import KernelcModerne.Multimedia.AssetLoader
import KernelcModerne.Lib.Locking
import KernelcModerne.Lib.Monitor
import KernelcModerne.Lib.MonitorHistory
import KernelcModerne.Lib.MonitorWaiting
import KernelcModerne.Ui.EventQueue
import KernelcModerne.Lib.CipherBlockChaining
import KernelcModerne.Filesystem.Encryption
import KernelcModerne.Lib.RecentLog
import KernelcModerne.Filesystem.ErrorLog
import KernelcModerne.Network.RouteCache
import KernelcModerne.Security.SecurityPolicies
import KernelcModerne.Lib.Footprint
import KernelcModerne.Ui.Painting
import KernelcModerne.Ui.TreeView
import KernelcModerne.Memory.VideoResources
import KernelcModerne.Multimedia.LoadingQueue
import KernelcModerne.Filesystem.PerformanceMetrics
import KernelcModerne.Filesystem.MetricsRuns
import KernelcModerne.Lib.Callbacks
import KernelcModerne.Ipc.SignalHandling
import KernelcModerne.Ui.TabControl
import KernelcModerne.Ui.WindowRendering
import KernelcModerne.Performance.LatencyAnalyzer
import KernelcModerne.Interrupt.InterruptManager
import KernelcModerne.Memory.GraphicsResources
import KernelcModerne.Process.ProcessManager
import KernelcModerne.Performance.PerformanceMetrics
import KernelcModerne.Memory.GraphicsCache
import KernelcModerne.Memory.FirstFitAllocation
import KernelcModerne.Memory.AllocationSizes
import KernelcModerne.Memory.PoolDefragmentation
import KernelcModerne.Memory.PoolCopies
import KernelcModerne.Memory.GraphicsEviction
import KernelcModerne.Memory.GraphicsRecords
import KernelcModerne.Lib.KeySort
import KernelcModerne.Lib.Squeezing
import KernelcModerne.Memory.VideoMemory
import KernelcModerne.Memory.VideoDefragmentation
import KernelcModerne.Memory.VideoReservation
import KernelcModerne.Lib.Memo
import KernelcModerne.Memory.ShaderCompiler
import KernelcModerne.Lib.LeastScan
import KernelcModerne.Drivers.ShaderManager
import KernelcModerne.Memory.ShaderSyntax
import KernelcModerne.Lib.RunLength
import KernelcModerne.Memory.PageCompression
import KernelcModerne.Lib.Doubling
import KernelcModerne.Filesystem.Decompression
import KernelcModerne.Filesystem.CacheEviction
import KernelcModerne.Filesystem.CachedReads
import KernelcModerne.Lib.Splitting
import KernelcModerne.Filesystem.PathNormalization
import KernelcModerne.Filesystem.MountContainment
import KernelcModerne.Filesystem.MountResolution
import KernelcModerne.Filesystem.OpenFastPath
import KernelcModerne.Scheduler.ThreadSelection
import KernelcModerne.Lib.HeapQueue
import KernelcModerne.Scheduler.TaskDispatch
import KernelcModerne.Lib.SearchTree
import KernelcModerne.Scheduler.RunQueue
import KernelcModerne.Scheduler.PriorityScheduler
import KernelcModerne.Lib.Separators
import KernelcModerne.Performance.MeasurementKeys
import KernelcModerne.Lib.OrderStatistic
import KernelcModerne.Performance.LatencyStatistics
import KernelcModerne.Lib.CountedLoop
import KernelcModerne.Boot.PciProbe
import KernelcModerne.Boot.ImageChecksum
import KernelcModerne.Boot.MemoryMapWalk
import KernelcModerne.Interrupt.InterruptTable
import KernelcModerne.Compatibility.Win32Compatibility
import KernelcModerne.Lib.IntLoop
import KernelcModerne.Lib.RowMajor
import KernelcModerne.Ui.Canvas
import KernelcModerne.Lib.Ramp
import KernelcModerne.Haptics.VibrationController
import KernelcModerne.Haptics.VibrationRamp
import KernelcModerne.Lib.MaximalRuns
import KernelcModerne.Memory.PageFragments
