import Azul.Foundation.System
import Azul.Foundation.Stacks
import Azul.Async.FutureState
import Azul.Async.Runtime
import Azul.Async.RuntimeInvariant
import Azul.Async.RuntimeLayout
import Azul.Async.RuntimeCounts
import Azul.Async.RuntimeDecisions
import Azul.Async.RuntimeCombinators
import Azul.Async.RuntimeReachable
import Azul.Async.Idle
import Azul.Async.WhenAllCode
import Azul.Async.RuntimeSteps
import Azul.Async.PromiseObjects
import Azul.Async.ContinuationWalk
import Azul.Async.Ownership
import Azul.Async.BlockingCalls
import Azul.Async.BlockingWaits
import Azul.Async.BlockedThreads
import Azul.Async.BlockingReturns
import Azul.Async.WhenAll
import Azul.Async.WhenAny
import Azul.Async.BooleanExpression
import Azul.Async.Then
import Azul.Async.BrokenPromise
import Azul.Async.StaticThreadPool
import Azul.Async.TaskLedger
import Azul.Async.PoolSteps
import Azul.Async.PoolReachable
import Azul.Async.PoolTasks
import Azul.Async.PoolHistory
import Azul.Async.WorkerStacks
import Azul.Async.TaskNotifications
import Azul.Async.TaskOrder
import Azul.Async.PoolSleep
import Azul.Async.Dispatch
import Azul.Async.TaskResults
import Azul.Async.TaskGraph
import Azul.Async.ListedClosures
import Azul.Async.PrivateFutures
import Azul.Foundation.IndexSpace
import Azul.Foundation.DependencyGraph
import Azul.Compute.OpenClComputeExecutor
import Azul.Compute.Launch
import Azul.Compute.LaunchInvariant
import Azul.Compute.LaunchResults
import Azul.Compute.LaunchFailures
import Azul.Compute.Divisions
import Azul.Compute.KernelIds
import Azul.Foundation.CircularBuffer
import Azul.Ipc.Queue
import Azul.Ipc.QueueContents
import Azul.Ipc.QueueOrder
import Azul.Ipc.QueueRefinement
import Azul.Ipc.QueueCrash
import Azul.Ipc.Timeouts
import Azul.Ipc.Win32RobustMutex
import Azul.Ipc.Win32ConditionVariable
import Azul.Ipc.Win32Steps
import Azul.Ipc.Win32Waiters
import Azul.Ipc.Win32Notifications
import Azul.Ipc.ConditionVariableLocks
import Azul.Ipc.DarwinConditionVariable
import Azul.Ipc.DarwinSteps
import Azul.Ipc.DarwinReturns
import Azul.Ipc.ThreadQueue
import Azul.Ipc.ThreadQueueTraces
import Azul.Ipc.DarwinPipes
import Azul.Ipc.DarwinNotifications
import Azul.Ipc.DarwinRobustMutex
import Azul.Ipc.DarwinExclusion
import Azul.Ipc.DarwinAcquisition
import Azul.Ipc.LinuxRobustMutex
import Azul.Ipc.LinuxRecovery
import Azul.Ipc.LinuxConditionVariable
import Azul.Ipc.LinuxDeadlines
import Azul.Ipc.LinuxWaits
import Azul.Ipc.ConditionVariableDeadlocks
import Azul.Utils.Disposer
import Azul.Foundation.Assignments
import Azul.Compute.OpenClVector
import Azul.Async.HarmlessCode
import Azul.Async.LockedCallables
import Azul.Foundation.Accounting
import Azul.Async.RuntimeWork
import Azul.Async.CallsReturn
import Azul.Async.SettledClosures
import Azul.Async.LockHolders
import Azul.Async.PoolWork
import Azul.Async.PoolAccounts
import Azul.Async.PoolRest
import Azul.Foundation.Holdings
import Azul.Foundation.SharedObjects
import Azul.Ipc.SharedMemory
import Azul.Ipc.SharedMemoryHoldings
import Azul.Ipc.SharedMemoryOwners
import Azul.Ipc.SharedMemorySharing
import Azul.Foundation.Base64
import Azul.Ipc.DarwinNames
import Azul.Foundation.Sections
import Azul.Ipc.Win32SharedMemory
import Azul.Ipc.SharedMemoryRecovery
import Azul.Ipc.Win32NotifyAll
import Azul.Compute.WorkItems
