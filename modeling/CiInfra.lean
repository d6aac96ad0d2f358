import CiInfra.Lib.Program
import CiInfra.Lib.VersionedStore
import CiInfra.Lib.PythonNumber
import CiInfra.Lib.PlainNumbers
import CiInfra.Kube.Objects
import CiInfra.Kube.ApiServer
import CiInfra.Compactor.Models
import CiInfra.Compactor.Fit
import CiInfra.Lib.Grouping
import CiInfra.Compactor.Matching
import CiInfra.Compactor.PeakWindow
import CiInfra.Compactor.Phantom
import CiInfra.Compactor.Packing
import CiInfra.Compactor.Feasibility
import CiInfra.Compactor.TaintLoop
import CiInfra.Compactor.TaintDecision
import CiInfra.Compactor.DrainSafety
import CiInfra.Compactor.Discovery
import CiInfra.Kube.OptimisticEdit
import CiInfra.Compactor.TaintEdits
import CiInfra.Compactor.Reservations
import CiInfra.Compactor.Cleanup
import CiInfra.Compactor.Reconcile
import CiInfra.Compactor.TaintFloor
import CiInfra.Compactor.Main
import CiInfra.Compactor.Stability
import CiInfra.Compactor.SpareCapacity
import CiInfra.Compactor.FleetCooldown
import CiInfra.Compactor.Hosting
import CiInfra.Compactor.PeakRuns
import CiInfra.Compactor.Quantities
import CiInfra.Kube.Scheduling
import CiInfra.Compactor.SchedulerAgreement
import CiInfra.Compactor.StartupTaints
import CiInfra.GpuDev.Calls
import CiInfra.Lib.History
import CiInfra.GpuDev.Placement
import CiInfra.GpuDev.PlacementSoundness
import CiInfra.GpuDev.Connection
import CiInfra.GpuDev.WarmPool
import CiInfra.GpuDev.Disks
import CiInfra.GpuDev.PodMonitoring
import CiInfra.GpuDev.PodReadiness
import CiInfra.GpuDev.Allocation
import CiInfra.GpuDev.Multinode
import CiInfra.GpuDev.Requests
import CiInfra.GpuDev.Endings
import CiInfra.GpuDev.QueueManagement
import CiInfra.GpuDev.Footprints
import CiInfra.GpuDev.Invocations
import CiInfra.GpuDev.EndedReservations
import CiInfra.GpuDev.WarmOwnership
import CiInfra.GpuDev.FailedClaims
import CiInfra.GpuDev.Redeliveries
import CiInfra.GpuDev.QueuedParameters
import CiInfra.GpuDev.CoordinationLock
import CiInfra.Lib.StableSort
import CiInfra.GpuDev.SnapshotCleanup
import CiInfra.GpuDev.SnapshotBookkeeping
import CiInfra.GpuDev.BookkeepingOrder
import CiInfra.GpuDev.BookkeepingRuns
import CiInfra.GpuDev.SoftDeletions
import CiInfra.GpuDev.DeletionDates
import CiInfra.GpuDev.SoftDeletionRuns
import CiInfra.GpuDev.Management
import CiInfra.GpuDev.ClientMessages
import CiInfra.GpuDev.SenderReach
import CiInfra.GpuDev.ExpiryHandler
import CiInfra.GpuDev.LifecycleMessages
import CiInfra.GpuDev.ExpiryFootprints
import CiInfra.GpuDev.ExpirySafety
import CiInfra.GpuDev.PodSafety
import CiInfra.GpuDev.DiskLocks
import CiInfra.GpuDev.Extensions
import CiInfra.GpuDev.Takedowns
import CiInfra.GpuDev.QueueStarts
import CiInfra.GpuDev.WarmService
import CiInfra.GpuDev.Cancellations
import CiInfra.Lib.Fallible
import CiInfra.GpuDev.PoolTurnover
import CiInfra.GpuDev.PoolPass
import CiInfra.GpuDev.PoolConvergence
import CiInfra.GpuDev.CapacityReadings
import CiInfra.GpuDev.CapacityAgreement
import CiInfra.Lib.Passes
import CiInfra.GpuDev.ExpiryCoverage
import CiInfra.GpuDev.QueueCoverage
import CiInfra.GpuDev.StuckPreparing
import CiInfra.GpuDev.RoomChecks
import CiInfra.GpuDev.SweepOrder
import CiInfra.GpuDev.FirstComeFirstServed
import CiInfra.GpuDev.DirectClaims
import CiInfra.GpuDev.ReserveCalls
import CiInfra.GpuDev.CallerSteps
import CiInfra.GpuDev.OneReservation
import CiInfra.SshProxy.DomainMappings
import CiInfra.SshProxy.Routing
import CiInfra.Lib.RelyGuarantee
import CiInfra.Runners.VersionLock
import CiInfra.Zombies.Cleanup
import CiInfra.Zombies.Deletions
import CiInfra.Zombies.Rechecks
import CiInfra.Zombies.FreshDecisions
import CiInfra.Runners.Sharding
import CiInfra.Runners.NodepoolDefs
import CiInfra.Runners.Generate
import CiInfra.Runners.FleetValidator
import CiInfra.Runners.MaxRunnersMap
import CiInfra.AgentSandbox.Dispatcher
import CiInfra.AgentSandbox.Slots
import CiInfra.Lib.FirstWins
import CiInfra.Lib.Separators
import CiInfra.PypiCache.MergeIndexes
import CiInfra.PypiCache.MergedAnswers
import CiInfra.PypiCache.PageLinks
import CiInfra.PypiCache.RereadLinks
import CiInfra.PypiCache.RenderedPages
import CiInfra.Lib.Removal
import CiInfra.PypiCache.FaithfulPages
import CiInfra.Lib.Regex
import CiInfra.PypiCache.WantsCollector
import CiInfra.PypiCache.Readings
import CiInfra.PypiCache.ReleaseFiles
import CiInfra.PypiCache.FileReadings
import CiInfra.PypiCache.Attribution
import CiInfra.PypiCache.CheckPypi
import CiInfra.PypiCache.WheelTags
import CiInfra.PypiCache.PlatformReadings
import CiInfra.PypiCache.Coverage
import CiInfra.PypiCache.PrebuiltCache
import CiInfra.PypiCache.SharedCache
import CiInfra.Harbor.Api
import CiInfra.Harbor.Emptying
import CiInfra.Harbor.Convergence
import CiInfra.Harbor.ImageReferences
import CiInfra.Janitor.ImageCache
import CiInfra.Janitor.Selection
import CiInfra.TaintRemover.RemoveTaint
import CiInfra.TaintRemover.Exactness
import CiInfra.TaintRemover.Permanence
import CiInfra.LoadTest.Monitor
import CiInfra.LoadTest.Verdict
import CiInfra.Lib.Apportionment
import CiInfra.LoadTest.Distribution
import CiInfra.Capacity.Overhead
import CiInfra.Capacity.PodSizing
import CiInfra.Lib.Packing
import CiInfra.Capacity.Combos
import CiInfra.Capacity.FullNodes
import CiInfra.Capacity.Simulation
import CiInfra.Capacity.SimulationRuns
import CiInfra.Lib.TextLines
import CiInfra.AgentSandbox.ResultLog
import CiInfra.Lib.Overwriting
import CiInfra.Nodepools.GenerateNodepools
import CiInfra.Lib.Raising
import CiInfra.Nodepools.NodePoolNames
import CiInfra.GpuDev.DiskRestores
import CiInfra.GpuDev.RestoredDisks
import CiInfra.GpuDev.DefaultDisk
import CiInfra.GpuDev.SpotGroups
import CiInfra.Lib.Runs
import CiInfra.GpuDev.SpotScaleDowns
import CiInfra.Lib.Probing
import CiInfra.GpuDev.NodePorts
import CiInfra.GpuDev.DnsRecords
import CiInfra.Lib.Replacing
import CiInfra.GpuDev.DnsNames
import CiInfra.Lib.Ranks
import CiInfra.GpuDev.QueuePositions
import CiInfra.GpuDev.WaitEstimates
import CiInfra.Lib.Earliest
import CiInfra.GpuDev.SizeEtas
import CiInfra.GpuDev.ExpiryWarnings
import CiInfra.GpuDev.StatusHistory
import CiInfra.GpuDev.DiskOperations
import CiInfra.GpuDev.CompletedOperations
import CiInfra.GpuDev.PodSizes
import CiInfra.LoadTest.Workflow
import CiInfra.GpuDev.LoadBalancer
import CiInfra.GpuDev.ClientWaits
import CiInfra.GpuDev.DiskRenames
import CiInfra.Lib.Octets
import CiInfra.Runners.HookWrapper
import CiInfra.GpuDev.ImageBuilds
import CiInfra.GpuDev.ActionOutcomes
