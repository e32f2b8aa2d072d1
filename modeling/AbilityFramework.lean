import AbilityFramework.Library.Runs
import AbilityFramework.Library.Relation
import AbilityFramework.Library.ShardedLockMap
import AbilityFramework.Library.SharedLock
import AbilityFramework.Library.Json
import AbilityFramework.Library.FileTree
import AbilityFramework.Library.WorkerPool
import AbilityFramework.Library.Regex
import AbilityFramework.Library.WaitGraph
import AbilityFramework.Library.LastOf
import AbilityFramework.Uuid
import AbilityFramework.LifecycleMgr.Heartbeat
import AbilityFramework.LifecycleMgr.ServiceLifecycle
import AbilityFramework.LifecycleMgr.ServiceBudget
import AbilityFramework.LifecycleMgr.ServiceProcesses
import AbilityFramework.LifecycleMgr.ServiceExit
import AbilityFramework.Library.MachineInt
import AbilityFramework.LifecycleMgr.RestartBackoff
import AbilityFramework.LifecycleMgr.HealthThreshold
import AbilityFramework.TaskMgr.Task
import AbilityFramework.ResourceMgr.AbilityCR
import AbilityFramework.ResourceMgr.Ownership
import AbilityFramework.ResourceMgr.Occupation
import AbilityFramework.ResourceMgr.AbilityLock
import AbilityFramework.ResourceMgr.ConcurrentOccupation
import AbilityFramework.ResourceMgr.DeviceLock
import AbilityFramework.ResourceMgr.AbilityInstance
import AbilityFramework.ResourceMgr.SingletonAbility
import AbilityFramework.ResourceMgr.PackageTasks
import AbilityFramework.ResourceMgr.CRFiles
import AbilityFramework.ResourceMgr.CRTables
import AbilityFramework.ResourceMgr.AbilityReconcile
import AbilityFramework.ResourceMgr.DeviceReconcile
import AbilityFramework.LifecycleMgr.HeartbeatMap
import AbilityFramework.LifecycleMgr.LifecycleManager
import AbilityFramework.LifecycleMgr.OrphanHeartbeat
import AbilityFramework.LifecycleMgr.StaleHeartbeats
import AbilityFramework.LifecycleMgr.TerminateTask
import AbilityFramework.LifecycleMgr.InstanceProcesses
import AbilityFramework.DiscoveryMgr.Bully
import AbilityFramework.DiscoveryMgr.BullyLeader
import AbilityFramework.DiscoveryMgr.BullyRound
import AbilityFramework.DiscoveryMgr.ElectionWire
import AbilityFramework.DiscoveryMgr.PeerAddress
import AbilityFramework.DiscoveryMgr.Broadcast
import AbilityFramework.DiscoveryMgr.ElectionLocks
import AbilityFramework.MessageBus.BusThreadPool
import AbilityFramework.Library.FileSystem
import AbilityFramework.ResourceMgr.ThrowingFiles
import AbilityFramework.ResourceMgr.AutoStartBudget
import AbilityFramework.Library.CleanRuns
import AbilityFramework.Library.FileChanges
import AbilityFramework.Library.SpelledPath
import AbilityFramework.ResourceMgr.StoreFiles
import AbilityFramework.ResourceMgr.StoreManager
import AbilityFramework.ResourceMgr.SkillFiles
import AbilityFramework.ResourceMgr.StoreCalls
import AbilityFramework.ResourceMgr.ArchiveContainment
import AbilityFramework.ResourceMgr.PackageContainment
import AbilityFramework.ResourceMgr.PackageAtomicity
import AbilityFramework.ResourceMgr.PackageMirrors
import AbilityFramework.ResourceMgr.CRDocument
import AbilityFramework.ResourceMgr.CRRoundTrip
import AbilityFramework.ResourceMgr.StoredCR
import AbilityFramework.Library.JsonText
import AbilityFramework.ResourceMgr.PlainDocuments
import AbilityFramework.ResourceMgr.TasksField
import AbilityFramework.ResourceMgr.SnapshotIsolation
import AbilityFramework.ResourceMgr.AbilityManifest
import AbilityFramework.ResourceMgr.CRSchema
import AbilityFramework.ResourceMgr.CRValidation
import AbilityFramework.Library.Listing
import AbilityFramework.ResourceMgr.AbilityPackage
import AbilityFramework.ResourceMgr.ResourceView
import AbilityFramework.ResourceMgr.ResourceUpdate
import AbilityFramework.ResourceMgr.PackageSearch
import AbilityFramework.ResourceMgr.EnumerationOrder
import AbilityFramework.DiscoveryMgr.Jwt
import AbilityFramework.DiscoveryMgr.TeamRecords
import AbilityFramework.DiscoveryMgr.BroadcastPackets
import AbilityFramework.DiscoveryMgr.MasterAddress
import AbilityFramework.DiscoveryMgr.TeamHeartbeat
import AbilityFramework.MessageBus.SendSync
import AbilityFramework.TaskMgr.TaskInterface
import AbilityFramework.TaskMgr.SequentialTask
import AbilityFramework.TaskMgr.ParallelTask
import AbilityFramework.TaskMgr.WaitOnceTask
import AbilityFramework.TaskMgr.TaskManager
import AbilityFramework.TaskMgr.TaskStatusStore
import AbilityFramework.ResourceMgr.StartTasks
import AbilityFramework.ResourceMgr.TemplateReadBack
import AbilityFramework.ResourceMgr.CodecStability
import AbilityFramework.Library.ReadMap
import AbilityFramework.ResourceMgr.ServiceCR
import AbilityFramework.ResourceMgr.AbilityCRD
import AbilityFramework.ResourceMgr.DocumentTables
import AbilityFramework.Library.Outcome
import AbilityFramework.ResourceMgr.DeviceCR
import AbilityFramework.ResourceMgr.CRIdentifiers
import AbilityFramework.ResourceMgr.UnknownOccupation
import AbilityFramework.Library.YamlNodes
import AbilityFramework.Library.FileReplace
import AbilityFramework.ResourceMgr.HttpErrors
import AbilityFramework.ResourceMgr.AutoStartEdit
import AbilityFramework.Library.Sqlite
import AbilityFramework.AbilityAlertMgr.AlertStore
import AbilityFramework.Library.ByteText
import AbilityFramework.Library.JsonDepth
import AbilityFramework.ResourceMgr.SubReferences
import AbilityFramework.ResourceMgr.SchemaExpansion
import AbilityFramework.ResourceMgr.ExpansionMarkers
import AbilityFramework.Util.YamlToJson
import AbilityFramework.DiscoveryMgr.RecordUpdates
import AbilityFramework.DiscoveryMgr.MultiAddress
import AbilityFramework.ResourceMgr.StoreClient
import AbilityFramework.ControllerMgr.ControllerRound
import AbilityFramework.ResourceMgr.CRDEndpoint
import AbilityFramework.Util.Intercalate
import AbilityFramework.MessageBus.ModuleRegistry
import AbilityFramework.Util.ShardedMapRefinement
import AbilityFramework.Util.DoubleBufferedMap
import AbilityFramework.ResourceMgr.DanglingOccupation
import AbilityFramework.ResourceMgr.InstalledSpecs
import AbilityFramework.Library.Loops
import AbilityFramework.DiscoveryMgr.MdnsString
import AbilityFramework.DiscoveryMgr.MdnsMake
import AbilityFramework.DiscoveryMgr.MdnsAnswer
import AbilityFramework.DiscoveryMgr.MdnsRecords
import AbilityFramework.DiscoveryMgr.MdnsEqual
import AbilityFramework.DiscoveryMgr.MdnsListen
import AbilityFramework.DiscoveryMgr.MdnsQuery
import AbilityFramework.DiscoveryMgr.MdnsService
import AbilityFramework.Util.SemanticVersion
import AbilityFramework.SubprocessMgr.ProcessHandles
import AbilityFramework.Util.ConfigCache
import AbilityFramework.ResourceMgr.ModelManager
import AbilityFramework.ResourceMgr.ModelFiles
import AbilityFramework.LifecycleMgr.AbilityClient
import AbilityFramework.TaskMgr.ThreadQueueTask
import AbilityFramework.LifecycleMgr.SendOperation
import AbilityFramework.ResourceMgr.SkillTitles
import AbilityFramework.ResourceMgr.RequestTexts
import AbilityFramework.DiscoveryMgr.Ipv6Text
