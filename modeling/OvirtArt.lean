import OvirtArt.Compute.CpuLoad
import OvirtArt.Compute.MemoryFilter
import OvirtArt.Compute.StabilityWaiters
import OvirtArt.Compute.VmPoolHelpers
import OvirtArt.CoreApi.HttpSessions
import OvirtArt.CoreApi.LinkHeader
import OvirtArt.CoreApi.SearchUrlsExact
import OvirtArt.CoreApi.Timeout
import OvirtArt.CoreApi.ValidatorIgnore
import OvirtArt.CoreApi.ValidatorOrder
import OvirtArt.CoreApi.ValidatorPairing
import OvirtArt.CoreApi.ValidatorReflexive
import OvirtArt.Networking.BondAttachment
import OvirtArt.Networking.CleanHostInterfaces
import OvirtArt.Networking.MacPool
import OvirtArt.Networking.RandomIps
import OvirtArt.Networking.SetupNetworksFrame
import OvirtArt.Networking.SriovNic
import OvirtArt.Networking.UnsyncReasons
import OvirtArt.Networking.VnicProfileMappings
import OvirtArt.PytestArt.IncrementalClasses
import OvirtArt.PytestArt.LeftoversInfo
import OvirtArt.PytestArt.StorageMatrix
import OvirtArt.PytestArt.TestLoggerSession
import OvirtArt.QeTools.AnsibleRunnerLossless
import OvirtArt.Resources.EngineConfig
import OvirtArt.Resources.VdsClientRoundTrip
import OvirtArt.Storage.DiskPreparation
import OvirtArt.Storage.LoadBalancedComplete
import OvirtArt.Storage.SnapshotDownload
import OvirtArt.Storage.StreamingCleanup
import OvirtArt.Storage.StreamingPause
import OvirtArt.Storage.StreamingPhases
import OvirtArt.Storage.TransferOutcomes
import OvirtArt.Storage.UpdateConfAligned
import OvirtArt.TestHandler.DuplicatesWindow
import OvirtArt.TestHandler.RuntimeConfigLaw
import OvirtArt.TestsLib.AddVm
import OvirtArt.TestsLib.BlockDomains
import OvirtArt.TestsLib.CleanDatacenterReport
import OvirtArt.TestsLib.DataStructuresRoundTrip
import OvirtArt.TestsLib.DeactivateHost
import OvirtArt.TestsLib.DetachDomain
import OvirtArt.TestsLib.DiskAction
import OvirtArt.TestsLib.EventLog
import OvirtArt.TestsLib.GenerateLogs
import OvirtArt.TestsLib.IscsiLogin
import OvirtArt.TestsLib.MigrateVm
import OvirtArt.TestsLib.NfsDomain
import OvirtArt.TestsLib.NfsMounts
import OvirtArt.TestsLib.OtherStorageDomain
import OvirtArt.TestsLib.ParallelStart
import OvirtArt.TestsLib.RemoveDisk
import OvirtArt.TestsLib.RemoveVms
import OvirtArt.TestsLib.SnapshotDisks
import OvirtArt.TestsLib.SnapshotWaiters
import OvirtArt.TestsLib.VmPools
import OvirtArt.TestsLib.VmsMigration
import OvirtArt.TestsLib.VnicProfiles
import OvirtArt.TestsLib.WaitForJobs
import OvirtArt.Utils.AbsenceWaiters
import OvirtArt.Utils.CpuModelErrors
import OvirtArt.Utils.JobFailuresExact
import OvirtArt.Utils.JobsAllDone
import OvirtArt.Utils.JobsJoin
import OvirtArt.Utils.Mac2IpCollecting
import OvirtArt.Utils.Mac2IpShared
import OvirtArt.Utils.Name2Ip
import OvirtArt.Utils.SearchForObj
import OvirtArt.Utils.WatchLogs
