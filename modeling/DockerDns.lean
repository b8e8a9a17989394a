import DockerDns.Guarantees.AddressTexts
import DockerDns.Guarantees.Commutation
import DockerDns.Guarantees.ConfiguredRecords
import DockerDns.Guarantees.ContainerLife
import DockerDns.Guarantees.ContainerNames
import DockerDns.Guarantees.ContainerOperations
import DockerDns.Guarantees.Convergence
import DockerDns.Guarantees.Deadlocks
import DockerDns.Guarantees.Directories
import DockerDns.Guarantees.DirectoryRuns
import DockerDns.Guarantees.FailedEvents
import DockerDns.Guarantees.Halves
import DockerDns.Guarantees.HandlerEffects
import DockerDns.Guarantees.Idempotence
import DockerDns.Guarantees.KeepingUp
import DockerDns.Guarantees.ListedAndStarted
import DockerDns.Guarantees.LockScopeRuns
import DockerDns.Guarantees.LockScopeSteps
import DockerDns.Guarantees.LockScopeTurns
import DockerDns.Guarantees.Moments
import DockerDns.Guarantees.NameTexts
import DockerDns.Guarantees.NetworkLifecycle
import DockerDns.Guarantees.NetworkTables
import DockerDns.Guarantees.NoticeHandling
import DockerDns.Guarantees.Notices
import DockerDns.Guarantees.Ownership
import DockerDns.Guarantees.PairsInFlight
import DockerDns.Guarantees.ProcessMoves
import DockerDns.Guarantees.ProcessRuns
import DockerDns.Guarantees.ProcessStops
import DockerDns.Guarantees.ProcessTables
import DockerDns.Guarantees.ReachableStates
import DockerDns.Guarantees.RecordStores
import DockerDns.Guarantees.RecordTexts
import DockerDns.Guarantees.Registrations
import DockerDns.Guarantees.RegularAnswers
import DockerDns.Guarantees.RenameIsolation
import DockerDns.Guarantees.RenameRekeys
import DockerDns.Guarantees.RenameSpelling
import DockerDns.Guarantees.Requests
import DockerDns.Guarantees.ReverseAnswers
import DockerDns.Guarantees.ReverseLookup
import DockerDns.Guarantees.ReverseNames
import DockerDns.Guarantees.RunMoments
import DockerDns.Guarantees.SameStates
import DockerDns.Guarantees.Shutdowns
import DockerDns.Guarantees.Spellings
import DockerDns.Guarantees.StartAndConnect
import DockerDns.Guarantees.StaticRecords
import DockerDns.Guarantees.StoreSafety
import DockerDns.Guarantees.StoredSets
import DockerDns.Guarantees.SubnetExpansion
import DockerDns.Guarantees.TableEffects
import DockerDns.Guarantees.TableGrowth
import DockerDns.Guarantees.TableStates
import DockerDns.Guarantees.Teardown
import DockerDns.Guarantees.TrackedAddresses
import DockerDns.Guarantees.ZoneRouting
import DockerDns.Guarantees.ZoneTurns
import DockerDns.Library.Blocks
import DockerDns.Library.CatchUp
import DockerDns.Library.FactFolds
import DockerDns.Library.FairRuns
import DockerDns.Library.FiniteMap
import DockerDns.Library.GuardedRuns
import DockerDns.Library.HashSets
import DockerDns.Library.Links
import DockerDns.Library.LocalUpdates
import DockerDns.Library.LockOrder
import DockerDns.Library.Sections
import DockerDns.Library.Simulations
import DockerDns.Library.Spelling
import DockerDns.Library.Splitting
import DockerDns.Library.Traversals
import DockerDns.Source.AddressTexts
import DockerDns.Source.Assertions
import DockerDns.Source.Config
import DockerDns.Source.Containers
import DockerDns.Source.Daemon
import DockerDns.Source.Domain
import DockerDns.Source.Guards
import DockerDns.Source.Listener
import DockerDns.Source.LockScopes
import DockerDns.Source.Monitor
import DockerDns.Source.Process
import DockerDns.Source.Records
import DockerDns.Source.Reference
import DockerDns.Source.Subnets
import DockerDns.Source.Table
import DockerDns.Source.Tasks
import DockerDns.Source.Zones
