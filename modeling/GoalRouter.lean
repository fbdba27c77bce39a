import GoalRouter.Library.SortedMap
import GoalRouter.Library.Dict
import GoalRouter.Library.Program
import GoalRouter.Library.Text
import GoalRouter.Library.Json
import GoalRouter.Library.JsonSchema
import GoalRouter.Library.PurePath
import GoalRouter.Library.DateTime
import GoalRouter.Library.TopologicalOrder
import GoalRouter.Errors
import GoalRouter.Domain
import GoalRouter.Decoding
import GoalRouter.DomainCodec
import GoalRouter.Redaction
import GoalRouter.StoredState
import GoalRouter.StoredIdempotence
import GoalRouter.Host
import GoalRouter.RouterConfiguration
import GoalRouter.TaskRouting
import GoalRouter.PlanValidation
import GoalRouter.PlannedGraph
import GoalRouter.DispatchApproval
import GoalRouter.RunStore
import GoalRouter.CodexTurn
import GoalRouter.Ports
import GoalRouter.WorkScheduling
import GoalRouter.ObjectivePlanning
import GoalRouter.Application
import GoalRouter.Lifecycle
import GoalRouter.StateValidity
import GoalRouter.LifecycleStates
import GoalRouter.SchedulerRefinement
import GoalRouter.OperationRefinement
import GoalRouter.ScriptedWorld
import GoalRouter.CompletionGate
import GoalRouter.TerminalResults
import GoalRouter.DependencyOrder
import GoalRouter.ApprovalHistory
import GoalRouter.ApprovalGating
import GoalRouter.RouteFloors
import GoalRouter.IdentifierRedaction
import GoalRouter.Library.JsonText
import GoalRouter.SnapshotFormat
import GoalRouter.StateRoundTrip
import GoalRouter.SchedulerPasses
import GoalRouter.SchedulerQuiescence
import GoalRouter.StatusTruth
import GoalRouter.Locking
import GoalRouter.LeaseSafety
import GoalRouter.AtomicWrite
import GoalRouter.SnapshotAtomicity
import GoalRouter.EventLog
import GoalRouter.ReportAgreement
import GoalRouter.InstallTransaction
import GoalRouter.InstallAtomicity
import GoalRouter.Library.JsonPath
import GoalRouter.RedactionShape
import GoalRouter.PlanAcceptance
import GoalRouter.PlanErrors
import GoalRouter.ApprovalPersistence
import GoalRouter.BlockingPasses
import GoalRouter.ReportEncoding
import GoalRouter.SandboxAlignment
import GoalRouter.RefusedAdoption
import GoalRouter.ContentionStatus
import GoalRouter.Library.AsyncTask
import GoalRouter.OwnedWait
import GoalRouter.Library.Grouping
import GoalRouter.Library.RelativePath
import GoalRouter.DirtyPaths
import GoalRouter.RunCreation
import GoalRouter.Escalation
import GoalRouter.ReviewSandbox
import GoalRouter.Library.ShellPattern
import GoalRouter.PurgeTree
import GoalRouter.LauncherMounts
import GoalRouter.GitEvidence
import GoalRouter.EvidencePaths
import GoalRouter.HashHelper
import GoalRouter.DescriptorCleanup
import GoalRouter.Library.Progress
import GoalRouter.Library.TaskGroup
import GoalRouter.ReadBatch
import GoalRouter.WriterExclusion
import GoalRouter.Library.PrefixCode
import GoalRouter.DisplayedText
import GoalRouter.Library.Completion
import GoalRouter.PlanCompletion
import GoalRouter.RunLock
import GoalRouter.Library.ParameterExpansion
import GoalRouter.Library.RegularExpression
import GoalRouter.Library.StringIndex
import GoalRouter.ImageReference
import GoalRouter.Library.PathText
import GoalRouter.UninstallGuards
import GoalRouter.PurgeScope
import GoalRouter.TurnsInFlight
import GoalRouter.Library.Saturation
import GoalRouter.ScheduleIndependence
import GoalRouter.Library.Leasing
import GoalRouter.RunSerialization
import GoalRouter.CrashRecovery
import GoalRouter.Library.Interference
import GoalRouter.SdkClient
import GoalRouter.SdkSession
import GoalRouter.InspectionRefinement
import GoalRouter.Library.ProgramTasks
import GoalRouter.OwnedSubprocess
