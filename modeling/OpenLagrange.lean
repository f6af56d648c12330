import OpenLagrange.Lib.Prog
import OpenLagrange.Lib.TaskGraph
import OpenLagrange.Lib.Dfs
import OpenLagrange.Lib.CursorLog
import OpenLagrange.Lib.Table
import OpenLagrange.Lib.Simulation
import OpenLagrange.Util.Value
import OpenLagrange.Planning.Planfile
import OpenLagrange.Capability.Registry
import OpenLagrange.Platform
import OpenLagrange.Planning.Validator
import OpenLagrange.Planning.Templates
import OpenLagrange.Planning.PlanState
import OpenLagrange.Planning.WorkOrder
import OpenLagrange.Runs.RunControl
import OpenLagrange.Runs.RunEvent
import OpenLagrange.Storage.StateStore
import OpenLagrange.Storage.RunEventLog
import OpenLagrange.Storage.RecordStores
import OpenLagrange.Runs.RunEventStream
import OpenLagrange.Planning.PlanRunner
import OpenLagrange.Runs.RunSnapshot
import OpenLagrange.Planning.ControlPlane
import OpenLagrange.Policy.PolicyGate
import OpenLagrange.Runtime.CapabilityStep
import OpenLagrange.Runtime.CapabilityStepRunner
import OpenLagrange.Reconciliation.Records
import OpenLagrange.Reconciliation.IntentValidation
import OpenLagrange.Workflows.TaskReconciler
import OpenLagrange.Workflows.TaskContinuation
import OpenLagrange.Workflows.ApprovalActions
import OpenLagrange.Lib.Worker
import OpenLagrange.Proofs.Validator
import OpenLagrange.Proofs.PlanState
import OpenLagrange.Proofs.Runner
import OpenLagrange.Proofs.RunSafety
import OpenLagrange.Proofs.TamperDetection
import OpenLagrange.Proofs.Scope
import OpenLagrange.Proofs.Execution
import OpenLagrange.Proofs.Continuations
import OpenLagrange.Proofs.PlanStatus
import OpenLagrange.Proofs.StepGate
import OpenLagrange.Proofs.StepEvents
import OpenLagrange.Proofs.Delegation
import OpenLagrange.Proofs.TaskExecution
import OpenLagrange.Proofs.TaskAccounting
import OpenLagrange.Proofs.EventLog
import OpenLagrange.Proofs.EventIdentity
import OpenLagrange.Proofs.EventStream
import OpenLagrange.Proofs.StoreEquivalence
import OpenLagrange.Proofs.ApprovalFinality
import OpenLagrange.Planning.PlanRequirements
import OpenLagrange.Planning.PlanCheck
import OpenLagrange.Proofs.PlanCheck
import OpenLagrange.Lib.PrefixCode
import OpenLagrange.Util.Json
import OpenLagrange.Planning.PlanfileDiff
import OpenLagrange.Proofs.PlanfileDiff
import OpenLagrange.Lib.Fences
import OpenLagrange.Planning.PlanfileMarkdown
import OpenLagrange.Proofs.PlanfileMarkdown
import OpenLagrange.Planning.PlanSimulation
import OpenLagrange.Util.Path
import OpenLagrange.Planning.EditablePlanfile
import OpenLagrange.Proofs.SafeEdits
import OpenLagrange.Proofs.CanonicalPlan
import OpenLagrange.Proofs.RevisionChain
import OpenLagrange.Proofs.DigestCheck
import OpenLagrange.Lib.Alike
import OpenLagrange.Proofs.DigestRuns
import OpenLagrange.Proofs.DigestAdequacy
import OpenLagrange.Lib.FileTree
import OpenLagrange.Lib.Occurrence
import OpenLagrange.Repository.PathPolicy
import OpenLagrange.Repository.PatchPlan
import OpenLagrange.Repository.PatchApplier
import OpenLagrange.Proofs.PatchCheck
import OpenLagrange.Proofs.PatchAtomicity
import OpenLagrange.Proofs.PatchGuards
import OpenLagrange.Repository.RepositoryStatus
import OpenLagrange.Repository.RepositoryCalls
import OpenLagrange.Repository.EvidenceCollector
import OpenLagrange.Repository.RepositoryPlanRunner
import OpenLagrange.Proofs.RepositoryRun
import OpenLagrange.Proofs.RepositoryContainment
import OpenLagrange.Proofs.RepositoryOrder
import OpenLagrange.Proofs.RepositoryOutcome
import OpenLagrange.Proofs.RepairBound
import OpenLagrange.Primitives.Http
import OpenLagrange.Proofs.HttpFetch
import OpenLagrange.Proofs.NetworkNarrowing
import OpenLagrange.Repository.FilePatch
import OpenLagrange.Repository.WorkOrderHandlers
import OpenLagrange.Proofs.DataFlow
import OpenLagrange.Proofs.PatchTranslation
import OpenLagrange.Planning.IntentComposer
import OpenLagrange.Proofs.ComposedParameters
import OpenLagrange.Proofs.ValidatorExact
import OpenLagrange.Proofs.GateMonotone
import OpenLagrange.Lib.Glob
import OpenLagrange.Proofs.RepositoryPaths
import OpenLagrange.Proofs.PatchFrame
import OpenLagrange.Lib.InternetAddress
import OpenLagrange.Proofs.PrivateHosts
import OpenLagrange.Repository.PatchPreview
import OpenLagrange.Proofs.PreviewEffect
import OpenLagrange.Lib.Triage
import OpenLagrange.Output.Artifacts
import OpenLagrange.Research.Schemas
import OpenLagrange.Research.SourceSet
import OpenLagrange.Proofs.SourceSet
import OpenLagrange.Proofs.ResearchBrief
import OpenLagrange.Lib.ProgCost
import OpenLagrange.Planning.PlanBuilderLoop
import OpenLagrange.Proofs.PlannerBudget
import OpenLagrange.Lib.JsNumber
import OpenLagrange.Primitives.Retry
import OpenLagrange.Proofs.RetryBackoff
import OpenLagrange.Lib.FormEncoding
import OpenLagrange.Lib.StableSort
import OpenLagrange.Search.SearchCoordinator
import OpenLagrange.Proofs.SearchCoordination
import OpenLagrange.Repository.VerificationRunner
import OpenLagrange.Proofs.VerificationSoundness
import OpenLagrange.Capability.PackRegistry
import OpenLagrange.Proofs.PackRegistry
import OpenLagrange.Lib.Interleave
import OpenLagrange.Storage.ProjectStatus
import OpenLagrange.Proofs.StatusAppends
import OpenLagrange.Lib.LocalPath
import OpenLagrange.Artifacts.ArtifactViewer
import OpenLagrange.Proofs.Reindexing
import OpenLagrange.Models.ProviderUsage
import OpenLagrange.Proofs.UsageTotals
import OpenLagrange.Models.ModelCallArtifacts
import OpenLagrange.Proofs.UsageAccounting
import OpenLagrange.Workflows.ProjectReconciler
import OpenLagrange.Proofs.ProjectStatusAgreement
import OpenLagrange.Lib.Substitution
import OpenLagrange.Planning.PlanTemplateInstantiator
import OpenLagrange.Proofs.TemplatePlaceholders
import OpenLagrange.Util.JsonParse
import OpenLagrange.Proofs.CanonicalDigest
import OpenLagrange.Planning.TemplateErrors
import OpenLagrange.Proofs.TemplateResolution
import OpenLagrange.Lib.WindowCounter
import OpenLagrange.Web.RateLimit
import OpenLagrange.Proofs.RateLimiting
import OpenLagrange.Proofs.EventDelivery
import OpenLagrange.Proofs.StreamDelivery
import OpenLagrange.Lib.Flowchart
import OpenLagrange.Proofs.DiagramFidelity
import OpenLagrange.Lib.Together
import OpenLagrange.Proofs.RunIsolation
import OpenLagrange.Output.ArtifactSelector
import OpenLagrange.Proofs.ArtifactSelection
import OpenLagrange.Util.JsonReading
import OpenLagrange.Models.ModelText
import OpenLagrange.Proofs.JsonExtraction
import OpenLagrange.Proofs.Interleaving
import OpenLagrange.Repository.RepositoryPlanControl
import OpenLagrange.Proofs.ScopeDigest
import OpenLagrange.Proofs.ScopeRequests
import OpenLagrange.Proofs.ScopeConsent
import OpenLagrange.Proofs.ScopeReuse
