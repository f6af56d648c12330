/-
The calls of a repository run.

A run of a repository plan awaits capability steps, a model, Git and the verification commands,
and it writes files.  A `RepositoryCall` is one such call, with the values it hands over; what it
answers is left open, and every call may throw.  What the run does by itself is the program in
`RepositoryPlanRunner.lean`.
-/
import OpenLagrange.Lib.Prog
import OpenLagrange.Planning.WorkOrder
import OpenLagrange.Repository.RepositoryStatus

namespace OpenLagrange

/-- What a repository run uses besides the platform of its planfile. -/
structure RepositoryPlatform extends Platform where
  toLowerCase : String → String
  /-- `stableHash` of a patch plan. -/
  patchPlanHash : RepositoryPatchPlan → String

/-! ### What is handed over -/

/-- The output of a capability step, as the schema of its caller reads it. -/
inductive StepOutput (α : Type) where
  /-- There is none, as of a step that failed or was denied; with what the schema says of that. -/
  | missing (issues : String)
  | parsed (value : α)
  | refused (issues : String)

structure RepositoryFileRead where
  relativePath : String
  sha256 : String
  deriving DecidableEq, Repr

structure RepositorySearchMatch where
  relativePath : String
  lineNumber : Nat
  deriving DecidableEq, Repr

inductive PatchMode where
  | initialPatch | repair
  deriving DecidableEq, Repr

structure GeneratePatchPlanFromEvidenceInput where
  planId : String
  nodeId : String
  workOrder : WorkOrder
  evidenceBundle : EvidenceBundle
  allowedFiles : List String
  patchPolicy : PatchPolicy
  latestFailures : Option (List VerificationFailure)
  currentDiffSummary : Option String
  mode : PatchMode

/-- What asking for a patch plan comes to; anything else that is thrown is a throw of the call. -/
inductive PatchPlanGeneration where
  | patchPlan (plan : RepositoryPatchPlan)
  /-- `MODEL_PROVIDER_UNAVAILABLE`. -/
  | unavailable (message : String)

structure ReviewReportInput where
  planfile : Planfile
  changedFiles : List String
  patchArtifacts : List RepositoryPatchArtifact
  verificationReports : List RepositoryVerificationReport
  repairAttempts : List RepairAttempt
  finalDiffSummary : String
  knownLimitations : List String
  finalPatchArtifactId : Option String

/-- The artifact of a patch that was tried: without errors exactly when it was applied. -/
structure PatchOutcome extends RepositoryPatchArtifact where
  applied_iff : applyStatus = .applied ↔ errors = []

/-- What an artifact holds. -/
inductive ArtifactContent where
  | evidence (bundle : EvidenceBundle)
  | context (input : GeneratePatchPlanFromEvidenceInput)
  | patchPlan (plan : RepositoryPatchPlan)
  | scopeRequest (request : PersistedScopeExpansionRequest)
  | missingScopeRequest (patchPlanId : String)
  | validation (report : RepositoryPatchValidationResult)
  | approval (patchPlanId : String) (decision : Decision)
  | patch (artifact : RepositoryPatchArtifact)
  | verification (report : RepositoryVerificationReport)
  | repair (attempt : RepairAttempt)
  | review (report : RepositoryReviewReport)
  | finalPatch (artifact : FinalPatchArtifact)

/-- The kinds of the artifacts that a run records. -/
inductive RepositoryArtifactKind where
  | evidenceBundle | patchPlanContext | patchPlan | repairPatchPlan | scopeExpansionRequest
  | patchValidationReport | approvalRequest | patchArtifact | verificationReport | repairDecision
  | reviewReport | finalPatchArtifact
  deriving DecidableEq, Repr

structure RepositoryArtifact where
  artifactId : String
  kind : RepositoryArtifactKind
  title : String
  summary : String
  pathOrUri : String
  createdAt : String
  deriving DecidableEq, Repr

/-! ### The calls -/

inductive RepositoryCall where
  | clock
  | persistExecutionCopy (plan : Planfile)
  | recordPlanState (state : PlanState)
  | writeStatus (status : RepositoryPlanStatus)
  | readVerification (artifactId : String)
  | readPatchArtifact (artifactId : String)
  | loadWorkspace (repoRoot traceId : String)
  | listFiles (nodeId : String) (maxResults : Nat)
  | readFile (nodeId relativePath : String)
  | searchText (nodeId query : String) (maxResults : Nat)
  | proposePatch (nodeId : String) (patchPlan : RepositoryPatchPlan) (evidence : EvidenceBundle)
  | recordArtifact (kind : RepositoryArtifactKind) (title : String) (content : ArtifactContent)
  | createPatchPlanWorkOrder (node : PlanNode) (evidence : EvidenceBundle)
      (latestFailures : Option (List VerificationFailure))
  | generatePatchPlan (input : GeneratePatchPlanFromEvidenceInput)
  | createScopeExpansionApproval (request : PersistedScopeExpansionRequest)
  | createPatchApproval (nodeId : String) (patchPlan : RepositoryPatchPlan)
  | validatePatchPlan (workspace : RepositoryWorkspace) (patchPlan : RepositoryPatchPlan)
      (policy : PatchPolicy)
  | applyPatchPlan (mode : PatchMode) (workspace : RepositoryWorkspace)
      (patchPlan : RepositoryPatchPlan) (policy : PatchPolicy)
  | detectVerificationPolicy (worktreePath : String)
  | runVerificationPolicy (nodeId : String) (commands commandIds : List String)
  | generateReviewReport (input : ReviewReportInput)
  | exportFinalPatch (session : WorktreeSession)
  | registerArtifacts (artifacts : List RepositoryArtifact)

/-- Where an artifact was written, and when. -/
structure WrittenArtifact where
  artifactId : String
  pathOrUri : String
  createdAt : String

/-- The approval that a scope request waits for. -/
structure ScopeApproval where
  approvalRequestId : String
  decision : Decision

abbrev RepositoryAnswer : RepositoryCall → Type
  | .clock => String
  | .readVerification _ => Option RepositoryVerificationReport
  | .readPatchArtifact _ => Option RepositoryPatchArtifact
  | .loadWorkspace _ _ => RepositoryWorkspace
  | .listFiles _ _ => StepOutput (List String)
  | .readFile _ _ => StepOutput RepositoryFileRead
  | .searchText _ _ _ => StepOutput (List RepositorySearchMatch)
  | .recordArtifact _ _ _ => WrittenArtifact
  | .createPatchPlanWorkOrder _ _ _ => WorkOrder
  | .generatePatchPlan _ => PatchPlanGeneration
  | .createScopeExpansionApproval _ => ScopeApproval
  | .createPatchApproval _ _ => Decision
  | .validatePatchPlan _ _ _ => RepositoryPatchValidationResult
  | .applyPatchPlan _ _ _ _ => PatchOutcome
  | .detectVerificationPolicy _ => List String
  | .runVerificationPolicy _ _ _ => RepositoryVerificationReport
  | .generateReviewReport _ => RepositoryReviewReport
  | .exportFinalPatch _ => FinalPatchArtifact
  | _ => Unit

abbrev RepositoryProgram (α : Type) := Prog RepositoryCall RepositoryAnswer α

/-- One awaited call of a repository run. -/
abbrev await (call : RepositoryCall) : RepositoryProgram (RepositoryAnswer call) := Prog.perform call

end OpenLagrange
