/-
The status of a repository plan, and the records its nodes leave.

The status is one file for each plan.  It is written whole after every change, and what a later
run of the plan knows of the runs before it is what this file says.
-/
import OpenLagrange.Planning.PlanState
import OpenLagrange.Repository.PatchApplier
import OpenLagrange.Repository.ScopeExpansion

namespace OpenLagrange

/-! ### Records -/

inductive WorktreeStatus where
  | created | running | completed | failed | retained | cleaned
  deriving DecidableEq, Repr

structure WorktreeSession where
  worktreeId : String
  planId : String
  repoRoot : String
  worktreePath : String
  baseRef : String
  baseCommit : String
  branchName : String
  status : WorktreeStatus
  createdAt : String
  updatedAt : String
  finalPatchArtifactId : Option String
  retainOnFailure : Option Bool
  deriving DecidableEq, Repr

/-- What a node knows of the repository, as far as patching reads it. -/
structure EvidenceBundle where
  evidenceBundleId : String
  artifactId : String
  /-- The paths of the files that were read. -/
  files : List String
  /-- How many findings there are. -/
  findings : Nat
  deriving DecidableEq, Repr

inductive VerificationStatus where
  | passed | failed | timeout | skipped
  deriving DecidableEq, Repr

def VerificationStatus.text : VerificationStatus → String
  | .passed => "passed"
  | .failed => "failed"
  | .timeout => "timeout"
  | .skipped => "skipped"

structure VerificationCommandResult where
  commandId : String
  exitCode : Option Int
  status : VerificationStatus
  stdoutPreview : String
  stderrPreview : String
  deriving DecidableEq, Repr

structure VerificationFailure where
  commandId : String
  summary : String
  stderrPreview : String
  deriving DecidableEq, Repr

structure RepositoryVerificationReport where
  verificationReportId : String
  commandResults : List VerificationCommandResult
  passed : Bool
  failures : List VerificationFailure
  artifactId : String
  deriving DecidableEq, Repr

structure RepositoryReviewReport where
  reviewReportId : String
  summary : String
  artifactId : String
  deriving DecidableEq, Repr

structure FinalPatchArtifact where
  artifactId : String
  unifiedDiff : String
  changedFiles : List String
  deriving DecidableEq, Repr

/-! ### Repair attempts -/

inductive RepairDecisionKind where
  | repairWithinPlan | revisePlanRequired | requiresApproval | yield
  deriving DecidableEq, Repr

structure RepairDecision where
  decision : RepairDecisionKind
  reason : String
  repairWorkOrderId : Option String
  deriving DecidableEq, Repr

inductive RepairStatus where
  | pending | applied | yielded
  deriving DecidableEq, Repr

structure RepairAttempt where
  repairAttemptId : String
  planId : String
  nodeId : String
  attempt : Nat
  failureSummary : String
  status : RepairStatus
  decision : RepairDecision
  createdAt : String
  deriving DecidableEq, Repr

/-- The parts of a line that are not empty, with blanks between them. -/
def joinNonempty (parts : List String) : String := " ".intercalate (parts.filter (· ≠ ""))

def summarizeResult (result : VerificationCommandResult) : String :=
  joinNonempty
    [result.commandId ++ " " ++ result.status.text ++
      (result.exitCode.elim "" fun code => " with exit code " ++ toString code) ++ ".",
    if result.stderrPreview ≠ "" then result.stderrPreview else result.stdoutPreview]

def summarizeVerificationFailure (report : RepositoryVerificationReport) : String :=
  let failed := report.commandResults.filter (·.status ≠ .passed)
  if failed.length = 0 then "Verification passed."
  else "\n".intercalate (failed.map summarizeResult)

/-- The same failure was seen twice before. -/
def repeatedFailure (attempts : List RepairAttempt) (summary : String) : Bool :=
  2 ≤ (attempts.filter (·.failureSummary = summary)).length

/-- Three attempts are the limit that the runner leaves in place. -/
def maxRepairAttempts : Nat := 3

def nextRepairAttempt (planId nodeId : String) (previousAttempts : List RepairAttempt)
    (report : RepositoryVerificationReport) (now : String) : RepairAttempt :=
  let attempt := previousAttempts.length + 1
  let failureSummary := summarizeVerificationFailure report
  let shouldYield := attempt > maxRepairAttempts || repeatedFailure previousAttempts failureSummary
  { repairAttemptId := "repair_" ++ planId ++ "_" ++ toString attempt
    planId
    nodeId
    attempt
    failureSummary
    status := if shouldYield then .yielded else .pending
    decision :=
      if shouldYield then
        ⟨.yield, "Repair attempt limit or repeated failure reached.", none⟩
      else
        ⟨.repairWithinPlan, "Verification failure can be repaired within current plan.",
          some ("repair_work_order_" ++ planId ++ "_" ++ toString attempt)⟩
    createdAt := now }

/-! ### The status of a plan -/

inductive ScopeResumeStatus where
  | notReady | ready | applied | blocked
  deriving DecidableEq, Repr

structure RepositoryScopeExpansionStatus where
  request : PersistedScopeExpansionRequest
  approvalRequestId : String
  requestDigest : Option String
  approvalStatus : Decision
  resumeStatus : Option ScopeResumeStatus
  suggestedApproveCommand : String
  suggestedRejectCommand : String
  suggestedResumeCommand : Option String
  deriving DecidableEq, Repr

inductive RepositoryRunStatus where
  | pending | running | completed | failed | yielded
  deriving DecidableEq, Repr

structure RepositoryPlanStatus where
  planId : String
  status : RepositoryRunStatus
  currentNode : Option String
  worktreeSession : Option WorktreeSession
  planState : Option PlanState
  artifactRefs : List String
  changedFiles : List String
  evidenceBundleIds : List String
  patchPlanIds : List String
  patchPlanGeneratedByModel : Option Bool
  patchValidationReportIds : List String
  patchArtifactIds : List String
  scopeExpansionRequestIds : List String
  scopeExpansionRequests : List RepositoryScopeExpansionStatus
  verificationReportIds : List String
  repairAttemptIds : List String
  reviewReportId : Option String
  finalPatchArtifactId : Option String
  yieldedReason : Option String
  remediation : Option String
  suggestedNextCommand : Option String
  errors : List String
  warnings : List String
  createdAt : String
  updatedAt : String
  deriving DecidableEq, Repr

def createRepositoryPlanStatus (planId now : String) : RepositoryPlanStatus where
  planId
  status := .pending
  currentNode := none
  worktreeSession := none
  planState := none
  artifactRefs := []
  changedFiles := []
  evidenceBundleIds := []
  patchPlanIds := []
  patchPlanGeneratedByModel := none
  patchValidationReportIds := []
  patchArtifactIds := []
  scopeExpansionRequestIds := []
  scopeExpansionRequests := []
  verificationReportIds := []
  repairAttemptIds := []
  reviewReportId := none
  finalPatchArtifactId := none
  yieldedReason := none
  remediation := none
  suggestedNextCommand := none
  errors := []
  warnings := []
  createdAt := now
  updatedAt := now

/-! ### What to do about a yield -/

structure YieldedGuidance where
  yieldedReason : String
  remediation : String
  suggestedNextCommand : String

/-- One of the words occurs, whatever the case of its letters. -/
def mentionsOne (reason : String) (words : List String) : Bool :=
  words.any fun word => mentions word.toList reason.toList

def yieldedGuidance (planId reason : String) (approvalId scopeRequestId : Option String) :
    YieldedGuidance :=
  if mentionsOne reason ["model_provider_unavailable", "model provider", "model route", "credential"] then
    ⟨reason, "Configure a model provider, or run planning with --planning-mode deterministic when " ++
      "only a Planfile preview is needed.", "open-lagrange model status"⟩
  else if (truthy scopeRequestId).isSome || mentionsOne reason ["scope expansion"] then
    ⟨reason, "Review the requested scope, approve or reject it, then resume the repository plan.",
      "open-lagrange repo scope approve " ++ scopeRequestId.getD "<request_id>" ++
        " --reason \"<reason>\" && open-lagrange repo resume " ++ planId⟩
  else if (truthy approvalId).isSome || mentionsOne reason ["requires approval", "approval"] then
    ⟨reason, "Review the approval artifact, approve or reject the request, then resume if the plan " ++
      "supports continuation.",
      "open-lagrange approval approve " ++ approvalId.getD "<approval_id>" ++ " --reason \"<reason>\""⟩
  else if mentionsOne reason ["unknown evidence", "validation", "precondition", "policy"] then
    ⟨reason, "Inspect the PatchPlan, evidence bundle, and validation report before revising the " ++
      "Planfile or rerunning with adjusted scope.", "open-lagrange repo explain " ++ planId⟩
  else
    ⟨reason, "Inspect the repository plan status and artifact trail to decide whether to approve, " ++
      "revise, or stop the run.", "open-lagrange repo explain " ++ planId⟩

end OpenLagrange
