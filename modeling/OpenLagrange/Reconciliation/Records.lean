/-
The records that task reconciliation writes and reads.

A task is given to the reconciler with the delegation it runs under and its bounds.  A
model answers with an artifact, which carries the execution intents.  The reconciler
returns a result that lists the intents it executed and those it skipped; where somebody
has to approve an intent it leaves an approval request, and the context in which a later
continuation takes the intent up again.
-/
import OpenLagrange.Runtime.CapabilityStep

namespace OpenLagrange

/-! ### Statuses -/

inductive ReconciliationStatus where
  | completed | completedWithErrors | yielded | requiresApproval | failed
  deriving DecidableEq, Repr

def ReconciliationStatus.text : ReconciliationStatus → String
  | .completed => "completed"
  | .completedWithErrors => "completed_with_errors"
  | .yielded => "yielded"
  | .requiresApproval => "requires_approval"
  | .failed => "failed"

inductive WorkflowStatus where
  | accepted | planning | running | reconciled (status : ReconciliationStatus)
  deriving DecidableEq, Repr

inductive CriticOutcome where
  | pass | revise | yield
  deriving DecidableEq, Repr

structure CriticResult where
  outcome : CriticOutcome
  summary : String

/-! ### Tasks and artifacts -/

structure TaskReconcilerInput where
  parentProjectId : String
  parentProjectRunId : String
  taskRunId : String
  scopedTask : ScopedTask
  delegationContext : DelegationContext
  bounds : ExecutionBounds

/-- What a model answers a task with, as far as reconciling it reads it. -/
structure CognitiveArtifact where
  artifactId : String
  capabilitySnapshotId : String
  executionIntents : List ExecutionIntent
  yieldReason : Option String

/-! ### Approvals -/

structure ApprovalRequest where
  approvalRequestId : String
  taskId : String
  projectId : String
  intentId : String
  requestedRiskLevel : RiskLevel
  requestedCapability : String
  taskRunId : String
  requestedAt : String
  prompt : String
  traceId : String
  deriving DecidableEq

inductive Decision where
  | requested | approved | rejected
  deriving DecidableEq, Repr

structure ApprovalDecision where
  approvalRequestId : String
  taskId : String
  projectId : String
  intentId : String
  requestedRiskLevel : RiskLevel
  requestedCapability : String
  requestedAt : String
  decision : Decision
  approvedBy : Option String
  rejectedBy : Option String
  decidedAt : Option String
  reason : Option String
  approvalTokenHash : Option String
  traceId : String
  deriving DecidableEq

/-- A request nobody has decided yet; the token that decides it is a platform's affair. -/
def ApprovalRequest.requested (tokenHash : String → String) (request : ApprovalRequest) :
    ApprovalDecision where
  approvalRequestId := request.approvalRequestId
  taskId := request.taskId
  projectId := request.projectId
  intentId := request.intentId
  requestedRiskLevel := request.requestedRiskLevel
  requestedCapability := request.requestedCapability
  requestedAt := request.requestedAt
  decision := .requested
  approvedBy := none
  rejectedBy := none
  decidedAt := none
  reason := none
  approvalTokenHash := some (tokenHash request.approvalRequestId)
  traceId := request.traceId

structure ApprovalContinuationInput where
  approvalRequestId : String
  taskRunId : String
  deriving DecidableEq

structure ApprovalContinuationContext where
  approvalRequest : ApprovalRequest
  parentProjectId : String
  parentProjectRunId : String
  taskRunId : String
  scopedTask : ScopedTask
  delegationContext : DelegationContext
  bounds : ExecutionBounds
  capabilitySnapshot : CapabilitySnapshot
  artifact : CognitiveArtifact
  intent : ExecutionIntent

/-! ### Results -/

structure TaskReconciliationResult where
  reconciliationId : String
  taskId : String
  taskRunId : String
  status : ReconciliationStatus
  capabilitySnapshot : CapabilitySnapshot
  artifact : Option CognitiveArtifact
  executedIntents : List ExecutionIntent
  skippedIntents : List ExecutionIntent
  observations : List Observation
  errors : List StructuredError
  finalMessage : String
  approvalRequest : Option ApprovalRequest

/-- A task's status, as the reconciler and the continuation record it. -/
structure TaskStatusSnapshot where
  projectId : String
  taskId : String
  taskRunId : String
  status : WorkflowStatus
  observations : List Observation
  errors : List StructuredError
  finalMessage : String
  result : Option TaskReconciliationResult
  updatedAt : String

/-! ### Building records -/

/-- `structuredError`: an id that is not given is left out, and so are the details. -/
def structuredError (code message now : String) (intentId taskId : Option String) :
    StructuredError where
  code
  message
  intentId
  taskId
  observedAt := now

/-- An error as an object, the properties it leaves out being undefined. -/
def StructuredError.toValue (e : StructuredError) : Value :=
  .obj [("code", .str e.code), ("message", .str e.message),
    ("intent_id", e.intentId.elim .undefined .str), ("task_id", e.taskId.elim .undefined .str),
    ("observed_at", .str e.observedAt), ("details", .undefined)]

/-- An observation that is given an output, be it undefined. -/
def outputObservation (sha256 : String → String) (status : ObservationStatus) (summary now : String)
    (taskId intentId : String) (output : Value) : Observation where
  observationId := "observation_" ++ firstChars 16 (stableHash sha256 (.obj
    [("status", .str status.text), ("summary", .str summary), ("now", .str now),
      ("intent_id", .str intentId), ("task_id", .str taskId), ("output", output)]))
  intentId := some intentId
  taskId := some taskId
  status
  summary
  output
  observedAt := now

def deterministicReconciliationId (sha256 : String → String) (input : Value) : String :=
  "reconciliation_" ++ firstChars 16 (stableHash sha256 input)

def deterministicApprovalRequestId (sha256 : String → String)
    (taskRunId intentId capabilityDigest : String) : String :=
  "approval_request_" ++ firstChars 16 (stableHash sha256 (.obj [("task_run_id", .str taskRunId),
    ("intent_id", .str intentId), ("capability_digest", .str capabilityDigest)]))

end OpenLagrange
