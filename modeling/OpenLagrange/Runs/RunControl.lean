/-
The durable records of a run: the run itself, its continuations and the attempts of
its nodes, and the policy that judges a requested replay.

All of them are kept by run id or continuation id.  The state of the plan a run
executes is not among them: it is kept by plan id.
-/
import OpenLagrange.Planning.PlanState

namespace OpenLagrange

inductive DurableRunStatus where
  | queued | running | requiresApproval | yielded | failed | completed | cancelled
  deriving DecidableEq, Repr

def DurableRunStatus.text : DurableRunStatus → String
  | .queued => "queued"
  | .running => "running"
  | .requiresApproval => "requires_approval"
  | .yielded => "yielded"
  | .failed => "failed"
  | .completed => "completed"
  | .cancelled => "cancelled"

inductive RunRuntime where
  | hatchet | localDev
  deriving DecidableEq, Repr

structure RunExecutionRecord where
  runId : String
  planId : String
  planDigest : String
  planTitle : Option String
  runtime : RunRuntime
  status : DurableRunStatus
  planfile : Planfile
  hatchetRunId : Option String
  outputDir : Option String
  lastContinuationId : Option String
  createdAt : String
  updatedAt : String
  startedAt : Option String
  completedAt : Option String
  activeNodeId : Option String
  artifactRefs : List String
  approvalRefs : List String
  modelCallRefs : List String
  errorRefs : List String

inductive ContinuationKind where
  | resume | retry | cancel
  deriving DecidableEq, Repr

inductive ContinuationStatus where
  | queued | running | completed | failed
  deriving DecidableEq, Repr

inductive RetryReplayMode where
  | reuseArtifacts | refreshArtifacts | forceNewIdempotencyKey
  deriving DecidableEq, Repr

def RetryReplayMode.text : RetryReplayMode → String
  | .reuseArtifacts => "reuse_artifacts"
  | .refreshArtifacts => "refresh_artifacts"
  | .forceNewIdempotencyKey => "force_new_idempotency_key"

/-- A replay mode in either spelling; any other text is refused. -/
def apiReplayMode (value : String) : Except String RetryReplayMode :=
  if value = "reuse-artifacts" ∨ value = "reuse_artifacts" then .ok .reuseArtifacts
  else if value = "refresh-artifacts" ∨ value = "refresh_artifacts" then .ok .refreshArtifacts
  else if value = "force-new-idempotency-key" ∨ value = "force_new_idempotency_key" then
    .ok .forceNewIdempotencyKey
  else .error "Invalid option: expected one of reuse_artifacts|refresh_artifacts|force_new_idempotency_key"

structure RunContinuationRecord where
  continuationId : String
  runId : String
  kind : ContinuationKind
  status : ContinuationStatus
  nodeId : Option String
  replayMode : Option RetryReplayMode
  hatchetRunId : Option String
  createdAt : String
  updatedAt : String
  deriving DecidableEq, Repr

inductive NodeAttemptStatus where
  | running | completed | failed | yielded | requiresApproval
  deriving DecidableEq, Repr

structure NodeAttempt where
  attemptId : String
  runId : String
  planId : String
  nodeId : String
  attemptNumber : Nat
  replayMode : RetryReplayMode
  idempotencyKey : String
  previousAttemptId : Option String
  inputArtifactRefs : List String
  outputArtifactRefs : List String
  status : NodeAttemptStatus
  startedAt : String
  completedAt : Option String
  deriving DecidableEq, Repr

/-! ### The replay policy -/

structure ReplayPolicyDecision where
  ok : Bool
  reason : Option String
  requiresApproval : Option Bool
  deriving DecidableEq, Repr

/-- The risk of a node that acts on something outside the run. -/
def sideEffecting (node : PlanNode) : Bool :=
  node.riskLevel = .write ∨ node.riskLevel = .externalSideEffect ∨ node.riskLevel = .destructive

def evaluateNodeReplayPolicy (node : PlanNode) : Option RetryReplayMode → ReplayPolicyDecision
  | none =>
      ⟨false, some ("Replay mode is required. Available modes: reuse_artifacts, refresh_artifacts," ++
        " force_new_idempotency_key."), none⟩
  | some .reuseArtifacts =>
      if sideEffecting node then
        ⟨true, some "Artifacts may be reused without re-executing side effects.", none⟩
      else ⟨true, none, none⟩
  | some .refreshArtifacts =>
      if node.riskLevel = .read ∧
          node.kind.text ∈ ["inspect", "research", "fetch", "extract", "analyze", "frame"] then
        ⟨true, none, none⟩
      else
        ⟨false, some "refresh_artifacts is only allowed for read/fetch/extract-style nodes.", none⟩
  | some .forceNewIdempotencyKey =>
      if sideEffecting node then
        ⟨true, some "Re-executing side-effecting work requires approval.", some true⟩
      else ⟨true, none, none⟩

end OpenLagrange
