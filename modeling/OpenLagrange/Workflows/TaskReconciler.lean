/-
The task reconciler.

It discovers the capabilities the task may use, asks a model for an artifact, and takes
the execution intents of the artifact one by one: each is validated against the snapshot
and put to the policy gate, and what the gate allows is executed at its endpoint and shown
to a critic.  Every child task it runs is a call, and whatever a child answers or throws
is part of the run.

A schema that the source applies to what it has built itself accepts it, and is left out.
Where a schema decides a branch, `Except` says what it made of the value.
-/
import OpenLagrange.Lib.Prog
import OpenLagrange.Reconciliation.IntentValidation

namespace OpenLagrange

/-! ### The child tasks -/

structure ExecuteMcpIntentInput where
  endpointId : String
  capabilityName : String
  arguments : List (String × Value)
  idempotencyKey : String
  delegationContext : DelegationContext
  capabilitySnapshotId : String
  /-- The key the child is run under, and the intent its metadata names. -/
  childKey : String
  intentId : String

inductive ExecuteMcpIntentOutput where
  | ok (message : String) (result : Value)
  | error (message : String)

structure LoadApprovalContinuationOutput where
  decision : Option ApprovalDecision
  context : Option ApprovalContinuationContext

inductive TaskCall where
  | recordStatus (snapshot : TaskStatusSnapshot)
  | discoverCapabilities (workspaceId : String) (scopedTask : ScopedTask)
      (delegationContext : DelegationContext) (maxRiskLevel : RiskLevel) (now : String)
  | generateTaskArtifact (scopedTask : ScopedTask) (delegationContext : DelegationContext)
      (capabilitySnapshot : CapabilitySnapshot)
  | createApprovalRequest (request : ApprovalRequest)
  | recordContinuationContext (context : ApprovalContinuationContext)
  | loadApprovalContinuation (input : ApprovalContinuationInput)
  | executeMcpIntent (input : ExecuteMcpIntentInput)
  | runCritic (scopedTask : ScopedTask) (output : Value)

/-- What the reconciler reads of an answer; an artifact is read through its schema. -/
abbrev TaskCall.Answer : TaskCall → Type
  | .recordStatus _ => Unit
  | .discoverCapabilities _ _ _ _ _ => CapabilitySnapshot
  | .generateTaskArtifact _ _ _ => Except String CognitiveArtifact
  | .createApprovalRequest _ => Unit
  | .recordContinuationContext _ => Unit
  | .loadApprovalContinuation _ => LoadApprovalContinuationOutput
  | .executeMcpIntent _ => ExecuteMcpIntentOutput
  | .runCritic _ _ => CriticResult

abbrev TaskProg := Prog TaskCall TaskCall.Answer

/-! ### What the loop over the intents reads and keeps -/

structure TaskState where
  observations : List Observation
  errors : List StructuredError
  executed : List ExecutionIntent
  skipped : List ExecutionIntent

namespace TaskState

def empty : TaskState := ⟨[], [], [], []⟩

def note (state : TaskState) (error : StructuredError) (item : Observation) : TaskState :=
  { state with errors := state.errors ++ [error], observations := state.observations ++ [item] }

def skip (state : TaskState) (intent : ExecutionIntent) (error : StructuredError)
    (item : Observation) : TaskState :=
  { state.note error item with skipped := state.skipped ++ [intent] }

def execute (state : TaskState) (intent : ExecutionIntent) (item : Observation) : TaskState :=
  { state with
    executed := state.executed ++ [intent], observations := state.observations ++ [item] }

def fault (state : TaskState) (error : StructuredError) : TaskState :=
  { state with errors := state.errors ++ [error] }

end TaskState

/-- The delegation a task runs under: the project's, for this run of the task. -/
def TaskReconcilerInput.delegation (input : TaskReconcilerInput) : DelegationContext :=
  { input.delegationContext with taskRunId := some input.taskRunId }

/-- What stays the same while the intents are reconciled. -/
structure TaskSetting where
  input : TaskReconcilerInput
  now : String
  capabilitySnapshot : CapabilitySnapshot
  artifact : CognitiveArtifact

/-- How an iteration ends: with the next one, or with the result of the task. -/
inductive Iteration where
  | next (state : TaskState)
  | finished (result : TaskReconciliationResult)

section Reconciler

variable (sha256 : String → String) (dateParse : String → Option Int)

def taskResult (status : ReconciliationStatus) (input : TaskReconcilerInput)
    (capabilitySnapshot : CapabilitySnapshot) (artifact : Option CognitiveArtifact)
    (state : TaskState) (finalMessage : String) (approvalRequest : Option ApprovalRequest) :
    TaskReconciliationResult where
  reconciliationId := deterministicReconciliationId sha256 (.obj
    [("task_id", .str input.scopedTask.taskId), ("status", .str status.text),
      ("errors", .arr (state.errors.map (·.toValue)))])
  taskId := input.scopedTask.taskId
  taskRunId := input.taskRunId
  status
  capabilitySnapshot
  artifact
  executedIntents := state.executed
  skippedIntents := state.skipped
  observations := state.observations
  errors := state.errors
  finalMessage
  approvalRequest

def failedTaskResult (taskId taskRunId now : String) (capabilitySnapshot : Option CapabilitySnapshot)
    (observations : List Observation) (errors : List StructuredError) (finalMessage : String) :
    TaskReconciliationResult where
  reconciliationId := deterministicReconciliationId sha256 (.obj
    [("taskId", .str taskId), ("errors", .arr (errors.map (·.toValue)))])
  taskId
  taskRunId
  status := .failed
  capabilitySnapshot := capabilitySnapshot.getD
    ⟨"caps_invalid", now, String.ofList (List.replicate 64 '0'), []⟩
  artifact := none
  executedIntents := []
  skippedIntents := []
  observations
  errors
  finalMessage
  approvalRequest := none

namespace TaskSetting

variable (t : TaskSetting)

def taskId : String := t.input.scopedTask.taskId

/-- What the loop puts to the gate; the snapshot's descriptor declares no side effect. -/
def policyInput (capability : SnapshotCapability) (intent : ExecutionIntent)
    (endpointAttemptsUsed : Nat) : PolicyGateInput where
  delegationContext := t.input.delegation
  scopedTask := t.input.scopedTask
  capability
  sideEffectKind := none
  intent
  bounds := t.input.bounds
  endpointAttemptsUsed
  now := t.now

def executeInput (intent : ExecutionIntent) : ExecuteMcpIntentInput where
  endpointId := intent.endpointId
  capabilityName := intent.capabilityName
  arguments := intent.arguments
  idempotencyKey := intent.idempotencyKey
  delegationContext := t.input.delegation
  capabilitySnapshotId := t.capabilitySnapshot.snapshotId
  childKey := t.input.taskRunId ++ ":execute:" ++ intent.idempotencyKey
  intentId := intent.intentId

def approvalRequest (intent : ExecutionIntent) : ApprovalRequest where
  approvalRequestId :=
    deterministicApprovalRequestId sha256 t.input.taskRunId intent.intentId intent.capabilityDigest
  taskId := t.taskId
  projectId := t.input.parentProjectId
  intentId := intent.intentId
  requestedRiskLevel := intent.riskLevel
  requestedCapability := intent.capabilityName
  taskRunId := t.input.taskRunId
  requestedAt := t.now
  prompt := "Approve " ++ intent.capabilityName ++ " for task " ++ t.input.scopedTask.title
  traceId := t.input.delegation.traceId

def continuationContext (intent : ExecutionIntent) : ApprovalContinuationContext where
  approvalRequest := t.approvalRequest sha256 intent
  parentProjectId := t.input.parentProjectId
  parentProjectRunId := t.input.parentProjectRunId
  taskRunId := t.input.taskRunId
  scopedTask := t.input.scopedTask
  delegationContext := t.input.delegation
  bounds := t.input.bounds
  capabilitySnapshot := t.capabilitySnapshot
  artifact := t.artifact
  intent

def error (code message : String) (intent : ExecutionIntent) : StructuredError :=
  structuredError code message t.now (some intent.intentId) (some t.taskId)

def observation (status : ObservationStatus) (summary : String) (intent : ExecutionIntent) :
    Observation :=
  OpenLagrange.observation sha256 status summary t.now (some intent.intentId) (some t.taskId)
    .undefined

def result (status : ReconciliationStatus) (state : TaskState) (finalMessage : String) :
    TaskReconciliationResult :=
  taskResult sha256 status t.input t.capabilitySnapshot (some t.artifact) state finalMessage none

/-! ### One intent -/

/-- The gate does not allow the intent: it is skipped, and a question for approval or a
yield ends the loop. -/
def refuse (intent : ExecutionIntent) (policy : PolicyGateResult) (state : TaskState) :
    TaskProg Iteration :=
  let code := match policy.outcome with
    | .requiresApproval => "APPROVAL_REQUIRED"
    | .yield => "YIELDED"
    | _ => "POLICY_DENIED"
  let status := if policy.outcome = .yield then .skipped else .error
  let state := state.skip intent (t.error code policy.reason intent)
    (t.observation sha256 status policy.reason intent)
  match policy.outcome with
  | .requiresApproval => do
      let _ ← Prog.perform (.createApprovalRequest (t.approvalRequest sha256 intent))
      let _ ← Prog.perform (.recordContinuationContext (t.continuationContext sha256 intent))
      return .finished { t.result sha256 .requiresApproval state "Approval is required." with
        approvalRequest := some (t.approvalRequest sha256 intent) }
  | .yield => .done (.finished (t.result sha256 .yielded state "The policy gate yielded."))
  | _ => .done (.next state)

/-- The intent was executed: the critic may end the loop. -/
def criticize (intent : ExecutionIntent) (output : Value) (state : TaskState) :
    TaskProg Iteration := do
  let critic ← Prog.perform (.runCritic t.input.scopedTask output)
  match critic.outcome with
  | .yield =>
      return .finished (t.result sha256 .yielded
        (state.fault (t.error "YIELDED" critic.summary intent)) "The critic yielded.")
  | .revise =>
      return .finished (t.result sha256 .yielded
        (state.fault (t.error "REVISION_UNSUPPORTED" critic.summary intent))
        "Revision is unsupported in this slice.")
  | .pass => return .next state

/-- Execute an intent the gate allows. -/
def executeIntent (intent : ExecutionIntent) (state : TaskState) : TaskProg Iteration := do
  let output : ExecuteMcpIntentOutput ←
    Prog.perform (TaskCall.executeMcpIntent (t.executeInput intent))
  match output with
  | .error message =>
      return .next (state.skip intent (t.error "MCP_EXECUTION_FAILED" message intent)
        (t.observation sha256 .error message intent))
  | .ok message result =>
      t.criticize sha256 intent result (state.execute intent
        (outputObservation sha256 .recorded message t.now t.taskId intent.intentId result))

def reconcileIntent (intent : ExecutionIntent) (state : TaskState) : TaskProg Iteration :=
  match validateIntentForSnapshot intent t.capabilitySnapshot t.taskId t.now with
  | .error e =>
      .done (.next (state.skip intent e (t.observation sha256 .error e.message intent)))
  | .ok capability =>
      let policy := evaluatePolicy dateParse
        (t.policyInput capability intent (state.executed.length + state.skipped.length))
      if policy.outcome ≠ .allow then t.refuse sha256 intent policy state
      else t.executeIntent sha256 intent state

/-! ### The loop -/

/-- No intent ended the loop. -/
def conclude (state : TaskState) : TaskReconciliationResult :=
  if state.executed.length = 0 ∧ state.errors.length > 0 then
    t.result sha256 .failed state "No execution intent completed."
  else if state.errors.length > 0 then
    t.result sha256 .completedWithErrors state "Task completed with errors."
  else t.result sha256 .completed state "Task completed."

def reconcileIntents : List ExecutionIntent → TaskState → TaskProg TaskReconciliationResult
  | [], state => .done (t.conclude sha256 state)
  | intent :: rest, state => do
      match ← t.reconcileIntent sha256 dateParse intent state with
      | .next state' => reconcileIntents rest state'
      | .finished result => return result

/-- A result for the artifact as a whole. -/
def refuseArtifact (status : ReconciliationStatus) (code message : String)
    (item : ObservationStatus) (finalMessage : String) : TaskReconciliationResult :=
  t.result sha256 status (TaskState.empty.note
    (structuredError code message t.now none (some t.taskId))
    (OpenLagrange.observation sha256 item message t.now none (some t.taskId) .undefined)) finalMessage

/-- The artifact is there and well formed. -/
def reconcileArtifact : TaskProg TaskReconciliationResult :=
  if t.artifact.capabilitySnapshotId ≠ t.capabilitySnapshot.snapshotId then
    .done (t.refuseArtifact sha256 .failed "SNAPSHOT_MISMATCH"
      "Artifact references a different capability snapshot" .error "Capability snapshot mismatch.")
  else if t.artifact.executionIntents.length = 0 then
    .done (t.refuseArtifact sha256 .yielded "YIELDED"
      (t.artifact.yieldReason.getD "No execution intent emitted") .skipped
      "The task yielded without execution.")
  else if t.artifact.executionIntents.length > t.input.bounds.maxExecutionIntentsPerTask then
    .done (t.refuseArtifact sha256 .failed "BUDGET_EXCEEDED" "Too many execution intents emitted"
      .error "Execution intent bound exceeded.")
  else t.reconcileIntents sha256 dateParse t.artifact.executionIntents .empty

end TaskSetting

/-- The status a task has while its capabilities are discovered. -/
def TaskReconcilerInput.startStatus (input : TaskReconcilerInput) (now : String) :
    TaskStatusSnapshot where
  projectId := input.parentProjectId
  taskId := input.scopedTask.taskId
  taskRunId := input.taskRunId
  status := .running
  observations := []
  errors := []
  finalMessage := "Discovering scoped capabilities."
  result := none
  updatedAt := now

/-- Reconcile a task from `now` on. -/
def taskReconciler (now : String) (rawInput : Except String TaskReconcilerInput) :
    TaskProg TaskReconciliationResult :=
  match rawInput with
  | .error message =>
      .done (failedTaskResult sha256 "unknown" "unknown" now none []
        [structuredError "INVALID_DELEGATION_CONTEXT" message now none none]
        "Task input was invalid.")
  | .ok input => do
      let _ ← Prog.perform (.recordStatus (input.startStatus now))
      let capabilitySnapshot ← Prog.perform (.discoverCapabilities input.delegation.workspaceId
        input.scopedTask input.delegation input.bounds.maxRiskWithoutApproval now)
      let artifactParsed : Except String CognitiveArtifact ← Prog.perform
        (TaskCall.generateTaskArtifact input.scopedTask input.delegation capabilitySnapshot)
      match artifactParsed with
      | .error message =>
          return taskResult sha256 .failed input capabilitySnapshot none (TaskState.empty.note
            (structuredError "INVALID_ARTIFACT" message now none (some input.scopedTask.taskId))
            (observation sha256 .error "Cognitive artifact failed validation" now none
              (some input.scopedTask.taskId) .undefined)) "The cognitive artifact was invalid." none
      | .ok artifact =>
          TaskSetting.reconcileArtifact sha256 dateParse ⟨input, now, capabilitySnapshot, artifact⟩

end Reconciler

end OpenLagrange
