/-
The continuation of a task that stopped for an approval.

It loads the context the reconciler left and the decision that was taken, validates the
intent once more and executes it.  Its result is about this one intent.

A task as a whole is its reconciler, and its continuation where it stopped for approval.
The children are served by a world that keeps the requests and the contexts; what becomes
of a request, what a child answers otherwise, and whether it throws, is up to `TaskEnv` and
may differ from moment to moment.
-/
import OpenLagrange.Workflows.TaskReconciler

namespace OpenLagrange

section Continuation

variable (sha256 : String → String) (dateParse : String → Option Int)

def resultFromContext (status : ReconciliationStatus) (context : ApprovalContinuationContext)
    (observations : List Observation) (errors : List StructuredError) (finalMessage : String) :
    TaskReconciliationResult where
  reconciliationId := deterministicReconciliationId sha256 (.obj
    [("task_id", .str context.scopedTask.taskId), ("status", .str status.text),
      ("errors", .arr (errors.map (·.toValue)))])
  taskId := context.scopedTask.taskId
  taskRunId := context.taskRunId
  status
  capabilitySnapshot := context.capabilitySnapshot
  artifact := some context.artifact
  executedIntents := if status = .completed then [context.intent] else []
  skippedIntents := if status = .completed then [] else [context.intent]
  observations
  errors
  finalMessage
  approvalRequest := some context.approvalRequest

def missingContextResult (taskRunId now : String) : TaskReconciliationResult :=
  let item := structuredError "INVALID_ARTIFACT" "Approval continuation context was not found" now
    none none
  { reconciliationId := deterministicReconciliationId sha256 (.obj
      [("taskRunId", .str taskRunId), ("errors", .arr [item.toValue])])
    taskId := "unknown"
    taskRunId
    status := .failed
    capabilitySnapshot := ⟨"caps_missing", now, String.ofList (List.replicate 64 '0'), []⟩
    artifact := none
    executedIntents := []
    skippedIntents := []
    observations := []
    errors := [item]
    finalMessage := "Approval continuation context was not found."
    approvalRequest := none }

def recordAndReturn (result : TaskReconciliationResult) (now : String) :
    TaskProg TaskReconciliationResult := do
  let _ ← Prog.perform (TaskCall.recordStatus
    { projectId := result.approvalRequest.elim result.taskId (·.projectId)
      taskId := result.taskId
      taskRunId := result.taskRunId
      status := .reconciled result.status
      observations := result.observations
      errors := result.errors
      finalMessage := result.finalMessage
      result := some result
      updatedAt := now })
  return result

namespace ApprovalContinuationContext

variable (context : ApprovalContinuationContext)

/-- What the continuation puts to the gate: no attempt counts against the budget. -/
def policyInput (capability : SnapshotCapability) (now : String) : PolicyGateInput where
  delegationContext := context.delegationContext
  scopedTask := context.scopedTask
  capability
  sideEffectKind := none
  intent := context.intent
  bounds := context.bounds
  endpointAttemptsUsed := 0
  now

def executeInput : ExecuteMcpIntentInput where
  endpointId := context.intent.endpointId
  capabilityName := context.intent.capabilityName
  arguments := context.intent.arguments
  idempotencyKey := context.intent.idempotencyKey
  delegationContext := context.delegationContext
  capabilitySnapshotId := context.capabilitySnapshot.snapshotId
  childKey := context.taskRunId ++ ":approved-execute:" ++ context.intent.idempotencyKey
  intentId := context.intent.intentId

def error (code message now : String) : StructuredError :=
  structuredError code message now (some context.intent.intentId) (some context.scopedTask.taskId)

/-- End without an execution. -/
def stop (status : ReconciliationStatus) (error : StructuredError) (finalMessage now : String) :
    TaskProg TaskReconciliationResult :=
  recordAndReturn (resultFromContext sha256 status context [] [error] finalMessage) now

/-- The intent was executed: the critic has the last word. -/
def criticize (message : String) (result : Value) (now : String) :
    TaskProg TaskReconciliationResult := do
  let observations := [outputObservation sha256 .recorded message now context.scopedTask.taskId
    context.intent.intentId result]
  let critic ← Prog.perform (TaskCall.runCritic context.scopedTask result)
  if critic.outcome ≠ .pass then
    let code := if critic.outcome = .revise then "REVISION_UNSUPPORTED" else "YIELDED"
    recordAndReturn (resultFromContext sha256 .yielded context observations
      [context.error code critic.summary now] "Approved task yielded after critic review.") now
  else
    recordAndReturn (resultFromContext sha256 .completed context observations []
      "Approved task completed.") now

/-- Execute the approved intent. -/
def executeIntent (now : String) : TaskProg TaskReconciliationResult := do
  let output : ExecuteMcpIntentOutput ←
    Prog.perform (TaskCall.executeMcpIntent context.executeInput)
  match output with
  | .error message =>
      context.stop sha256 .failed (context.error "MCP_EXECUTION_FAILED" message now)
        "Approved endpoint execution failed." now
  | .ok message result => context.criticize sha256 message result now

/-- Take the intent up with the decision that was loaded. -/
def continueWith (input : ApprovalContinuationInput) (decision : ApprovalDecision) (now : String) :
    TaskProg TaskReconciliationResult :=
  if context.taskRunId ≠ input.taskRunId ∨
      context.approvalRequest.approvalRequestId ≠ input.approvalRequestId then
    context.stop sha256 .failed (structuredError "INVALID_ARTIFACT"
      "Approval continuation context does not match input" now none (some context.scopedTask.taskId))
      "Approval continuation context did not match." now
  else if decision.decision ≠ .approved then
    context.stop sha256 .yielded (context.error "YIELDED"
      (decision.reason.getD "Approval was not granted") now) "Task yielded after rejection." now
  else
    match validateIntentForSnapshot context.intent context.capabilitySnapshot
        context.scopedTask.taskId now with
    | .error e => context.stop sha256 .failed e "Approved intent no longer validates." now
    | .ok capability =>
        let policy := evaluatePolicy dateParse (context.policyInput capability now)
        match policy.outcome with
        | .yield =>
            context.stop sha256 .yielded (context.error "YIELDED" policy.reason now)
              "Approved intent failed policy validation." now
        | .deny =>
            context.stop sha256 .failed (context.error "POLICY_DENIED" policy.reason now)
              "Approved intent failed policy validation." now
        | _ => context.executeIntent sha256 now

end ApprovalContinuationContext

/-- Continue a task from `now` on. -/
def taskContinuation (now : String) (input : ApprovalContinuationInput) :
    TaskProg TaskReconciliationResult := do
  let loaded : LoadApprovalContinuationOutput ←
    Prog.perform (TaskCall.loadApprovalContinuation input)
  match loaded.context, loaded.decision with
  | some context, some decision => context.continueWith sha256 dateParse input decision now
  | _, _ => return missingContextResult sha256 input.taskRunId now

/-! ### A task as a whole -/

/-- The reconciler, and, where it stopped for approval, the continuation at a later time. -/
def runTask (now later : String) (rawInput : Except String TaskReconcilerInput) :
    TaskProg (TaskReconciliationResult × Option TaskReconciliationResult) := do
  let result ← taskReconciler sha256 dateParse now rawInput
  match result.approvalRequest with
  | none => return (result, none)
  | some request =>
      let continued ← taskContinuation sha256 dateParse later
        ⟨request.approvalRequestId, result.taskRunId⟩
      return (result, some continued)

end Continuation

/-! ### The world the children are served by -/

/-- What is not the program's to decide, at every moment. -/
structure TaskEnv where
  throws : Nat → Option String
  snapshot : Nat → CapabilitySnapshot
  artifact : Nat → Except String CognitiveArtifact
  endpoint : Nat → ExecuteMcpIntentOutput
  critic : Nat → CriticResult
  tokenHash : String → String
  /-- What has become of a request by then. -/
  decide : Nat → ApprovalDecision → ApprovalDecision

structure TaskWorld where
  decisions : String → Option ApprovalDecision
  contexts : String → Option ApprovalContinuationContext
  /-- How many calls were made. -/
  tick : Nat

def TaskWorld.next (w : TaskWorld) : TaskWorld := { w with tick := w.tick + 1 }

def TaskWorld.setDecision (w : TaskWorld) (decision : ApprovalDecision) : TaskWorld :=
  { w with decisions := Function.update w.decisions decision.approvalRequestId (some decision) }

def TaskWorld.setContext (w : TaskWorld) (context : ApprovalContinuationContext) : TaskWorld :=
  let id := context.approvalRequest.approvalRequestId
  { w with contexts := Function.update w.contexts id (some context) }

/-- A world at its beginning. -/
def TaskWorld.empty : TaskWorld := ⟨fun _ => none, fun _ => none, 0⟩

def serveTask (env : TaskEnv) (w : TaskWorld) : (call : TaskCall) → call.Answer × TaskWorld
  | .recordStatus _ => ((), w)
  | .discoverCapabilities _ _ _ _ _ => (env.snapshot w.tick, w)
  | .generateTaskArtifact _ _ _ => (env.artifact w.tick, w)
  | .createApprovalRequest request => ((), w.setDecision (request.requested env.tokenHash))
  | .recordContinuationContext context => ((), w.setContext context)
  | .loadApprovalContinuation input =>
      (⟨(w.decisions input.approvalRequestId).map (env.decide w.tick),
        w.contexts input.approvalRequestId⟩, w)
  | .executeMcpIntent _ => (env.endpoint w.tick, w)
  | .runCritic _ _ => (env.critic w.tick, w)

def taskHandle (env : TaskEnv) : Prog.Handler TaskCall TaskCall.Answer TaskWorld := fun call w =>
  match env.throws w.tick with
  | some message => (.error message, w.next)
  | none =>
      let (answer, w') := serveTask env w call
      (.ok answer, w'.next)

end OpenLagrange
