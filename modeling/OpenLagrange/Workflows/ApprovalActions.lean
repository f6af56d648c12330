/-
What an operator does with a task that waits for approval.

The request is looked up by the task, and the operator's token is checked if there is one.
Approving writes the decision and starts the continuation that was recorded for the request;
rejecting writes the decision and the status of the task.  Neither looks at what was decided
before.

The workflow engine answers a start with the id of a run, or it throws.
-/
import OpenLagrange.Storage.RecordStores

namespace OpenLagrange

structure ApprovalActionInput where
  taskId : String
  decidedBy : String
  reason : String
  approvalToken : Option String

structure ApprovalActionResult where
  decision : Option ApprovalDecision
  continuationRunId : Option String
  taskStatus : Option TaskStatusSnapshot

inductive ApprovalActionError where
  | invalidApprovalToken
  /-- A schema refuses the decision, or there is none to parse. -/
  | schema
  | engine

/-- A run of `taskContinuation`, or of `repositoryTaskContinuation`. -/
structure StartedContinuation where
  repository : Bool
  input : ApprovalContinuationInput
  deriving DecidableEq

/-- A backend, by what it does and answers. -/
abbrev StoreBackend (σ : Type) := σ → (op : StoreOp) → σ × op.Result

/-- The store, and what the engine was given to run. -/
structure ApprovalDesk (σ : Type) where
  store : σ
  started : List StartedContinuation

namespace ApprovalDesk

variable {σ : Type} (perform : StoreBackend σ) (verifyApprovalToken : String → String → String → Bool)
  (sha256 : String → String) (desk : ApprovalDesk σ)

/-! ### The store -/

def getApprovalDecision (approvalRequestId : String) : Option ApprovalDecision :=
  (perform desk.store (.getApprovalDecision approvalRequestId)).2

def getApprovalDecisionForTask (taskIdOrRunId : String) : Option ApprovalDecision :=
  (perform desk.store (.getApprovalDecisionForTask taskIdOrRunId)).2

def getApprovalContinuationEnvelope (approvalRequestId : String) :
    Option ApprovalContinuationEnvelope :=
  (perform desk.store (.getApprovalContinuationEnvelope approvalRequestId)).2

def getContinuationContext (approvalRequestId : String) : Option ApprovalContinuationContext :=
  (perform desk.store (.getContinuationContext approvalRequestId)).2

def getTaskStatus (taskIdOrRunId : String) : Option TaskStatusSnapshot :=
  let byRun : Option TaskStatusSnapshot := (perform desk.store (.getTaskStatus taskIdOrRunId)).2
  byRun.or (perform desk.store (.getTaskStatusByTaskId taskIdOrRunId)).2

def write (op : StoreOp) : ApprovalDesk σ := { desk with store := (perform desk.store op).1 }

def approveRequest (approvalRequestId approvedBy decidedAt reason : String) :
    Except SchemaError (Option ApprovalDecision) :=
  (perform desk.store (.approveRequest approvalRequestId approvedBy decidedAt reason)).2

def rejectRequest (approvalRequestId rejectedBy decidedAt reason : String) :
    Except SchemaError (Option ApprovalDecision) :=
  (perform desk.store (.rejectRequest approvalRequestId rejectedBy decidedAt reason)).2

/-! ### Approving -/

/-- `assertApprovalToken` throws: a token is given, and the request has no hash that it
verifies against. -/
def tokenRefused (decision : ApprovalDecision) (token : Option String) : Bool :=
  match token.filter (· ≠ "") with
  | none => false
  | some token =>
      match decision.approvalTokenHash.filter (· ≠ "") with
      | none => true
      | some hash => !verifyApprovalToken decision.approvalRequestId token hash

/-- The continuation that was recorded for a request: that of a repository patch if there is
one, or else that of the task. -/
def recordedContinuation (approvalRequestId : String) : Option StartedContinuation :=
  match (desk.getApprovalContinuationEnvelope perform approvalRequestId).filter
      (·.kind = "repository_patch") with
  | some envelope => some ⟨true, ⟨approvalRequestId, envelope.taskRunId⟩⟩
  | none =>
      (desk.getContinuationContext perform approvalRequestId).map fun context =>
        ⟨false, ⟨approvalRequestId, context.taskRunId⟩⟩

def approveTask (engine : StartedContinuation → Option String) (input : ApprovalActionInput)
    (now : String) : ApprovalDesk σ × Except ApprovalActionError ApprovalActionResult :=
  match desk.getApprovalDecisionForTask perform input.taskId with
  | none => (desk, .ok ⟨none, none, none⟩)
  | some existing =>
      if tokenRefused verifyApprovalToken existing input.approvalToken then
        (desk, .error .invalidApprovalToken)
      else
        let answer := desk.approveRequest perform existing.approvalRequestId input.decidedBy now
          input.reason
        let desk := desk.write perform
          (.approveRequest existing.approvalRequestId input.decidedBy now input.reason)
        match answer with
        | .error _ | .ok none => (desk, .error .schema)
        | .ok (some decision) =>
            match desk.recordedContinuation perform decision.approvalRequestId with
            | none =>
                (desk, .ok ⟨some decision, none, desk.getTaskStatus perform input.taskId⟩)
            | some continuation =>
                match engine continuation with
                | none => (desk, .error .engine)
                | some runId =>
                    ({ desk with started := desk.started ++ [continuation] },
                      .ok ⟨some decision, some runId, desk.getTaskStatus perform input.taskId⟩)

/-! ### Rejecting -/

/-- The status that a rejection leaves. -/
def rejectedStatus (projectId taskId taskRunId summary finalMessage now : String)
    (decision : ApprovalDecision) (intentId : String) : TaskStatusSnapshot where
  projectId
  taskId
  taskRunId
  status := .reconciled .yielded
  observations := [observation sha256 .skipped summary now (some intentId) (some taskId) .undefined]
  errors := [structuredError "YIELDED" (decision.reason.getD "Approval was rejected") now
    (some intentId) (some taskId)]
  finalMessage
  result := none
  updatedAt := now

def rejectTask (input : ApprovalActionInput) (now : String) :
    ApprovalDesk σ × Except ApprovalActionError ApprovalActionResult :=
  match desk.getApprovalDecisionForTask perform input.taskId with
  | none => (desk, .ok ⟨none, none, none⟩)
  | some existing =>
      if tokenRefused verifyApprovalToken existing input.approvalToken then
        (desk, .error .invalidApprovalToken)
      else
        let answer := desk.rejectRequest perform existing.approvalRequestId input.decidedBy now
          input.reason
        let desk := desk.write perform
          (.rejectRequest existing.approvalRequestId input.decidedBy now input.reason)
        match answer with
        | .error _ | .ok none => (desk, .error .schema)
        | .ok (some decision) =>
            let decidedAt := decision.decidedAt.getD now
            let context := desk.getContinuationContext perform decision.approvalRequestId
            let desk :=
              match (desk.getApprovalContinuationEnvelope perform decision.approvalRequestId).filter
                  (·.kind = "repository_patch") with
              | some envelope =>
                  desk.write perform (.recordTaskStatus (rejectedStatus sha256 envelope.projectId
                    "repository-task" envelope.taskRunId "Repository approval was rejected."
                    "Repository task yielded after rejection." decidedAt decision decision.intentId))
              | none =>
                  match context with
                  | some context =>
                      desk.write perform (.recordTaskStatus (rejectedStatus sha256
                        context.parentProjectId context.scopedTask.taskId context.taskRunId
                        "Approval was rejected." "Task yielded after rejection." decidedAt decision
                        context.intent.intentId))
                  | none => desk
            (desk, .ok ⟨some decision, none, desk.getTaskStatus perform input.taskId⟩)

/-! ### Sequences of calls -/

/-- The calls that concern approvals: those of the operators, and the tasks that ask for an
approval and leave the continuation. -/
inductive Action where
  | createApprovalRequest (request : ApprovalRequest)
  | recordContinuationContext (context : ApprovalContinuationContext)
  | recordApprovalContinuationEnvelope (envelope : ApprovalContinuationEnvelope)
  | approveTask (engine : StartedContinuation → Option String) (input : ApprovalActionInput)
      (now : String)
  | rejectTask (input : ApprovalActionInput) (now : String)

def step : Action → ApprovalDesk σ
  | .createApprovalRequest request => desk.write perform (.createApprovalRequest request)
  | .recordContinuationContext context => desk.write perform (.recordContinuationContext context)
  | .recordApprovalContinuationEnvelope envelope =>
      desk.write perform (.recordApprovalContinuationEnvelope envelope)
  | .approveTask engine input now =>
      (desk.approveTask perform verifyApprovalToken engine input now).1
  | .rejectTask input now => (desk.rejectTask perform verifyApprovalToken sha256 input now).1

def run (actions : List Action) (desk : ApprovalDesk σ) : ApprovalDesk σ :=
  actions.foldl (step perform verifyApprovalToken sha256) desk

end ApprovalDesk

end OpenLagrange
