/-
The two backends for approvals, task statuses and node attempts.

In memory these are maps, read in the order in which their keys were first set; the attempts
of a run are a list, to whose end an attempt moves whenever it is recorded.  In SQLite they
are tables with the same keys, and what is looked up by anything but its key is read in the
order of `updated_at`.

The schemas of decisions are checked here, since approving and rejecting can run against
them.  The other records are handed over as their schemas let them through.
-/
import OpenLagrange.Lib.Table
import OpenLagrange.Reconciliation.Records
import OpenLagrange.Runs.RunControl

namespace OpenLagrange

/-! ### Records -/

structure ApprovalContinuationEnvelope where
  kind : String
  approvalRequest : ApprovalRequest
  projectId : String
  taskRunId : String
  traceId : String
  payload : Value

section Schemas

variable (isDatetime : String → Bool)

/-- A call that throws because a schema refuses a value; nothing is written then. -/
structure SchemaError where
  deriving DecidableEq

def ApprovalRequest.refined (request : ApprovalRequest) : Bool :=
  nonempty request.approvalRequestId && nonempty request.taskId && nonempty request.projectId
    && nonempty request.intentId && nonempty request.requestedCapability
    && nonempty request.taskRunId && isDatetime request.requestedAt && nonempty request.traceId

def ApprovalDecision.refined (decision : ApprovalDecision) : Bool :=
  nonempty decision.approvalRequestId && nonempty decision.taskId && nonempty decision.projectId
    && nonempty decision.intentId && nonempty decision.requestedCapability
    && isDatetime decision.requestedAt && decision.approvedBy.all nonempty
    && decision.rejectedBy.all nonempty && decision.decidedAt.all isDatetime
    && decision.approvalTokenHash.all nonempty && nonempty decision.traceId

/-- `ApprovalDecision.parse`. -/
def ApprovalDecision.parse (decision : ApprovalDecision) : Except SchemaError ApprovalDecision :=
  if decision.refined isDatetime then .ok decision else .error ⟨⟩

/-- The decision that a new request is recorded with. -/
def ApprovalRequest.parse (tokenHash : String → String) (request : ApprovalRequest) :
    Except SchemaError ApprovalDecision :=
  if request.refined isDatetime then (request.requested tokenHash).parse isDatetime else .error ⟨⟩

end Schemas

def ApprovalDecision.approve (approvedBy decidedAt reason : String) (existing : ApprovalDecision) :
    ApprovalDecision :=
  { existing with
    decision := .approved, decidedAt := some decidedAt, approvedBy := some approvedBy,
    reason := some reason }

def ApprovalDecision.reject (rejectedBy decidedAt reason : String) (existing : ApprovalDecision) :
    ApprovalDecision :=
  { existing with
    decision := .rejected, decidedAt := some decidedAt, rejectedBy := some rejectedBy,
    reason := some reason }

/-! ### Operations -/

inductive StoreOp where
  | createApprovalRequest (request : ApprovalRequest)
  | getApprovalDecision (approvalRequestId : String)
  | getApprovalDecisionForTask (taskIdOrRunId : String)
  | approveRequest (approvalRequestId approvedBy decidedAt reason : String)
  | rejectRequest (approvalRequestId rejectedBy decidedAt reason : String)
  | recordContinuationContext (context : ApprovalContinuationContext)
  | getContinuationContext (approvalRequestId : String)
  | recordApprovalContinuationEnvelope (envelope : ApprovalContinuationEnvelope)
  | getApprovalContinuationEnvelope (approvalRequestId : String)
  | recordTaskStatus (snapshot : TaskStatusSnapshot)
  | getTaskStatus (taskRunId : String)
  | getTaskStatusByTaskId (taskId : String)
  | listTaskStatusesForProject (projectId : String)
  | recordNodeAttempt (attempt : NodeAttempt)
  | listNodeAttempts (runId : String) (nodeId : Option String)

def StoreOp.Result : StoreOp → Type
  | .createApprovalRequest _ => Except SchemaError ApprovalDecision
  | .getApprovalDecision _ => Option ApprovalDecision
  | .getApprovalDecisionForTask _ => Option ApprovalDecision
  | .approveRequest .. => Except SchemaError (Option ApprovalDecision)
  | .rejectRequest .. => Except SchemaError (Option ApprovalDecision)
  | .recordContinuationContext _ => ApprovalContinuationContext
  | .getContinuationContext _ => Option ApprovalContinuationContext
  | .recordApprovalContinuationEnvelope _ => ApprovalContinuationEnvelope
  | .getApprovalContinuationEnvelope _ => Option ApprovalContinuationEnvelope
  | .recordTaskStatus _ => TaskStatusSnapshot
  | .getTaskStatus _ => Option TaskStatusSnapshot
  | .getTaskStatusByTaskId _ => Option TaskStatusSnapshot
  | .listTaskStatusesForProject _ => List TaskStatusSnapshot
  | .recordNodeAttempt _ => NodeAttempt
  | .listNodeAttempts .. => List NodeAttempt

/-- The empty node id counts as none. -/
def ofNode (nodeId : Option String) (id : String) : Bool :=
  (nodeId.filter (· ≠ "")).all (id = ·)

/-! ### The memory backend -/

structure MemoryStores where
  approvals : Table.Keyed ApprovalDecision.approvalRequestId
  continuations : Table.Keyed fun context : ApprovalContinuationContext =>
    context.approvalRequest.approvalRequestId
  continuationEnvelopes : Table.Keyed fun envelope : ApprovalContinuationEnvelope =>
    envelope.approvalRequest.approvalRequestId
  taskStatuses : Table.Keyed TaskStatusSnapshot.taskRunId
  attempts : String → List NodeAttempt

namespace MemoryStores

def empty : MemoryStores := ⟨.empty, .empty, .empty, .empty, fun _ => []⟩

variable (isDatetime : String → Bool) (tokenHash : String → String) (m : MemoryStores)

def createApprovalRequest (request : ApprovalRequest) :
    MemoryStores × Except SchemaError ApprovalDecision :=
  match request.parse isDatetime tokenHash with
  | .error e => (m, .error e)
  | .ok decision => ({ m with approvals := m.approvals.upsert decision }, .ok decision)

def getApprovalDecision (approvalRequestId : String) : Option ApprovalDecision :=
  m.approvals.get approvalRequestId

def getContinuationContext (approvalRequestId : String) : Option ApprovalContinuationContext :=
  m.continuations.get approvalRequestId

/-- The task is the request's, or the run is the one its continuation context names. -/
def ofTask (taskIdOrRunId : String) (decision : ApprovalDecision) : Bool :=
  decision.taskId = taskIdOrRunId ∨
    (m.getContinuationContext decision.approvalRequestId).map (·.taskRunId) = some taskIdOrRunId

def getApprovalDecisionForTask (taskIdOrRunId : String) : Option ApprovalDecision :=
  m.approvals.rows.find? (m.ofTask taskIdOrRunId)

/-- `approveRequest` and `rejectRequest`, but for what they decide. -/
def decideRequest (approvalRequestId : String) (verdict : ApprovalDecision → ApprovalDecision) :
    MemoryStores × Except SchemaError (Option ApprovalDecision) :=
  match m.getApprovalDecision approvalRequestId with
  | none => (m, .ok none)
  | some existing =>
      match (verdict existing).parse isDatetime with
      | .error e => (m, .error e)
      | .ok decision => ({ m with approvals := m.approvals.upsert decision }, .ok (some decision))

def approveRequest (approvalRequestId approvedBy decidedAt reason : String) :
    MemoryStores × Except SchemaError (Option ApprovalDecision) :=
  m.decideRequest isDatetime approvalRequestId (.approve approvedBy decidedAt reason)

def rejectRequest (approvalRequestId rejectedBy decidedAt reason : String) :
    MemoryStores × Except SchemaError (Option ApprovalDecision) :=
  m.decideRequest isDatetime approvalRequestId (.reject rejectedBy decidedAt reason)

def getTaskStatusByTaskId (taskId : String) : Option TaskStatusSnapshot :=
  m.taskStatuses.rows.find? fun status => status.taskId = taskId

def listTaskStatusesForProject (projectId : String) : List TaskStatusSnapshot :=
  m.taskStatuses.rows.filter fun status => status.projectId = projectId

def recordNodeAttempt (attempt : NodeAttempt) : MemoryStores :=
  { m with
    attempts := Function.update m.attempts attempt.runId
      ((m.attempts attempt.runId).filter (·.attemptId ≠ attempt.attemptId) ++ [attempt]) }

def listNodeAttempts (runId : String) (nodeId : Option String) : List NodeAttempt :=
  (m.attempts runId).filter fun attempt => ofNode nodeId attempt.nodeId

def perform : (op : StoreOp) → MemoryStores × op.Result
  | .createApprovalRequest request => m.createApprovalRequest isDatetime tokenHash request
  | .getApprovalDecision id => (m, m.getApprovalDecision id)
  | .getApprovalDecisionForTask id => (m, m.getApprovalDecisionForTask id)
  | .approveRequest id approvedBy decidedAt reason =>
      m.approveRequest isDatetime id approvedBy decidedAt reason
  | .rejectRequest id rejectedBy decidedAt reason =>
      m.rejectRequest isDatetime id rejectedBy decidedAt reason
  | .recordContinuationContext context =>
      ({ m with continuations := m.continuations.upsert context }, context)
  | .getContinuationContext id => (m, m.getContinuationContext id)
  | .recordApprovalContinuationEnvelope envelope =>
      ({ m with continuationEnvelopes := m.continuationEnvelopes.upsert envelope }, envelope)
  | .getApprovalContinuationEnvelope id => (m, m.continuationEnvelopes.get id)
  | .recordTaskStatus snapshot => ({ m with taskStatuses := m.taskStatuses.upsert snapshot }, snapshot)
  | .getTaskStatus id => (m, m.taskStatuses.get id)
  | .getTaskStatusByTaskId id => (m, m.getTaskStatusByTaskId id)
  | .listTaskStatusesForProject id => (m, m.listTaskStatusesForProject id)
  | .recordNodeAttempt attempt => (m.recordNodeAttempt attempt, attempt)
  | .listNodeAttempts runId nodeId => (m, m.listNodeAttempts runId nodeId)

end MemoryStores

/-! ### The SQLite backend -/

/-- A row of `approval_decisions`. -/
structure DecisionRow where
  approvalRequestId : String
  taskId : String
  taskRunId : String
  projectId : String
  decision : ApprovalDecision
  updatedAt : String

/-- A row of `continuation_contexts`. -/
structure ContextRow where
  approvalRequestId : String
  taskId : String
  taskRunId : String
  projectId : String
  context : ApprovalContinuationContext
  updatedAt : String

/-- A row of `approval_continuation_envelopes`. -/
structure EnvelopeRow where
  approvalRequestId : String
  kind : String
  taskRunId : String
  projectId : String
  envelope : ApprovalContinuationEnvelope
  updatedAt : String

/-- A row of `task_statuses`. -/
structure StatusRow where
  taskRunId : String
  taskId : String
  projectId : String
  snapshot : TaskStatusSnapshot
  updatedAt : String

/-- A row of `node_attempts`. -/
structure AttemptRow where
  attemptId : String
  runId : String
  nodeId : String
  record : NodeAttempt
  updatedAt : String

def ApprovalRequest.row (request : ApprovalRequest) (decision : ApprovalDecision)
    (updatedAt : String) : DecisionRow where
  approvalRequestId := request.approvalRequestId
  taskId := request.taskId
  taskRunId := request.taskRunId
  projectId := request.projectId
  decision
  updatedAt

def ApprovalContinuationContext.row (context : ApprovalContinuationContext) : ContextRow where
  approvalRequestId := context.approvalRequest.approvalRequestId
  taskId := context.scopedTask.taskId
  taskRunId := context.taskRunId
  projectId := context.parentProjectId
  context
  updatedAt := context.approvalRequest.requestedAt

def ApprovalContinuationEnvelope.row (envelope : ApprovalContinuationEnvelope) : EnvelopeRow where
  approvalRequestId := envelope.approvalRequest.approvalRequestId
  kind := envelope.kind
  taskRunId := envelope.taskRunId
  projectId := envelope.projectId
  envelope
  updatedAt := envelope.approvalRequest.requestedAt

def TaskStatusSnapshot.row (snapshot : TaskStatusSnapshot) : StatusRow where
  taskRunId := snapshot.taskRunId
  taskId := snapshot.taskId
  projectId := snapshot.projectId
  snapshot
  updatedAt := snapshot.updatedAt

def NodeAttempt.row (attempt : NodeAttempt) : AttemptRow where
  attemptId := attempt.attemptId
  runId := attempt.runId
  nodeId := attempt.nodeId
  record := attempt
  updatedAt := attempt.completedAt.getD attempt.startedAt

/-- How the database orders rows with the same `updated_at`, which the queries leave to it. -/
structure Database where
  decisions : Table.Sorter DecisionRow.updatedAt
  statuses : Table.Sorter StatusRow.updatedAt
  attempts : Table.Sorter AttemptRow.updatedAt

structure SqliteStores where
  decisions : Table.Keyed DecisionRow.approvalRequestId
  contexts : Table.Keyed ContextRow.approvalRequestId
  envelopes : Table.Keyed EnvelopeRow.approvalRequestId
  statuses : Table.Keyed StatusRow.taskRunId
  attempts : Table.Keyed AttemptRow.attemptId

namespace SqliteStores

def empty : SqliteStores := ⟨.empty, .empty, .empty, .empty, .empty⟩

variable (isDatetime : String → Bool) (tokenHash : String → String) (db : Database)
  (s : SqliteStores)

/-- `writeApproval`. -/
def writeApproval (request : ApprovalRequest) (decision : ApprovalDecision) (updatedAt : String) :
    SqliteStores :=
  { s with decisions := s.decisions.upsert (request.row decision updatedAt) }

/-- `writeApprovalDecision`: the columns of the request stay as they are. -/
def writeApprovalDecision (decision : ApprovalDecision) (updatedAt : String) : SqliteStores :=
  { s with
    decisions := s.decisions.update decision.approvalRequestId
      (fun row => { row with decision, updatedAt }) fun _ => rfl }

def createApprovalRequest (request : ApprovalRequest) :
    SqliteStores × Except SchemaError ApprovalDecision :=
  match request.parse isDatetime tokenHash with
  | .error e => (s, .error e)
  | .ok decision => (s.writeApproval request decision request.requestedAt, .ok decision)

def getApprovalDecision (approvalRequestId : String) : Option ApprovalDecision :=
  (s.decisions.get approvalRequestId).map (·.decision)

/-- `task_id = ? or task_run_id = ?`. -/
def ofTask (taskIdOrRunId : String) (row : DecisionRow) : Bool :=
  row.taskId = taskIdOrRunId ∨ row.taskRunId = taskIdOrRunId

def getApprovalDecisionForTask (taskIdOrRunId : String) : Option ApprovalDecision :=
  (db.decisions.latest (s.decisions.rows.filter (ofTask taskIdOrRunId))).map (·.decision)

/-- `approveRequest` and `rejectRequest`, but for what they decide. -/
def decideRequest (approvalRequestId decidedAt : String)
    (verdict : ApprovalDecision → ApprovalDecision) :
    SqliteStores × Except SchemaError (Option ApprovalDecision) :=
  match s.getApprovalDecision approvalRequestId with
  | none => (s, .ok none)
  | some existing =>
      match (verdict existing).parse isDatetime with
      | .error e => (s, .error e)
      | .ok decision => (s.writeApprovalDecision decision decidedAt, .ok (some decision))

def approveRequest (approvalRequestId approvedBy decidedAt reason : String) :
    SqliteStores × Except SchemaError (Option ApprovalDecision) :=
  s.decideRequest isDatetime approvalRequestId decidedAt (.approve approvedBy decidedAt reason)

def rejectRequest (approvalRequestId rejectedBy decidedAt reason : String) :
    SqliteStores × Except SchemaError (Option ApprovalDecision) :=
  s.decideRequest isDatetime approvalRequestId decidedAt (.reject rejectedBy decidedAt reason)

def getTaskStatusByTaskId (taskId : String) : Option TaskStatusSnapshot :=
  (db.statuses.latest (s.statuses.rows.filter fun row => row.taskId = taskId)).map (·.snapshot)

def listTaskStatusesForProject (projectId : String) : List TaskStatusSnapshot :=
  (db.statuses.ascending (s.statuses.rows.filter fun row => row.projectId = projectId)).map
    (·.snapshot)

def listNodeAttempts (runId : String) (nodeId : Option String) : List NodeAttempt :=
  (db.attempts.ascending (s.attempts.rows.filter fun row =>
    row.runId = runId && ofNode nodeId row.nodeId)).map (·.record)

def perform : (op : StoreOp) → SqliteStores × op.Result
  | .createApprovalRequest request => s.createApprovalRequest isDatetime tokenHash request
  | .getApprovalDecision id => (s, s.getApprovalDecision id)
  | .getApprovalDecisionForTask id => (s, s.getApprovalDecisionForTask db id)
  | .approveRequest id approvedBy decidedAt reason =>
      s.approveRequest isDatetime id approvedBy decidedAt reason
  | .rejectRequest id rejectedBy decidedAt reason =>
      s.rejectRequest isDatetime id rejectedBy decidedAt reason
  | .recordContinuationContext context =>
      ({ s with contexts := s.contexts.upsert context.row }, context)
  | .getContinuationContext id => (s, (s.contexts.get id).map (·.context))
  | .recordApprovalContinuationEnvelope envelope =>
      ({ s with envelopes := s.envelopes.upsert envelope.row }, envelope)
  | .getApprovalContinuationEnvelope id => (s, (s.envelopes.get id).map (·.envelope))
  | .recordTaskStatus snapshot => ({ s with statuses := s.statuses.upsert snapshot.row }, snapshot)
  | .getTaskStatus id => (s, (s.statuses.get id).map (·.snapshot))
  | .getTaskStatusByTaskId id => (s, s.getTaskStatusByTaskId db id)
  | .listTaskStatusesForProject id => (s, s.listTaskStatusesForProject db id)
  | .recordNodeAttempt attempt => ({ s with attempts := s.attempts.upsert attempt.row }, attempt)
  | .listNodeAttempts runId nodeId => (s, s.listNodeAttempts db runId nodeId)

end SqliteStores

end OpenLagrange
