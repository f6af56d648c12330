/-
Approvals of more scope, and what a resume reads of them.

A request for more scope is put before an operator as an approval request, and its content is
kept in the envelope of that approval, with the digest of it.  A resume takes the first request
of the status that may be resumed, and goes on only if the approval is granted and the digest of
what the status lists is the one in the envelope.

The status of a plan is one file.  What a file holds is a status as its schema reads it, or it
cannot be read.
-/
import OpenLagrange.Repository.RepositoryStatus
import OpenLagrange.Workflows.ApprovalActions

namespace OpenLagrange

/-! ### The payload of an envelope -/

def ScopeExpansionRequestStatus.text : ScopeExpansionRequestStatus → String
  | .pendingApproval => "pending_approval"
  | .approved => "approved"
  | .rejected => "rejected"
  | .expired => "expired"
  | .applied => "applied"

structure ScopeExpansionApprovalPayload where
  request : PersistedScopeExpansionRequest
  requestDigest : String
  requestedFiles : List String
  requestedCapabilities : List String
  requestedVerificationCommands : List String
  deriving DecidableEq

/-- The properties of a kept request; the optional ones that are missing are left out. -/
def PersistedScopeExpansionRequest.fields (r : PersistedScopeExpansionRequest) :
    List (String × Option Value) :=
  [("request_id", some (.str r.requestId)), ("plan_id", some (.str r.planId)),
    ("node_id", some (.str r.nodeId)), ("work_order_id", some (.str r.workOrderId)),
    ("reason", some (.str r.reason)), ("requested_files", r.requestedFiles.map strings),
    ("requested_capabilities", r.requestedCapabilities.map strings),
    ("requested_verification_commands", r.requestedVerificationCommands.map strings),
    ("requested_risk_level", r.requestedRiskLevel.map fun risk => .str risk.text),
    ("evidence_refs", some (strings r.evidenceRefs)),
    ("latest_failure_refs", r.latestFailureRefs.map strings),
    ("status", some (.str r.status.text)), ("created_at", some (.str r.createdAt)),
    ("decided_at", r.decidedAt.map .str), ("approval_id", r.approvalId.map .str)]

def ScopeExpansionApprovalPayload.fields (p : ScopeExpansionApprovalPayload) :
    List (String × Option Value) :=
  [("request", some (stripUndefined p.request.fields)),
    ("request_digest", some (.str p.requestDigest)),
    ("requested_files", some (strings p.requestedFiles)),
    ("requested_capabilities", some (strings p.requestedCapabilities)),
    ("requested_verification_commands", some (strings p.requestedVerificationCommands))]

def ScopeExpansionApprovalPayload.value (p : ScopeExpansionApprovalPayload) : Value :=
  stripUndefined p.fields

def ScopeExpansionApprovalPayload.refined (isDatetime : String → Bool)
    (p : ScopeExpansionApprovalPayload) : Bool :=
  p.request.refined isDatetime && isSha256Hex p.requestDigest

/-! ### Reading it back -/

/-- The property of an object, if it has it. -/
def ownProperty (fields : List (String × Value)) (name : String) : Option Value :=
  (fields.find? fun field => field.1 = name).map (·.2)

def readText : Value → Option String
  | .str s => some s
  | _ => none

def readTexts : Value → Option (List String)
  | .arr items => items.mapM readText
  | _ => none

/-- One of the values of an enumeration, by its text. -/
def readEnum {α : Type} (text : α → String) (all : List α) (v : Value) : Option α :=
  (readText v).bind fun s => all.find? fun a => text a = s

/-- A property that has to be there. -/
def readRequired {α : Type} (read : Value → Option α) (fields : List (String × Value))
    (name : String) : Option α :=
  (ownProperty fields name).bind read

/-- A property that may be missing. -/
def readOptional {α : Type} (read : Value → Option α) (fields : List (String × Value))
    (name : String) : Option (Option α) :=
  match ownProperty fields name with
  | none => some none
  | some v => (read v).map some

/-- The properties of an object that has no others than these. -/
def readStrict (names : List String) : Value → Option (List (String × Value))
  | .obj fields => if fields.all fun field => field.1 ∈ names then some fields else none
  | _ => none

def RiskLevel.all : List RiskLevel := [.read, .write, .destructive, .externalSideEffect]

def ScopeExpansionRequestStatus.all : List ScopeExpansionRequestStatus :=
  [.pendingApproval, .approved, .rejected, .expired, .applied]

def persistedScopeExpansionRequestNames : List String :=
  ["request_id", "plan_id", "node_id", "work_order_id", "reason", "requested_files",
    "requested_capabilities", "requested_verification_commands", "requested_risk_level",
    "evidence_refs", "latest_failure_refs", "status", "created_at", "decided_at", "approval_id"]

def PersistedScopeExpansionRequest.read (v : Value) : Option PersistedScopeExpansionRequest := do
  let fields ← readStrict persistedScopeExpansionRequestNames v
  let requestId ← readRequired readText fields "request_id"
  let planId ← readRequired readText fields "plan_id"
  let nodeId ← readRequired readText fields "node_id"
  let workOrderId ← readRequired readText fields "work_order_id"
  let reason ← readRequired readText fields "reason"
  let requestedFiles ← readOptional readTexts fields "requested_files"
  let requestedCapabilities ← readOptional readTexts fields "requested_capabilities"
  let requestedVerificationCommands ←
    readOptional readTexts fields "requested_verification_commands"
  let requestedRiskLevel ←
    readOptional (readEnum RiskLevel.text RiskLevel.all) fields "requested_risk_level"
  let evidenceRefs ← readRequired readTexts fields "evidence_refs"
  let latestFailureRefs ← readOptional readTexts fields "latest_failure_refs"
  let status ← readRequired
    (readEnum ScopeExpansionRequestStatus.text ScopeExpansionRequestStatus.all) fields "status"
  let createdAt ← readRequired readText fields "created_at"
  let decidedAt ← readOptional readText fields "decided_at"
  let approvalId ← readOptional readText fields "approval_id"
  some ⟨requestId, planId, nodeId, workOrderId, reason, requestedFiles, requestedCapabilities,
    requestedVerificationCommands, requestedRiskLevel, evidenceRefs, latestFailureRefs, status,
    createdAt, decidedAt, approvalId⟩

def ScopeExpansionApprovalPayload.read (v : Value) : Option ScopeExpansionApprovalPayload := do
  let fields ← readStrict ["request", "request_digest", "requested_files",
    "requested_capabilities", "requested_verification_commands"] v
  let request ← readRequired PersistedScopeExpansionRequest.read fields "request"
  let requestDigest ← readRequired readText fields "request_digest"
  let requestedFiles ← readRequired readTexts fields "requested_files"
  let requestedCapabilities ← readRequired readTexts fields "requested_capabilities"
  let requestedVerificationCommands ←
    readRequired readTexts fields "requested_verification_commands"
  some ⟨request, requestDigest, requestedFiles, requestedCapabilities,
    requestedVerificationCommands⟩

/-- `ScopeExpansionApprovalPayload.parse`. -/
def ScopeExpansionApprovalPayload.parse (isDatetime : String → Bool) (v : Value) :
    Except String ScopeExpansionApprovalPayload :=
  match (ScopeExpansionApprovalPayload.read v).filter (·.refined isDatetime) with
  | some payload => .ok payload
  | none => .error "Invalid ScopeExpansionApprovalPayload"

/-! ### Asking for an approval -/

section Asking

variable (sha256 : String → String) (request : PersistedScopeExpansionRequest)

def listedOrNone (items : Option (List String)) : String :=
  let text := ", ".intercalate (items.getD [])
  if text = "" then "none" else text

def scopeExpansionPrompt (digest : String) : String :=
  "\n".intercalate
    [request.reason,
      "Node: " ++ request.nodeId,
      "Requested files: " ++ listedOrNone request.requestedFiles,
      "Requested capabilities: " ++ listedOrNone request.requestedCapabilities,
      "Requested verification commands: " ++ listedOrNone request.requestedVerificationCommands,
      "Requested risk: " ++ (request.requestedRiskLevel.getD .write).text,
      "Evidence refs: " ++ ", ".intercalate request.evidenceRefs,
      "Request digest: " ++ digest]

/-- What is put before the operator. -/
def scopeApprovalRequest (now : String) : ApprovalRequest where
  approvalRequestId := request.requestId
  taskId := request.nodeId
  projectId := request.planId
  intentId := "scope_expansion_" ++ request.requestId
  requestedRiskLevel := request.requestedRiskLevel.getD .write
  requestedCapability := "repo.scope_expansion"
  taskRunId := request.planId
  requestedAt := now
  prompt := scopeExpansionPrompt request (scopeExpansionRequestDigest sha256 request.toRequest)
  traceId := "trace_" ++ request.planId

/-- What is kept with it. -/
def scopeApprovalPayload : ScopeExpansionApprovalPayload where
  request := { request with approvalId := some request.requestId }
  requestDigest := scopeExpansionRequestDigest sha256 request.toRequest
  requestedFiles := request.requestedFiles.getD []
  requestedCapabilities := request.requestedCapabilities.getD []
  requestedVerificationCommands := request.requestedVerificationCommands.getD []

def scopeEnvelope (now : String) : ApprovalContinuationEnvelope where
  kind := "scope_expansion"
  approvalRequest := scopeApprovalRequest sha256 request now
  projectId := request.planId
  taskRunId := request.planId
  traceId := "trace_" ++ request.planId
  payload := (scopeApprovalPayload sha256 request).value

end Asking

/-! ### The request that a resume is for -/

/-- What reading the file of a status comes to; there may be none. -/
abbrev StatusFile := Except String (Option RepositoryPlanStatus)

structure ScopeExpansionResumeContext where
  planfile : Planfile
  status : RepositoryPlanStatus
  request : PersistedScopeExpansionRequest
  requestedFiles : List String
  requestedCapabilities : List String
  requestedVerificationCommands : List String

/-- Not applied yet, and waiting for its approval or approved. -/
def RepositoryScopeExpansionStatus.resumable (item : RepositoryScopeExpansionStatus) : Bool :=
  item.request.status ≠ .applied &&
    (item.request.status = .pendingApproval || item.approvalStatus = .approved)

section Loading

variable {σ : Type} (perform : StoreBackend σ) (isDatetime : String → Bool)
  (sha256 : String → String) (store : σ)

def approvalDecisionOf (id : String) : Option ApprovalDecision :=
  (perform store (.getApprovalDecision id)).2

def approvalEnvelopeOf (id : String) : Option ApprovalContinuationEnvelope :=
  (perform store (.getApprovalContinuationEnvelope id)).2

/-- The envelope of a scope request. -/
def scopeEnvelopeOf (id : String) : Option ApprovalContinuationEnvelope :=
  (approvalEnvelopeOf perform store id).filter (·.kind = "scope_expansion")

/-- The decision on a request has to be an approval. -/
def assertApproved (id : String) : Except String Unit :=
  match approvalDecisionOf perform store id with
  | none => .error ("Approval decision is missing for " ++ id ++ ".")
  | some decision =>
      match decision.decision with
      | .rejected =>
          .error ("Scope expansion was rejected: " ++ decision.reason.getD "no reason provided")
      | .requested => .error ("Scope expansion is still waiting for approval: " ++ id ++ ".")
      | .approved => .ok ()

/-- `executionCopy` is what reading the copy of the plan under a repository comes to. -/
def loadApprovedScopeExpansionForResume (file : StatusFile)
    (executionCopy : String → String → Except String Planfile) (planId : String) :
    Except String ScopeExpansionResumeContext :=
  match file with
  | .error message => .error message
  | .ok none => .error ("Repository plan status was not found for " ++ planId ++ ".")
  | .ok (some status) =>
      match status.worktreeSession with
      | none => .error "Repository plan has no worktree session to resume."
      | some session =>
          match status.scopeExpansionRequests.find? (·.resumable) with
          | none => .error "No pending scope expansion request is available to resume."
          | some pending =>
              match scopeEnvelopeOf perform store pending.approvalRequestId with
              | none =>
                  .error ("Approval continuation is missing for " ++ pending.approvalRequestId ++
                    ".")
              | some envelope => do
                  let payload ← ScopeExpansionApprovalPayload.parse isDatetime envelope.payload
                  assertApproved perform store pending.approvalRequestId
                  if scopeExpansionRequestDigest sha256 pending.request.toRequest
                      ≠ payload.requestDigest then
                    .error "Scope expansion approval does not match the current request digest."
                  else do
                    let planfile ← executionCopy session.repoRoot planId
                    .ok ⟨planfile, status, pending.request, payload.requestedFiles,
                      payload.requestedCapabilities, payload.requestedVerificationCommands⟩

end Loading

/-! ### Marking a request in the status -/

def scopeMarked (requestId : String) (approved : Bool) (now : String)
    (item : RepositoryScopeExpansionStatus) : RepositoryScopeExpansionStatus :=
  if item.approvalRequestId = requestId ∨ item.request.requestId = requestId then
    { item with
      approvalStatus := if approved then .approved else .rejected
      resumeStatus := some (if approved then .ready else .blocked)
      request := markScopeExpansionRequest item.request (if approved then .approved else .rejected)
        now }
  else item

/-- The status that `updateScopeStatus` writes. -/
def RepositoryPlanStatus.markScope (status : RepositoryPlanStatus) (requestId : String)
    (approved : Bool) (now : String) : RepositoryPlanStatus :=
  { status with
    scopeExpansionRequests := status.scopeExpansionRequests.map (scopeMarked requestId approved now)
    updatedAt := now }

def scopeApplied (requestId now : String) (item : RepositoryScopeExpansionStatus) :
    RepositoryScopeExpansionStatus :=
  if item.request.requestId = requestId then
    { item with
      request := markScopeExpansionRequest item.request .applied now
      approvalStatus := .approved
      resumeStatus := some .applied }
  else item

/-- The status that `markScopeExpansionApplied` writes. -/
def RepositoryPlanStatus.applyScope (status : RepositoryPlanStatus) (requestId now : String) :
    RepositoryPlanStatus :=
  { status with
    scopeExpansionRequests := status.scopeExpansionRequests.map (scopeApplied requestId now)
    updatedAt := now }

end OpenLagrange
