/-
Requests for more scope.

A patch plan may ask for more files, capabilities, commands or risk than its work order has.
The request is completed with what it leaves out, and its digest is taken over what is asked
for: not over its status, its times and the id of its approval, which change afterwards.
-/
import OpenLagrange.Repository.PatchPlan

namespace OpenLagrange

/-- A request as it is kept. -/
structure PersistedScopeExpansionRequest where
  requestId : String
  planId : String
  nodeId : String
  workOrderId : String
  reason : String
  requestedFiles : Option (List String)
  requestedCapabilities : Option (List String)
  requestedVerificationCommands : Option (List String)
  requestedRiskLevel : Option RiskLevel
  evidenceRefs : List String
  latestFailureRefs : Option (List String)
  status : ScopeExpansionRequestStatus
  createdAt : String
  decidedAt : Option String
  approvalId : Option String
  deriving DecidableEq, Repr

/-- What is kept, read as a request. -/
def PersistedScopeExpansionRequest.toRequest (r : PersistedScopeExpansionRequest) :
    ScopeExpansionRequest where
  requestId := r.requestId
  planId := r.planId
  nodeId := r.nodeId
  workOrderId := some r.workOrderId
  reason := r.reason
  requestedFiles := r.requestedFiles
  requestedCapabilities := r.requestedCapabilities
  requestedVerificationCommands := r.requestedVerificationCommands
  requestedRiskLevel := r.requestedRiskLevel
  evidenceRefs := r.evidenceRefs
  latestFailureRefs := r.latestFailureRefs
  status := some r.status
  createdAt := some r.createdAt
  decidedAt := r.decidedAt
  approvalId := r.approvalId

/-- The lengths and formats are those of a request. -/
def PersistedScopeExpansionRequest.refined (isDatetime : String → Bool)
    (r : PersistedScopeExpansionRequest) : Bool := r.toRequest.refined isDatetime

/-- The request with what it leaves out; the schema may refuse the result. -/
def normalizeScopeExpansionRequest (isDatetime : String → Bool) (request : ScopeExpansionRequest)
    (planId nodeId workOrderId now : String) : Except String PersistedScopeExpansionRequest :=
  let normalized : PersistedScopeExpansionRequest :=
    { requestId := request.requestId
      planId
      nodeId
      workOrderId := request.workOrderId.getD workOrderId
      reason := request.reason
      requestedFiles := request.requestedFiles
      requestedCapabilities := request.requestedCapabilities
      requestedVerificationCommands := request.requestedVerificationCommands
      requestedRiskLevel := request.requestedRiskLevel
      evidenceRefs := request.evidenceRefs
      latestFailureRefs := request.latestFailureRefs
      status := request.status.getD .pendingApproval
      createdAt := request.createdAt.getD now
      decidedAt := request.decidedAt
      approvalId := request.approvalId }
  if normalized.refined isDatetime then .ok normalized
  else .error "Invalid PersistedScopeExpansionRequest"

/-- What the digest is taken over; an optional part that is missing is undefined. -/
def scopeExpansionContent (r : ScopeExpansionRequest) : Value :=
  .obj [("request_id", .str r.requestId), ("plan_id", .str r.planId), ("node_id", .str r.nodeId),
    ("work_order_id", r.workOrderId.elim .undefined .str), ("reason", .str r.reason),
    ("requested_files", strings (r.requestedFiles.getD [])),
    ("requested_capabilities", strings (r.requestedCapabilities.getD [])),
    ("requested_verification_commands", strings (r.requestedVerificationCommands.getD [])),
    ("requested_risk_level", r.requestedRiskLevel.elim .undefined fun risk => .str risk.text),
    ("evidence_refs", strings r.evidenceRefs),
    ("latest_failure_refs", strings (r.latestFailureRefs.getD []))]

def scopeExpansionRequestDigest (sha256 : String → String) (r : ScopeExpansionRequest) : String :=
  stableHash sha256 (scopeExpansionContent r)

def ScopeExpansionRequestStatus.decided : ScopeExpansionRequestStatus → Bool
  | .pendingApproval => false
  | _ => true

def markScopeExpansionRequest (request : PersistedScopeExpansionRequest)
    (status : ScopeExpansionRequestStatus) (now : String) : PersistedScopeExpansionRequest :=
  { request with
    status
    decidedAt := if status.decided then some (request.decidedAt.getD now) else request.decidedAt }

/-- `validateScopeExpansionRequest`: the request is for the active node, and refers to its evidence. -/
def validateScopeExpansionRequest (request : ScopeExpansionRequest) (planId nodeId : String)
    (evidenceRefs : List String) : Except String ScopeExpansionRequest :=
  if request.planId ≠ planId ∨ request.nodeId ≠ nodeId then
    .error "Scope expansion request does not match the active node."
  else
    match request.evidenceRefs.find? (· ∉ evidenceRefs) with
    | some ref => .error ("Unknown scope expansion evidence ref: " ++ ref)
    | none => .ok request

end OpenLagrange
