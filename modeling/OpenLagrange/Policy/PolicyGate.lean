/-
The policy gate.

The gate asks its questions in a fixed order and answers with the first one that goes
against the capability: is there budget left, has the delegation expired, is the
capability allowed, is a scope denied, is there an idempotency key, is the risk within
bounds, does somebody have to approve.  Its report lists the rules that were passed.

Each question is a predicate of its own here, so that the answer is read off by cases.
`Date.parse` belongs to the language's runtime and is a parameter; a text that is no
date compares as neither before nor after.
-/
import OpenLagrange.Storage.StateStore

namespace OpenLagrange

structure ScopedTask where
  taskId : String
  title : String
  objective : String
  allowedScopes : List String
  allowedCapabilities : List String
  maxRiskLevel : RiskLevel

/-- The bounds that the gate and the task reconciler read. -/
structure ExecutionBounds where
  maxExecutionIntentsPerTask : Nat
  maxTotalEndpointAttempts : Nat
  maxRiskWithoutApproval : RiskLevel

def defaultExecutionBounds : ExecutionBounds where
  maxExecutionIntentsPerTask := 2
  maxTotalEndpointAttempts := 2
  maxRiskWithoutApproval := .read

structure ExecutionIntent where
  intentId : String
  snapshotId : String
  endpointId : String
  capabilityName : String
  capabilityDigest : String
  riskLevel : RiskLevel
  requiresApproval : Bool
  idempotencyKey : String
  arguments : List (String × Value)

structure PolicyGateInput where
  delegationContext : DelegationContext
  scopedTask : ScopedTask
  capability : SnapshotCapability
  /-- The side effect the capability declares, where it declares one. -/
  sideEffectKind : Option String
  intent : ExecutionIntent
  bounds : ExecutionBounds
  endpointAttemptsUsed : Nat
  now : String

inductive PolicyOutcome where
  | allow | deny | requiresApproval | yield
  deriving DecidableEq, Repr

def PolicyOutcome.text : PolicyOutcome → String
  | .allow => "allow"
  | .deny => "deny"
  | .requiresApproval => "requires_approval"
  | .yield => "yield"

structure PolicyGateResult where
  outcome : PolicyOutcome
  reason : String
  deriving DecidableEq, Repr

structure PolicyDecisionReport where
  decision : PolicyOutcome
  capabilityRef : String
  packId : String
  riskLevel : RiskLevel
  sideEffectKind : String
  principalId : String
  delegateId : String
  maxRiskLevel : RiskLevel
  allowedCapabilityCount : Nat
  deniedScopeCount : Nat
  matchedRules : List String
  missingScopes : List String
  requiredApprovals : List RiskLevel
  reason : String
  createdAt : String

/-- The characters that `trim` removes. -/
def isJsSpace (c : Char) : Bool :=
  c.toNat ∈ [0x09, 0x0A, 0x0B, 0x0C, 0x0D, 0x20, 0xA0, 0x1680, 0x2028, 0x2029, 0x202F, 0x205F,
    0x3000, 0xFEFF] ∨ (0x2000 ≤ c.toNat ∧ c.toNat ≤ 0x200A)

/-- The text is empty once it is trimmed. -/
def isBlank (text : String) : Bool := text.toList.all isJsSpace

namespace PolicyGateInput

variable (dateParse : String → Option Int) (input : PolicyGateInput)

/-! ### The questions -/

def capabilityRef : String := input.capability.endpointId ++ "." ++ input.capability.capabilityName

def budgetReached : Bool := input.bounds.maxTotalEndpointAttempts ≤ input.endpointAttemptsUsed

def expired : Bool :=
  match dateParse input.delegationContext.expiresAt, dateParse input.now with
  | some expiresAt, some now => expiresAt ≤ now
  | _, _ => false

/-- Either the delegation or the task names the capability. -/
def capabilityAllowed : Bool :=
  input.capability.capabilityName ∈ input.delegationContext.allowedCapabilities ∨
    input.capabilityRef ∈ input.delegationContext.allowedCapabilities ∨
    input.capability.capabilityName ∈ input.scopedTask.allowedCapabilities ∨
    input.capabilityRef ∈ input.scopedTask.allowedCapabilities

/-- The scopes of the task that the delegation denies. -/
def deniedScopes : List String :=
  input.scopedTask.allowedScopes.filter (· ∈ input.delegationContext.deniedScopes)

def riskExceeded : Bool :=
  input.delegationContext.maxRiskLevel.order < input.intent.riskLevel.order ∨
    input.scopedTask.maxRiskLevel.order < input.intent.riskLevel.order

def approvalRequired : Bool :=
  input.capability.requiresApproval ∨ input.intent.requiresApproval ∨
    input.intent.riskLevel ∈ input.delegationContext.approvalRequiredFor ∨
    input.bounds.maxRiskWithoutApproval.order < input.intent.riskLevel.order

/-! ### The answer -/

def report (result : PolicyGateResult) (matchedRules missingScopes : List String)
    (requiredApprovals : List RiskLevel) : PolicyDecisionReport where
  decision := result.outcome
  capabilityRef := input.capabilityRef
  packId := input.capability.endpointId
  riskLevel := input.intent.riskLevel
  sideEffectKind := input.sideEffectKind.getD "unknown"
  principalId := input.delegationContext.principalId
  delegateId := input.delegationContext.delegateId
  maxRiskLevel := input.delegationContext.maxRiskLevel
  allowedCapabilityCount := input.delegationContext.allowedCapabilities.length
  deniedScopeCount := input.delegationContext.deniedScopes.length
  matchedRules
  missingScopes
  requiredApprovals
  reason := result.reason
  createdAt := input.now

def finish (outcome : PolicyOutcome) (reason : String) (matchedRules : List String)
    (missingScopes : List String) (requiredApprovals : List RiskLevel) :
    PolicyGateResult × PolicyDecisionReport :=
  (⟨outcome, reason⟩, input.report ⟨outcome, reason⟩ matchedRules missingScopes requiredApprovals)

end PolicyGateInput

/-- The rules in the order they are passed. -/
def policyRules : List String :=
  ["endpoint_budget_available", "delegation_context_active", "capability_allowed",
    "scopes_not_denied", "idempotency_key_present", "risk_within_bounds", "approval_not_required"]

def evaluatePolicyWithReport (dateParse : String → Option Int) (input : PolicyGateInput) :
    PolicyGateResult × PolicyDecisionReport :=
  if input.budgetReached then
    input.finish .yield "Endpoint execution budget reached" [] [] []
  else if input.expired dateParse then
    input.finish .deny "Delegation context expired" (policyRules.take 1) [] []
  else if ¬ input.capabilityAllowed then
    input.finish .deny "Capability is outside delegated allowance" (policyRules.take 2) [] []
  else if input.deniedScopes ≠ [] then
    input.finish .deny "Task scope intersects denied scope" (policyRules.take 3) input.deniedScopes []
  else if isBlank input.intent.idempotencyKey then
    input.finish .deny "Missing idempotency key" (policyRules.take 4) [] []
  else if input.riskExceeded then
    input.finish .deny "Intent risk exceeds delegated risk" (policyRules.take 5) [] []
  else if input.approvalRequired then
    input.finish .requiresApproval "Intent requires approval" (policyRules.take 6) []
      [input.intent.riskLevel]
  else input.finish .allow "Policy gate allowed execution" policyRules [] []

def evaluatePolicy (dateParse : String → Option Int) (input : PolicyGateInput) : PolicyGateResult :=
  (evaluatePolicyWithReport dateParse input).1

/-! ### What the answers mean -/

variable {dateParse : String → Option Int} {input : PolicyGateInput}

/-- **The gate allows exactly what no question goes against.** -/
theorem evaluatePolicy_allow :
    (evaluatePolicy dateParse input).outcome = .allow ↔
      input.budgetReached = false ∧ input.expired dateParse = false ∧
        input.capabilityAllowed = true ∧ input.deniedScopes = [] ∧
        isBlank input.intent.idempotencyKey = false ∧ input.riskExceeded = false ∧
        input.approvalRequired = false := by
  unfold evaluatePolicy evaluatePolicyWithReport
  repeat' split
  all_goals simp_all [PolicyGateInput.finish]

/-- Beyond the decision and the rules, a report repeats what was asked. -/
theorem evaluatePolicyWithReport_report :
    ∃ result matchedRules missingScopes requiredApprovals,
      (evaluatePolicyWithReport dateParse input).2
        = input.report result matchedRules missingScopes requiredApprovals := by
  unfold evaluatePolicyWithReport
  repeat' split
  all_goals exact ⟨_, _, _, _, rfl⟩

end OpenLagrange
