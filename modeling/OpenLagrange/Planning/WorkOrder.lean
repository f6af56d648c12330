/-
Work orders: what a handler is given to work on a node.
-/
import OpenLagrange.Planning.Templates

namespace OpenLagrange

inductive ModelRoleHint where
  | planner | implementer | reviewer | repair | summarizer
  deriving DecidableEq, Repr

structure WorkOrder where
  workOrderId : String
  planId : String
  nodeId : String
  phase : String
  objective : String
  acceptanceCriteria : List String
  nonGoals : List String
  assumptions : List String
  constraints : List String
  allowedCapabilitySnapshot : CapabilitySnapshot
  inputArtifacts : List String
  requiredOutputSchema : Value
  relevantEvidence : List String
  latestFailures : List String
  maxAttempts : Nat
  modelRoleHint : ModelRoleHint

/-- `acceptance:<n>` names the n-th criterion of the goal; any other reference is itself. -/
def acceptanceForNode (plan : Planfile) (node : PlanNode) : List String :=
  if node.acceptanceRefs.length = 0 then plan.goalFrame.acceptanceCriteria
  else
    node.acceptanceRefs.map fun ref =>
      match (after "acceptance:".toList ref.toList).bind partIndex with
      | some (n + 1) => (plan.goalFrame.acceptanceCriteria[n]?).getD ref
      | _ => ref

def constraintsForNode (node : PlanNode) : List String :=
  ["risk_level:" ++ node.riskLevel.text,
    "approval_required:" ++ (if node.approvalRequired then "true" else "false")] ++
  node.allowedCapabilityRefs.map ("capability:" ++ ·) ++
  (node.verificationCommandIds.getD []).map ("verification_command:" ++ ·)

def filteredSnapshot (snapshot : CapabilitySnapshot) (refs : List String) : CapabilitySnapshot :=
  if refs.length = 0 then { snapshot with capabilities := [] }
  else
    { snapshot with
      capabilities := snapshot.capabilities.filter fun c =>
        c.capabilityName ∈ refs ∨ c.endpointId ++ "." ++ c.capabilityName ∈ refs ∨
          c.endpointId ++ "." ++ c.capabilityName ++ "@" ++ c.capabilityDigest ∈ refs }

def roleHint : PlanNodeKind → ModelRoleHint
  | .review => .reviewer
  | .repair => .repair
  | .finalize => .summarizer
  | .frame | .design | .analyze => .planner
  | _ => .implementer

def compileWorkOrder (P : Platform) (plan : Planfile) (nodeId : String)
    (snapshot : CapabilitySnapshot) : Except String WorkOrder :=
  match plan.node? nodeId with
  | none => .error ("Unknown plan node: " ++ nodeId)
  | some node =>
      .ok
        { workOrderId := "work_order_" ++ firstChars 18 (stableHash P.sha256 (.obj
            [("plan_id", .str plan.planId), ("node_id", .str node.id),
              ("status", .str node.status.text)]))
          planId := plan.planId
          nodeId := node.id
          phase := node.kind.text
          objective := node.objective
          acceptanceCriteria := acceptanceForNode plan node
          nonGoals := plan.goalFrame.nonGoals
          assumptions := plan.goalFrame.assumptions
          constraints := constraintsForNode node
          allowedCapabilitySnapshot := filteredSnapshot snapshot node.allowedCapabilityRefs
          inputArtifacts := (plan.nodes.filter (·.id ∈ node.dependsOn)).flatMap fun candidate =>
            candidate.artifacts.map (·.pathOrUri)
          requiredOutputSchema := .obj [("type", .str "object")]
          relevantEvidence := []
          latestFailures := node.errors
          maxAttempts := 1
          modelRoleHint := roleHint node.kind }

end OpenLagrange
