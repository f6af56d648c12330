/-
Planfile validation.

A Planfile may be executed when every check below stays silent.  The checks run in
the order of the source, and each issue names the check, the node and the field it
is about.  Two of them are searches over the dependency graph: `hasCycle` follows
the dependencies depth first, and `unreachableNodes` follows them backwards from
the frame nodes.
-/
import OpenLagrange.Lib.Dfs
import OpenLagrange.Platform

namespace OpenLagrange

inductive PlanIssueCode where
  | invalidSchema | invalidPlan | invalidNodeId | duplicateNodeId | missingDependency
  | cycleDetected | unreachableNode | unknownCapability | approvalRequired
  | unknownVerificationCommand | patchAcceptanceMissing | destructiveGoalNotExplicit
  deriving DecidableEq, Repr

inductive PlanIssueSeverity where
  | error | warning
  deriving DecidableEq, Repr

structure PlanValidationIssue where
  code : PlanIssueCode
  message : String
  severity : PlanIssueSeverity
  path : List PathItem
  deriving DecidableEq, Repr

structure PlanValidationResult where
  ok : Bool
  issues : List PlanValidationIssue
  deriving DecidableEq, Repr

/-- An issue of severity `error` at a path of names. -/
def planIssue (code : PlanIssueCode) (message : String) (path : List String) :
    PlanValidationIssue :=
  ⟨code, message, .error, path.map .key⟩

/-- `/^[a-z][a-z0-9_-]{1,63}$/`. -/
def safeNodeId (id : String) : Bool :=
  match id.toList with
  | [] => false
  | c :: rest =>
      (('a' ≤ c ∧ c ≤ 'z') : Bool) && (1 ≤ rest.length ∧ rest.length ≤ 63 : Bool) &&
        rest.all fun c => ('a' ≤ c ∧ c ≤ 'z') ∨ ('0' ≤ c ∧ c ≤ '9') ∨ c = '_' ∨ c = '-'

def writeRisks : List RiskLevel := [.write, .destructive, .externalSideEffect]

/-- The node a `Map` keyed by id answers with: the last one listed under the id. -/
def byId (nodes : List PlanNode) (id : String) : Option PlanNode :=
  nodes.reverse.find? fun node => node.id = id

/-- Whether following dependencies ever comes back to a node on the way. -/
def hasCycle (nodes : List PlanNode) : Bool :=
  match Dfs.visitAll (Dfs.visit (fun id => (byId nodes id).map (·.dependsOn)) (nodes.length + 1))
      (nodes.map (·.id)) ⟨[], []⟩ with
  | some (found, _) => found
  | none => true

/-- The nodes that list `id` as a dependency, once for each time they do. -/
def childrenOf (nodes : List PlanNode) (id : String) : List String :=
  nodes.flatMap fun node => (node.dependsOn.filter (· = id)).map fun _ => node.id

/-- The ids a search forwards from the frame nodes reaches. -/
def reachedIds (nodes : List PlanNode) : List String :=
  let roots := nodes.filter (·.kind = .frame)
  let start := (if roots.length > 0 then roots else nodes.filter (·.dependsOn.length = 0)).map (·.id)
  let rounds := start.length +
    ((nodes.flatMap (·.dependsOn)).map fun id => (childrenOf nodes id).length).sum + 1
  (Dfs.reach (childrenOf nodes) (· = "") rounds start.reverse []).getD []

def unreachableNodes (nodes : List PlanNode) : List PlanNode :=
  ((distinct (nodes.map (·.id))).filterMap (byId nodes)).filter fun node =>
    node.id ∉ reachedIds nodes

/-! ### The checks in order -/

/-- Ids that are unsafe, or were already used by a node listed before. -/
def nodeIdIssues : List String → List PlanNode → List PlanValidationIssue
  | _, [] => []
  | seen, node :: rest =>
      (if safeNodeId node.id then [] else
        [planIssue .invalidNodeId ("Node id is not safe: " ++ node.id) ["nodes", node.id]]) ++
      (if node.id ∈ seen then
        [planIssue .duplicateNodeId ("Duplicate node id: " ++ node.id) ["nodes", node.id]] else []) ++
      nodeIdIssues (seen ++ [node.id]) rest

def dependencyIssues (plan : Planfile) : List PlanValidationIssue :=
  let nodeIds := plan.nodes.map (·.id)
  (plan.nodes.flatMap fun node => (node.dependsOn.filter (· ∉ nodeIds)).map fun dependency =>
    planIssue .missingDependency (node.id ++ " depends on missing node " ++ dependency)
      ["nodes", node.id, "depends_on"]) ++
  (plan.edges.filter fun edge => edge.source ∉ nodeIds ∨ edge.target ∉ nodeIds).map fun edge =>
    planIssue .missingDependency
      ("Edge references missing node: " ++ edge.source ++ " -> " ++ edge.target) ["edges"]

def graphIssues (plan : Planfile) : List PlanValidationIssue :=
  (if hasCycle plan.nodes then
    [planIssue .cycleDetected "Plan DAG contains a cycle." ["nodes"]] else []) ++
  ((unreachableNodes plan.nodes).filter fun node => node.optional ≠ some true).map fun node =>
    planIssue .unreachableNode ("Node is not reachable from the frame node: " ++ node.id)
      ["nodes", node.id]

def capabilityIssues (plan : Planfile) : Option CapabilitySnapshot → List PlanValidationIssue
  | none => []
  | some snapshot =>
      plan.nodes.flatMap fun node =>
        (node.allowedCapabilityRefs.filter (· ∉ capabilityReferenceSet snapshot)).map fun ref =>
          planIssue .unknownCapability (node.id ++ " references unknown capability " ++ ref)
            ["nodes", node.id, "allowed_capability_refs"]

/-- `plan.execution_context?.[name]`. -/
def Planfile.contextField (plan : Planfile) (name : String) : Value :=
  match plan.executionContext with
  | none => .undefined
  | some fields => Value.property fields name

def Value.isText (v : Value) (text : String) : Bool :=
  match v with
  | .str s => s = text
  | _ => false

def Planfile.allowFixtures (plan : Planfile) : Bool :=
  (match plan.contextField "allow_fixtures" with
    | .bool true => true
    | _ => false) ||
  (plan.contextField "context").isText "demo" || (plan.contextField "context").isText "eval"

def Planfile.allowMock (plan : Planfile) : Bool :=
  (plan.contextField "context").isText "test"

/-- The checks of one node against the policies of the plan. -/
def policyIssues (plan : Planfile) (node : PlanNode) : List PlanValidationIssue :=
  let nodeMode := node.executionMode.getD .live
  (if nodeMode = .fixture ∧ ¬ plan.allowFixtures then
    [planIssue .invalidPlan (node.id ++ " requests fixture execution outside demo/eval context." ++
      " Use --allow-fixtures or an explicit demo/eval context.")
      ["nodes", node.id, "execution_mode"]] else []) ++
  (if nodeMode = .mock ∧ ¬ plan.allowMock then
    [planIssue .invalidPlan (node.id ++ " requests mock execution outside test context.")
      ["nodes", node.id, "execution_mode"]] else []) ++
  (if (node.riskLevel ∈ plan.approvalPolicy.requireApprovalForRisks ∨ node.riskLevel ∈ writeRisks) ∧
      ¬ node.approvalRequired then
    [planIssue .approvalRequired
      (node.id ++ " requires approval for " ++ node.riskLevel.text ++ " risk.")
      ["nodes", node.id, "approval_required"]] else []) ++
  (if node.riskLevel = .destructive ∧ (¬ node.approvalRequired ∨
      plan.approvalPolicy.explicitDestructiveGoal ≠ some true) then
    [planIssue .destructiveGoalNotExplicit
      (node.id ++ " is destructive without an explicit destructive-goal policy flag.")
      ["nodes", node.id, "risk_level"]] else []) ++
  (if node.kind = .verify then
    ((node.verificationCommandIds.getD []).filter
      (· ∉ plan.verificationPolicy.allowedCommandIds)).map fun commandId =>
        planIssue .unknownVerificationCommand
          (node.id ++ " uses command outside verification policy: " ++ commandId)
          ["nodes", node.id, "verification_command_ids"] else []) ++
  (if node.kind = .patch ∧ node.acceptanceRefs.length = 0 then
    [planIssue .patchAcceptanceMissing (node.id ++ " must reference acceptance criteria.")
      ["nodes", node.id, "acceptance_refs"]] else [])

def validatePlanfile (P : Platform) (snapshot : Option CapabilitySnapshot) (plan : Planfile) :
    PlanValidationResult :=
  if plan.refined P.isDatetime then
    let issues := nodeIdIssues [] plan.nodes ++ dependencyIssues plan ++ graphIssues plan ++
      capabilityIssues plan snapshot ++ plan.nodes.flatMap (policyIssues plan)
    ⟨issues.all (·.severity ≠ .error), issues⟩
  else
    ⟨false, (P.schemaIssues plan).map fun issue => ⟨.invalidSchema, issue.1, .error, issue.2⟩⟩

end OpenLagrange
