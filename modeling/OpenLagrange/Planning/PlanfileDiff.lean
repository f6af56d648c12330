/-
The structured diff of two Planfiles.

A diff lists the nodes that were added, removed or changed, the edges, the capabilities,
the derived requirements, the risks, the approvals, the schedule and the parameters.
Nodes are matched by id.  Of two nodes of one id it compares the fields that the next
node has, each by its JSON text.
-/
import OpenLagrange.Planning.PlanRequirements
import OpenLagrange.Util.Json

namespace OpenLagrange

structure NodeChange where
  nodeId : String
  changedFields : List String
  before : List (String × Value)
  after : List (String × Value)
  deriving Repr

inductive RequirementChangeKind where
  | pack | provider | credential | permission | approval | runtime
  deriving DecidableEq, Repr

structure RequirementChange where
  kind : RequirementChangeKind
  before : Value
  after : Value
  deriving Repr

structure RiskChange where
  target : String
  before : String
  after : String
  increased : Bool
  deriving DecidableEq, Repr

structure ApprovalChange where
  target : String
  before : Bool
  after : Bool
  deriving DecidableEq, Repr

structure ScheduleChange where
  before : Value
  after : Value
  deriving Repr

structure ParameterChange where
  name : String
  before : Value
  after : Value
  deriving Repr

structure PlanfileStructuredDiff where
  nodesAdded : List PlanNode
  nodesRemoved : List PlanNode
  nodesChanged : List NodeChange
  edgesAdded : List PlanEdge
  edgesRemoved : List PlanEdge
  capabilitiesAdded : List String
  capabilitiesRemoved : List String
  requirementsChanged : List RequirementChange
  riskChanges : List RiskChange
  approvalChanges : List ApprovalChange
  scheduleChanged : Option ScheduleChange
  parametersChanged : Option (List ParameterChange)
  deriving Repr

/-! ### Nodes and edges -/

/-- The properties of a node that are there, in the order of the schema. -/
def PlanNode.fields (n : PlanNode) : List (String × Value) :=
  [("id", some (.str n.id)), ("kind", some (.str n.kind.text)), ("title", some (.str n.title)),
    ("objective", some (.str n.objective)), ("description", some (.str n.description)),
    ("depends_on", some (strings n.dependsOn)),
    ("allowed_capability_refs", some (strings n.allowedCapabilityRefs)),
    ("execution_mode", n.executionMode.map fun m => .str m.text),
    ("expected_outputs", some (strings n.expectedOutputs)),
    ("acceptance_refs", some (strings n.acceptanceRefs)),
    ("risk_level", some (.str n.riskLevel.text)),
    ("approval_required", some (.bool n.approvalRequired)),
    ("status", some (.str n.status.text)),
    ("artifacts", some (.arr (n.artifacts.map (·.toValue)))),
    ("errors", some (strings n.errors)), ("optional", n.optional.map .bool),
    ("verification_command_ids", n.verificationCommandIds.map strings)].filterMap
      fun f => f.2.map fun v => (f.1, v)

/-- Only the fields that the next node has are looked at. -/
def changedNodeFields (previous next : PlanNode) : List String :=
  sortTexts ((next.fields.map (·.1)).filter fun key =>
    ¬ sameJson (Value.property previous.fields key) (Value.property next.fields key))

def partialNode (node : PlanNode) (fields : List String) : List (String × Value) :=
  fields.map fun field => (field, Value.property node.fields field)

def nodeChange (before node : PlanNode) : NodeChange :=
  let changedFields := changedNodeFields before node
  ⟨node.id, changedFields, partialNode before changedFields, partialNode node changedFields⟩

/-- The nodes of a plan that the other plan has no node of the id of. -/
def nodesBeyond (nodes others : List PlanNode) : List PlanNode :=
  nodes.filter fun node => (byId others node.id).isNone

def nodeChanges (previous next : Planfile) : List NodeChange :=
  next.nodes.flatMap fun node =>
    match byId previous.nodes node.id with
    | none => []
    | some before => if (changedNodeFields before node).length = 0 then [] else [nodeChange before node]

def edgeKey (edge : PlanEdge) : Option String :=
  jsonStringify (strings [edge.source, edge.target, edge.reason])

def edgesBeyond (edges others : List PlanEdge) : List PlanEdge :=
  edges.filter fun edge => edgeKey edge ∉ others.map edgeKey

def capabilityRefs (plan : Planfile) : List String :=
  distinct (plan.nodes.flatMap (·.allowedCapabilityRefs))

def capabilitiesBeyond (plan other : Planfile) : List String :=
  sortTexts ((capabilityRefs plan).filter (· ∉ capabilityRefs other))

/-! ### Requirements, risks and approvals -/

def requirementChange (kind : RequirementChangeKind) (before after : Value) : List RequirementChange :=
  if sameJson before after then [] else [⟨kind, before, after⟩]

def requirementChanges (previous next : Planfile) : List RequirementChange :=
  let before := derivePlanRequirements previous none none
  let after := derivePlanRequirements next none none
  requirementChange .pack (strings before.requiredPacks) (strings after.requiredPacks) ++
  requirementChange .provider (strings before.requiredProviders) (strings after.requiredProviders) ++
  requirementChange .credential (strings before.requiredCredentials)
    (strings after.requiredCredentials) ++
  requirementChange .permission (strings before.permissions) (strings after.permissions) ++
  requirementChange .approval (strings before.approvalRequirements)
    (strings after.approvalRequirements) ++
  requirementChange .runtime (.str before.portabilityLevel.text) (.str after.portabilityLevel.text)

def riskRank (value : String) : Nat :=
  if value = "read" ∨ value = "none" then 0
  else if value = "write" then 1
  else if value = "external_side_effect" then 2
  else if value = "destructive" then 3
  else 0

def riskChange (target before after : String) : RiskChange :=
  ⟨target, before, after, riskRank after > riskRank before⟩

/-- What `change` says about every node of the next plan that the previous plan has too. -/
def commonNodes {α : Type} (previous next : Planfile) (change : PlanNode → PlanNode → Option α) :
    List α :=
  next.nodes.filterMap fun node => (byId previous.nodes node.id).bind fun before => change before node

def riskChanges (previous next : Planfile) : List RiskChange :=
  (nodesBeyond next.nodes previous.nodes).map (fun node =>
    riskChange node.id "none" node.riskLevel.text) ++
  commonNodes previous next fun before node =>
    if before.riskLevel ≠ node.riskLevel then
      some (riskChange node.id before.riskLevel.text node.riskLevel.text) else none

def approvalChanges (previous next : Planfile) : List ApprovalChange :=
  commonNodes previous next fun before node =>
    if before.approvalRequired ≠ node.approvalRequired then
      some ⟨node.id, before.approvalRequired, node.approvalRequired⟩ else none

/-! ### Schedule and parameters -/

def scheduleValue (plan : Planfile) : Value := plan.contextField "schedule_intent"

/-- The parameters of a plan, where these are an object. -/
def planParameters (plan : Planfile) : List (String × Value) :=
  match plan.contextField "parameters" with
  | .obj fields => fields
  | _ => []

def parameterChanges (previous next : Planfile) : List ParameterChange :=
  let before := planParameters previous
  let after := planParameters next
  (unique (before.map (·.1) ++ after.map (·.1))).flatMap fun name =>
    if sameJson (Value.property before name) (Value.property after name) then []
    else [⟨name, Value.property before name, Value.property after name⟩]

/-! ### The diff -/

/-- The diff before its schema has looked at it. -/
def structuredDiff (previous next : Planfile) : PlanfileStructuredDiff :=
  let schedule := scheduleValue previous
  let nextSchedule := scheduleValue next
  let parameters := parameterChanges previous next
  { nodesAdded := nodesBeyond next.nodes previous.nodes
    nodesRemoved := nodesBeyond previous.nodes next.nodes
    nodesChanged := nodeChanges previous next
    edgesAdded := edgesBeyond next.edges previous.edges
    edgesRemoved := edgesBeyond previous.edges next.edges
    capabilitiesAdded := capabilitiesBeyond next previous
    capabilitiesRemoved := capabilitiesBeyond previous next
    requirementsChanged := requirementChanges previous next
    riskChanges := riskChanges previous next
    approvalChanges := approvalChanges previous next
    scheduleChanged := if sameJson schedule nextSchedule then none else some ⟨schedule, nextSchedule⟩
    parametersChanged := if parameters.length > 0 then some parameters else none }

/-- What the schema of a diff asks of its texts. -/
def PlanfileStructuredDiff.refined (isDatetime : String → Bool) (d : PlanfileStructuredDiff) : Bool :=
  d.nodesAdded.all (·.refined isDatetime) && d.nodesRemoved.all (·.refined isDatetime) &&
    d.nodesChanged.all (fun c => nonempty c.nodeId && c.changedFields.all nonempty) &&
    (d.edgesAdded ++ d.edgesRemoved).all (fun e => nonempty e.source && nonempty e.target) &&
    (d.capabilitiesAdded ++ d.capabilitiesRemoved).all nonempty &&
    d.riskChanges.all (fun c => nonempty c.target && nonempty c.before && nonempty c.after) &&
    d.approvalChanges.all (fun c => nonempty c.target) &&
    (d.parametersChanged.getD []).all (fun c => nonempty c.name)

/-- `none` where the schema of the diff throws. -/
def diffPlanfiles (isDatetime : String → Bool) (previous next : Planfile) :
    Option PlanfileStructuredDiff :=
  if (structuredDiff previous next).refined isDatetime then some (structuredDiff previous next) else none

def hasStructuredDiffChanges (diff : PlanfileStructuredDiff) : Bool :=
  diff.nodesAdded.length > 0 ∨ diff.nodesRemoved.length > 0 ∨ diff.nodesChanged.length > 0 ∨
    diff.edgesAdded.length > 0 ∨ diff.edgesRemoved.length > 0 ∨ diff.capabilitiesAdded.length > 0 ∨
    diff.capabilitiesRemoved.length > 0 ∨ diff.requirementsChanged.length > 0 ∨
    diff.riskChanges.length > 0 ∨ diff.approvalChanges.length > 0 ∨ diff.scheduleChanged.isSome ∨
    (diff.parametersChanged.getD []).length > 0

end OpenLagrange
