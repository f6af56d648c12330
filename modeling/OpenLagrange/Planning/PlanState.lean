/-
The state of a plan's execution.

The plan itself never changes while it runs.  What changes is a `PlanState`, kept in
the store under the plan's id: a status for the plan, and for each node a status, its
artifacts and its errors.  A node's status matters to the runner only through its
phase: waiting, being worked on, done, or halted.
-/
import OpenLagrange.Lib.TaskGraph
import OpenLagrange.Platform

namespace OpenLagrange

structure PlanNodeState where
  nodeId : String
  status : PlanNodeStatus
  startedAt : Option String
  completedAt : Option String
  artifacts : List PlanArtifactRef
  errors : List String
  deriving DecidableEq, Repr

structure PlanState where
  planId : String
  status : PlanStatus
  canonicalPlanDigest : String
  nodeStates : List PlanNodeState
  artifactRefs : List PlanArtifactRef
  markdownProjection : Option String
  createdAt : String
  updatedAt : String
  deriving DecidableEq, Repr

structure InitialNode where
  id : String
  status : PlanNodeStatus

/-- An empty projection is left out, as an empty text is falsy. -/
def createInitialPlanState (planId : String) (status : PlanStatus) (canonicalPlanDigest : String)
    (nodes : List InitialNode) (artifactRefs : List PlanArtifactRef) (markdownProjection : String)
    (now : String) : PlanState :=
  { planId
    status
    canonicalPlanDigest
    nodeStates := nodes.map fun node => ⟨node.id, node.status, none, none, [], []⟩
    artifactRefs
    markdownProjection := if markdownProjection = "" then none else some markdownProjection
    createdAt := now
    updatedAt := now }

/-- The state a plan starts from: nodes without dependencies are ready, the others pending. -/
def initialPlanState (P : Platform) (plan : Planfile) (now : String) : PlanState :=
  createInitialPlanState plan.planId .pending (plan.canonicalPlanDigest.getD "")
    (plan.nodes.map fun node =>
      ⟨node.id, if node.dependsOn.length = 0 then .ready else .pending⟩)
    plan.artifactRefs (P.renderPlanfileMarkdown { plan with status := .pending }) now

/-! ### Statuses as phases -/

def PlanNodeStatus.isDone : PlanNodeStatus → Bool
  | .completed | .skipped => true
  | _ => false

def PlanNodeStatus.isWaiting : PlanNodeStatus → Bool
  | .pending | .ready => true
  | _ => false

def PlanNodeStatus.isStopped : PlanNodeStatus → Bool
  | .failed | .yielded => true
  | _ => false

def PlanNodeStatus.phase : PlanNodeStatus → Phase
  | .pending | .ready => .waiting
  | .running => .active
  | .completed | .skipped => .done
  | .failed | .yielded => .halted

@[simp] theorem PlanNodeStatus.phase_done {s : PlanNodeStatus} :
    s.phase = .done ↔ s.isDone = true := by cases s <;> simp [phase, isDone]

@[simp] theorem PlanNodeStatus.phase_waiting {s : PlanNodeStatus} :
    s.phase = .waiting ↔ s.isWaiting = true := by cases s <;> simp [phase, isWaiting]

@[simp] theorem PlanNodeStatus.phase_halted {s : PlanNodeStatus} :
    s.phase = .halted ↔ s.isStopped = true := by cases s <;> simp [phase, isStopped]

@[simp] theorem PlanNodeStatus.phase_active {s : PlanNodeStatus} :
    s.phase = .active ↔ s = .running := by cases s <;> simp [phase]

/-- The state of the node of the given id. -/
def PlanState.node? (state : PlanState) (id : String) : Option PlanNodeState :=
  state.nodeStates.find? fun node => node.nodeId = id

/-- The phase of a node; an id the state does not list can never be started. -/
def PlanState.phase (state : PlanState) (id : String) : Phase :=
  match state.node? id with
  | some node => node.status.phase
  | none => .halted

/-- The ids a state lists. -/
def PlanState.ids (state : PlanState) : List String := state.nodeStates.map (·.nodeId)

/-- Every node of the state is completed or skipped. -/
def PlanState.allDone (state : PlanState) : Bool := state.nodeStates.all (·.status.isDone)

/-- Whether the node of the given id is completed or skipped. -/
def PlanState.done (state : PlanState) (id : String) : Bool :=
  state.nodeStates.any fun node => node.nodeId = id ∧ node.status.isDone

/-- The dependencies of a plan, as a graph of its node ids. -/
def Planfile.graph (plan : Planfile) : TaskGraph String where
  tasks := plan.nodes.map (·.id)
  deps := fun id => match plan.node? id with
    | some node => node.dependsOn
    | none => []

end OpenLagrange
