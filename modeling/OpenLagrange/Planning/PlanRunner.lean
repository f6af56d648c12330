/-
The plan runner.

`runToCompletion` repeats one round: take the first ready node in listing order, tell
that it started, mark it running, work on it, and mark it with its outcome.  A round
ends the run when the plan is completed, failed or yielded, and so does an empty
ready set; the number of rounds is bounded by two more than the number of nodes.

A node is worked on in one of three ways.  A frame node without capabilities is
completed on the spot, a node with exactly one capability runs it as a capability
step, and any other node needs a handler registered for its kind.  What a capability
step returned is kept in `outputs` for the nodes after it.

`runReadyNode` is one round without the running mark and without capability steps.
-/
import OpenLagrange.Storage.StateStore

namespace OpenLagrange

structure PlanRunnerOptions where
  capabilitySnapshot : CapabilitySnapshot
  /-- The kinds a handler is registered for. -/
  handlers : PlanNodeKind → Bool
  registry : Option PackRegistry
  delegationContext : Option DelegationContext
  runId : Option String
  /-- Whether a function that emits run events is given. -/
  emitRunEvent : Bool
  /-- The instant the clock is pinned to; `none` reads the system clock. -/
  now : Option String

structure PlanRunnerExecutionResult where
  state : PlanState
  outputs : Outputs

/-! ### The ready nodes -/

/-- The nodes that wait and whose dependencies are all completed or skipped. -/
def readyNodes (plan : Planfile) (state : PlanState) : List PlanNode :=
  let completed := (state.nodeStates.filter (·.status.isDone)).map (·.nodeId)
  let pending := (state.nodeStates.filter (·.status.isWaiting)).map (·.nodeId)
  plan.nodes.filter fun node =>
    node.id ∈ pending ∧ ∀ dependency ∈ node.dependsOn, dependency ∈ completed

def canCompleteStructuralNode (node : PlanNode) : Bool :=
  node.kind = .frame ∧ node.allowedCapabilityRefs.length = 0

def canRunCapabilityStep (node : PlanNode) : Bool :=
  node.allowedCapabilityRefs.length = 1 ∧ node.kind ≠ .frame

def shouldDryRunNode (plan : Planfile) (node : PlanNode) : Bool :=
  match node.executionMode with
  | some mode => mode = .dryRun
  | none => plan.mode = .dryRun

def planStatusFromStep : CapabilityStepStatus → NodeOutcome
  | .success => .completed
  | .failed => .failed
  | .requiresApproval | .yielded => .yielded

/-- The artifacts of the direct dependencies. -/
def inputArtifactRefs (state : PlanState) (node : PlanNode) : List String :=
  (state.nodeStates.filter (·.nodeId ∈ node.dependsOn)).flatMap fun candidate =>
    candidate.artifacts.map (·.artifactId)

/-! ### Marking -/

def executionError (message now nodeId : String) : StructuredError :=
  ⟨"MCP_EXECUTION_FAILED", message, none, some nodeId, now⟩

/-- The status of the plan once `outcome` was marked: the outcome of this node alone
decides between failed and yielded. -/
def nextPlanStatus (outcome : NodeOutcome) (nodeStates : List PlanNodeState) : PlanStatus :=
  match outcome with
  | .failed => .failed
  | .yielded => .yielded
  | .completed | .skipped => if nodeStates.all (·.status.isDone) then .completed else .running

def markedNodeStates (state : PlanState) (node : PlanNode) (outcome : NodeOutcome)
    (artifacts : List PlanArtifactRef) (errors : List String) (now : String) :
    List PlanNodeState :=
  state.nodeStates.map fun nodeState =>
    if nodeState.nodeId = node.id then
      { nodeState with status := outcome.status, completedAt := some now, artifacts, errors }
    else nodeState

def projectedPlan (plan : Planfile) (status : PlanStatus) (nodeStates : List PlanNodeState)
    (artifacts : List PlanArtifactRef) (now : String) : Planfile :=
  { plan with
    status
    nodes := plan.nodes.map fun candidate =>
      match nodeStates.find? fun item => item.nodeId = candidate.id with
      | some nodeState =>
          { candidate with
            status := nodeState.status, artifacts := nodeState.artifacts, errors := nodeState.errors }
      | none => candidate
    artifactRefs := plan.artifactRefs ++ artifacts
    updatedAt := now }

/-- The state that marking a node records. -/
def markedState (P : Platform) (plan : Planfile) (state : PlanState) (node : PlanNode)
    (outcome : NodeOutcome) (artifacts : List PlanArtifactRef) (errors : List String)
    (now : String) : PlanState :=
  let nodeStates := markedNodeStates state node outcome artifacts errors now
  let status := nextPlanStatus outcome nodeStates
  { state with
    status
    nodeStates
    artifactRefs := state.artifactRefs ++ artifacts
    markdownProjection :=
      some (P.renderPlanfileMarkdown (projectedPlan plan status nodeStates artifacts now))
    updatedAt := now }

/-- The state that marking a node running records. -/
def runningState (state : PlanState) (node : PlanNode) (now : String) : PlanState :=
  { state with
    status := .running
    nodeStates := state.nodeStates.map fun nodeState =>
      if nodeState.nodeId = node.id then
        { nodeState with status := .running, startedAt := some (nodeState.startedAt.getD now) }
      else nodeState
    updatedAt := now }

/-! ### Events -/

def attemptId (plan : Planfile) (node : PlanNode) : String :=
  "attempt_" ++ plan.planId ++ "_" ++ node.id ++ "_initial"

def nodeBase (plan : Planfile) (node : PlanNode) : NodeBase :=
  ⟨node.id, attemptId plan node, some node.title⟩

/-- The non-empty ids of the artifacts. -/
def artifactIds (artifacts : List PlanArtifactRef) : List String :=
  (artifacts.map (·.artifactId)).filter (· ≠ "")

/-- `text`, or `other` when it is empty. -/
def textOr (text other : String) : String := if text = "" then other else text

namespace PlanRunner

variable (P : Platform) (o : PlanRunnerOptions)

/-- The run that events are emitted for, if anyone listens. -/
def listener : Option String :=
  if o.emitRunEvent then o.runId.filter (· ≠ "") else none

/-- The run id that next actions name. -/
def actionRunId (plan : Planfile) : String := o.runId.getD plan.planId

def now : Program String :=
  match o.now with
  | some now => pure now
  | none => perform .clock

def emit (plan : Planfile) (body : RunEventBody) : Program Unit :=
  match listener o with
  | none => perform (.emitRunEvent none plan.planId body)
  | some runId => do
      let timestamp ← now o
      perform (.emitRunEvent (some ⟨runId, timestamp⟩) plan.planId body)

def emitPhaseStarted (plan : Planfile) (node : PlanNode) : Program Unit :=
  match node.kind with
  | .verify => emit o plan (.verificationStarted (nodeBase plan node) node.id)
  | .repair => emit o plan (.repairStarted (nodeBase plan node) 1)
  | _ => pure ()

def emitPhaseCompleted (plan : Planfile) (node : PlanNode) (outcome : NodeOutcome) :
    Program Unit :=
  match node.kind with
  | .verify =>
      emit o plan (.verificationCompleted (nodeBase plan node) node.id (outcome = .completed))
  | .repair => emit o plan (.repairCompleted (nodeBase plan node) 1 outcome.status.text)
  | _ => pure ()

def emitNodeStarted (plan : Planfile) (node : PlanNode) : Program Unit := do
  emit o plan (.nodeStarted (nodeBase plan node))
  emitPhaseStarted o plan node

/-- The event that tells how a node ended. -/
def nodeEvent (plan : Planfile) (node : PlanNode) (outcome : NodeOutcome)
    (artifacts : List PlanArtifactRef) (errors : List String) (now : String) : RunEventBody :=
  match outcome with
  | .completed | .skipped => .nodeCompleted (nodeBase plan node) (artifactIds artifacts)
  | .failed => .nodeFailed (nodeBase plan node) (errors.map (executionError · now node.id))
  | .yielded =>
      .nodeYielded (nodeBase plan node)
        (textOr (errors.headD "Node yielded.") "Node yielded.")
        (deriveRunNextActions (actionRunId o plan) "yielded" (some node.id) [] [] errors)

def emitArtifact (plan : Planfile) (node : PlanNode) (artifact : PlanArtifactRef) : Program Unit :=
  if artifact.artifactId = "" then pure ()
  else emit o plan (.artifactCreated (some node.id) artifact.artifactId artifact.kind.text)

def emitArtifacts (plan : Planfile) (node : PlanNode) : List PlanArtifactRef → Program Unit
  | [] => pure ()
  | artifact :: rest => do
      emitArtifact o plan node artifact
      emitArtifacts plan node rest

/-! ### One round -/

def markNode (plan : Planfile) (state : PlanState) (node : PlanNode) (outcome : NodeOutcome)
    (artifacts : List PlanArtifactRef) (errors : List String) : Program PlanState := do
  let now ← now o
  let recorded ← perform (.recordPlanState (markedState P plan state node outcome artifacts errors now))
  emit o plan (nodeEvent o plan node outcome artifacts errors now)
  emitArtifacts o plan node artifacts
  emitPhaseCompleted o plan node outcome
  pure recorded

def markNodeRunning (state : PlanState) (node : PlanNode) : Program PlanState := do
  let now ← now o
  perform (.recordPlanState (runningState state node now))

/-- The step a capability node asks for. -/
def stepInput (plan : Planfile) (state : PlanState) (node : PlanNode) (outputs : Outputs)
    (capabilityRef : String) (descriptor : CapabilityDescriptor) (context : DelegationContext) :
    CapabilityStepInput where
  stepId := plan.planId ++ ":" ++ node.id
  planId := plan.planId
  nodeId := node.id
  capabilityRef
  capabilityDigest := descriptor.capabilityDigest
  input := resolveTemplates outputs (nodeInput plan node.id)
  delegationContext := context
  idempotencyKey := plan.planId ++ ":" ++ node.id ++ ":" ++ descriptor.capabilityDigest
  inputArtifactRefs := inputArtifactRefs state node
  dryRun := shouldDryRunNode plan node
  traceId := context.traceId

/-- The capability a node names, as the runner's registry resolves it. -/
def resolvedCapability (node : PlanNode) : Option CapabilityDescriptor :=
  resolveCapabilityForStep (o.registry.getD P.registry) P.localeCompare
    (node.allowedCapabilityRefs.headD "")

def runCapabilityNode (plan : Planfile) (state : PlanState) (node : PlanNode) (outputs : Outputs) :
    Program CapabilityStepResult :=
  let capabilityRef := node.allowedCapabilityRefs.headD ""
  match resolvedCapability P o node with
  | none => .fail ("Unknown capability: " ++ capabilityRef)
  | some descriptor =>
      match o.delegationContext with
      | none => .fail "Capability PlanRunner execution requires a delegation context."
      | some context =>
          perform (.runCapabilityStep (listener o)
            (stepInput plan state node outputs capabilityRef descriptor context))

/-- The artifact references of a step's result, each with the time it is listed at. -/
def stepArtifacts : List String → Program (List PlanArtifactRef)
  | [] => pure []
  | artifactId :: rest => do
      let createdAt ← now o
      let others ← stepArtifacts rest
      pure (⟨artifactId, .capabilityStepResult, "artifact://" ++ artifactId,
        "Capability step artifact " ++ artifactId, createdAt⟩ :: others)

/-- What working on a node produced. -/
structure NodeWork where
  outcome : NodeOutcome
  artifacts : List PlanArtifactRef
  errors : List String
  outputs : Outputs

/-- `outputs` with the output of a step, unless it returned none. -/
def keepOutput (outputs : Outputs) (nodeId : String) : Value → Outputs
  | .undefined => outputs
  | output => Function.update outputs nodeId output

/-- The three ways to work on a node; the source marks the node at the end of each. -/
def workOn (plan : Planfile) (state : PlanState) (node : PlanNode) (outputs : Outputs) :
    Program NodeWork :=
  if canCompleteStructuralNode node then
    pure ⟨.completed, [], [], outputs⟩
  else if canRunCapabilityStep node then do
    let result ← runCapabilityNode P o plan state node outputs
    let artifacts ← stepArtifacts o result.outputArtifactRefs
    pure ⟨planStatusFromStep result.status, artifacts, result.structuredErrors.map (·.message),
      keepOutput outputs node.id result.output⟩
  else if o.handlers node.kind then do
    let workOrder ← perform (.compileWorkOrder plan node.id o.capabilitySnapshot)
    let result ← perform (.handleNode workOrder plan node state)
    pure ⟨result.status, result.artifacts.getD [], result.errors.getD [], outputs⟩
  else
    pure ⟨.yielded, [], ["No handler registered for " ++ node.kind.text ++ "."], outputs⟩

def runRound (plan : Planfile) (state : PlanState) (node : PlanNode) (outputs : Outputs) :
    Program PlanRunnerExecutionResult := do
  emitNodeStarted o plan node
  let running ← markNodeRunning o state node
  let work ← workOn P o plan running node outputs
  let marked ← markNode P o plan running node work.outcome work.artifacts work.errors
  pure ⟨marked, work.outputs⟩

/-- The statuses that end a run. -/
def ends (status : PlanStatus) : Bool :=
  status = .completed ∨ status = .failed ∨ status = .yielded

def runRounds (plan : Planfile) : Nat → PlanState → Outputs → Program PlanRunnerExecutionResult
  | 0, state, outputs => pure ⟨state, outputs⟩
  | rounds + 1, state, outputs =>
      match readyNodes plan state with
      | [] => pure ⟨state, outputs⟩
      | node :: _ => do
          let round ← runRound P o plan state node outputs
          if ends round.state.status then pure round
          else runRounds plan rounds round.state round.outputs

/-! ### The entry points -/

/-- The plan with its digest, if the schema and the validator accept it. -/
def accept (planfile : Planfile) : Except String Planfile :=
  if planfile.refined P.isDatetime then
    let plan := withCanonicalPlanDigest P.sha256 planfile
    let validation := validatePlanfile P (some o.capabilitySnapshot) plan
    if validation.ok then .ok plan
    else .error ("; ".intercalate (validation.issues.map (·.message)))
  else .error ("; ".intercalate ((P.schemaIssues planfile).map (·.1)))

def load (planfile : Planfile) : Program PlanState :=
  match accept P o planfile with
  | .error message => .fail message
  | .ok plan => do
      let now ← now o
      let recorded ← perform (.recordPlanState (initialPlanState P plan now))
      emit o plan .runCreated
      pure recorded

/-- The stored state of the plan, or a fresh one. -/
def storedOrLoad (plan : Planfile) : Program PlanState := do
  match ← perform (.getPlanState plan.planId) with
  | some state => pure state
  | none => load P o plan

/-- All errors of the nodes, each with the node it is about and the time it is reported. -/
def nodeErrors (state : PlanState) (now : String) : List StructuredError :=
  state.nodeStates.flatMap fun node => node.errors.map (executionError · now node.nodeId)

def announceEnd (plan : Planfile) (state : PlanState) : Program Unit :=
  match state.status with
  | .completed => emit o plan (.runCompleted (artifactIds state.artifactRefs))
  | .failed => do
      let now ← now o
      emit o plan (.runFailed (nodeErrors state now))
  | .yielded =>
      let activeNodeId := (state.nodeStates.find? (·.status = .yielded)).map (·.nodeId)
      emit o plan (.runYielded "Run yielded before completion."
        (deriveRunNextActions (actionRunId o plan) "yielded" activeNodeId [] []
          (state.nodeStates.flatMap (·.errors))))
  | _ => pure ()

def runToCompletion (planfile : Planfile) : Program PlanRunnerExecutionResult :=
  match accept P o planfile with
  | .error message => .fail message
  | .ok plan => do
      let state ← storedOrLoad P o plan
      emit o plan .runStarted
      let result ← runRounds P o plan (plan.nodes.length + 2) state Outputs.empty
      announceEnd o plan result.state
      pure result

def runReadyNode (planfile : Planfile) : Program PlanState :=
  match accept P o planfile with
  | .error message => .fail message
  | .ok plan => do
      let state ← storedOrLoad P o plan
      match readyNodes plan state with
      | [] => pure state
      | node :: _ =>
          if canCompleteStructuralNode node then do
            emitNodeStarted o plan node
            markNode P o plan state node .completed [] []
          else if o.handlers node.kind then do
            let workOrder ← perform (.compileWorkOrder plan node.id o.capabilitySnapshot)
            emitNodeStarted o plan node
            let result ← perform (.handleNode workOrder plan node state)
            markNode P o plan state node result.status (result.artifacts.getD [])
              (result.errors.getD [])
          else
            markNode P o plan state node .yielded []
              ["No handler registered for " ++ node.kind.text ++ "."]

end PlanRunner

end OpenLagrange
