/-
The capability step runner.

`runCapabilityStep` resolves the capability, compares its digest, validates the input,
asks the policy gate, and only then executes.  Every way out goes through `finish`,
which parses the result, records the plan state and emits the terminal event.

The step is a program over its hooks: the event sink, the plan state store, what is done
with recorded artifacts.  Two calls have no effect of their own and mark a moment:
`executeCapability` is the step entering the registry, `execute` is the registry
calling the executor.  The executor is interpreted within the step; the artifacts it
records reach `outputArtifactRefs` before any hook can throw.
-/
import OpenLagrange.Runtime.CapabilityStep

namespace OpenLagrange

/-- What the step uses but does not define. -/
structure StepPlatform extends Platform where
  /-- `new Date(ms).toISOString()`. -/
  toISOString : Nat → String
  dateParse : String → Option Int
  /-- The environment variable `NODE_ENV`. -/
  nodeEnv : Option String
  packRegistry : RegisteredPacks
  /-- The message with which the schema of the given name refuses a value. -/
  zodError : String → String

structure CapabilityStepRunnerOptions where
  registry : Option RegisteredPacks
  now : Option String
  scopedTask : Option ScopedTask
  bounds : Option ExecutionBounds
  endpointAttemptsUsed : Option Nat
  runtimeConfig : Option (List (String × Value))
  planState : Option PlanState
  /-- Whether each hook is given. -/
  planStateStore : Bool
  recordArtifact : Bool
  recordObservation : Bool
  recordStatus : Bool
  emitRunEvent : Bool
  runId : Option String

/-! ### Calls -/

inductive StepCall where
  | dateNow
  | emitRunEvent (event : RunEvent)
  | recordPlanState (state : PlanState)
  | recordArtifact (artifact : Value)
  | recordObservation (item : Value)
  | recordStatus (status : Value)
  | executeCapability (capabilityId : String) (input : Value)
  | execute (capabilityId : String) (input : Value)

abbrev StepAnswer : StepCall → Type
  | .dateNow => Nat
  | _ => Unit

abbrev StepProgram (α : Type) := Prog StepCall StepAnswer α

abbrev stepCall (call : StepCall) : StepProgram (StepAnswer call) := Prog.perform call

/-- What happens around a step: the clock, and which calls of the hooks throw. -/
structure StepEnv where
  dateNow : Nat → Nat
  fault : Nat → Option String

/-- The clock answers and the marks pass; a hook may throw.  The state counts the calls. -/
def stepHandle (env : StepEnv) : Prog.Handler StepCall StepAnswer Nat := fun call tick =>
  let hook : Except String Unit :=
    match env.fault tick with
    | none => .ok ()
    | some message => .error message
  match call with
  | .dateNow => (.ok (env.dateNow tick), tick + 1)
  | .executeCapability _ _ | .execute _ _ => (.ok (), tick + 1)
  | .emitRunEvent _ | .recordPlanState _ | .recordArtifact _ | .recordObservation _
  | .recordStatus _ => (hook, tick + 1)

namespace CapabilityStep

variable (S : StepPlatform) (o : CapabilityStepRunnerOptions)

def packs : RegisteredPacks := o.registry.getD S.packRegistry

/-- The present instant. -/
def instant : StepProgram String := do
  let ms ← stepCall .dateNow
  pure (S.toISOString ms)

/-! ### Events -/

def attemptId (input : StepInput) : String :=
  match input.stepId.filter fun id => (after "attempt_".toList id.toList).isSome with
  | some id => id
  | none => "attempt_" ++ input.planId ++ "_" ++ input.nodeId ++ "_initial"

/-- What an event of a step says. -/
def eventBody (input : StepInput) : StepEvent → RunEventBody
  | .started => .capabilityStarted ⟨input.nodeId, attemptId input, none⟩ input.capabilityRef
  | .completed refs =>
      .capabilityCompleted ⟨input.nodeId, attemptId input, none⟩ input.capabilityRef refs
  | .failed errors =>
      .capabilityFailed ⟨input.nodeId, attemptId input, none⟩ input.capabilityRef errors
  | .policyEvaluated decision =>
      .policyEvaluated (some input.nodeId) (some input.capabilityRef) decision
  | .approvalRequested =>
      .approvalRequested (some input.nodeId) (input.planId ++ ":" ++ input.nodeId ++ ":approval")
  | .artifactCreated artifactId =>
      .artifactCreated (some input.nodeId) artifactId "capability_step_result"
  | .modelCallCompleted artifactId role model =>
      .modelCallCompleted (some input.nodeId) artifactId role model

/-- The run that events are emitted for, if anyone listens. -/
def listener : Option String :=
  if o.emitRunEvent then o.runId.filter (· ≠ "") else none

def emitRunEvent (input : StepInput) (event : StepEvent) (timestamp : String) :
    StepProgram Unit :=
  match listener o with
  | none => pure ()
  | some runId =>
      let event := createRunEvent runId input.planId timestamp (eventBody input event)
      if event.refined S.isDatetime then stepCall (.emitRunEvent event)
      else .fail (S.zodError "RunEvent")

/-! ### The end of a step -/

/-- What a way out tells `finish`; what it leaves out is empty. -/
structure StepEnd where
  status : CapabilityStepStatus
  output : Value
  outputArtifactRefs : List String
  policyReport : Option PolicyDecisionReport
  observations : List Observation
  structuredErrors : List StructuredError

/-- The artifact entry of a plan state for an artifact of this step. -/
def planArtifactRef (artifactId now : String) : PlanArtifactRef :=
  ⟨artifactId, .capabilityStepResult, "artifact://" ++ artifactId,
    "Capability step artifact " ++ artifactId, now⟩

/-- The node status a step's status stands for. -/
def nodeStatus : CapabilityStepStatus → PlanNodeStatus
  | .success => .completed
  | .requiresApproval | .yielded => .yielded
  | .failed => .failed

def updatePlanState (state : PlanState) (input : StepInput) (result : StepResult) (now : String) :
    PlanState :=
  { state with
    nodeStates := state.nodeStates.map fun node =>
      if node.nodeId = input.nodeId then
        { node with
          status := nodeStatus result.status
          completedAt := some now
          artifacts := node.artifacts ++ result.outputArtifactRefs.map (planArtifactRef · now)
          errors := node.errors ++ result.structuredErrors.map (·.message) }
      else node
    updatedAt := now }

/-- The terminal event of a result. -/
def terminalEvent (result : StepResult) : StepEvent :=
  if result.status = .failed then .failed result.structuredErrors
  else .completed (result.outputArtifactRefs.filter (· ≠ ""))

def recordPlanState (input : StepInput) (result : StepResult) (now : String) : StepProgram Unit :=
  match o.planState, o.planStateStore with
  | some state, true => stepCall (.recordPlanState (updatePlanState state input result now))
  | _, _ => pure ()

def announceApproval (input : StepInput) (result : StepResult) : StepProgram Unit :=
  if result.status = .requiresApproval then
    emitRunEvent S o input .approvalRequested result.completedAt
  else pure ()

/-- The result of a step that ends in `ending`. -/
def stepResult (input : StepInput) (started ended : Nat) (completedAt : String)
    (ending : StepEnd) : StepResult where
  status := ending.status
  output := ending.output
  outputArtifactRefs := distinct ending.outputArtifactRefs
  structuredErrors := ending.structuredErrors
  executionMode := executionModeFromDryRun input
  policyReport := ending.policyReport
  observations := ending.observations
  durationMs := ended - started
  startedAt := S.toISOString started
  completedAt

/-- A parsed result reaches the store and the sink. -/
def publish (input : StepInput) (now : String) (result : StepResult) : StepProgram StepResult := do
  recordPlanState o input result now
  announceApproval S o input result
  emitRunEvent S o input (terminalEvent result) result.completedAt
  pure result

def finish (input : StepInput) (started : Nat) (now : String) (ending : StepEnd) :
    StepProgram StepResult := do
  let ended ← stepCall .dateNow
  let completedAt ← instant S
  let result := stepResult S input started ended completedAt ending
  if result.refined S.isDatetime then publish S o input now result
  else .fail (S.zodError "CapabilityStepResult")

/-- An end that is one error and one observation about it. -/
def single (input : StepInput) (now : String) (intentId : Option String)
    (report : Option PolicyDecisionReport) (status : CapabilityStepStatus) (code message : String)
    (observed : ObservationStatus) (summary : String) (refs : List String) : StepEnd where
  status
  output := .undefined
  outputArtifactRefs := refs
  policyReport := report
  observations :=
    [observation S.sha256 observed summary now intentId (some input.nodeId) .undefined]
  structuredErrors := [⟨code, message, intentId, some input.nodeId, now⟩]

def finishFailure (input : StepInput) (started : Nat) (now code message : String) :
    StepProgram StepResult :=
  finish S o input started now (single S input now none none .failed code message .error message [])

/-! ### What the gate is asked -/

def intentFromStep (input : StepInput) (descriptor : CapabilityDescriptor) : ExecutionIntent where
  intentId := input.planId ++ ":" ++ input.nodeId ++ ":" ++ descriptor.name
  snapshotId := "step_" ++ input.planId
  endpointId := descriptor.packId
  capabilityName := descriptor.name
  capabilityDigest := descriptor.capabilityDigest
  riskLevel := descriptor.riskLevel
  requiresApproval := descriptor.requiresApproval
  idempotencyKey := input.idempotencyKey
  arguments :=
    match input.input with
    | .obj fields => fields
    | .native "__proto__" => []
    | value => [("value", value)]

/-- The task a step stands for when none is given: to run just this capability. -/
def scopedTaskFromStep (input : StepInput) (descriptor : CapabilityDescriptor) : ScopedTask where
  taskId := input.nodeId
  title := "Capability step " ++ input.nodeId
  objective := "Run " ++ descriptor.name
  allowedScopes := descriptor.scopes
  allowedCapabilities := [descriptor.name, descriptor.capabilityId]
  maxRiskLevel := descriptor.riskLevel

def sdkDescriptorToPolicyCapability (d : CapabilityDescriptor) : SnapshotCapability :=
  ⟨d.packId, d.name, d.description, d.inputSchema, d.outputSchema, d.riskLevel,
    d.requiresApproval, d.capabilityDigest⟩

def executionBounds : ExecutionBounds := o.bounds.getD defaultExecutionBounds

def policyInput (input : StepInput) (descriptor : CapabilityDescriptor) (now : String) :
    PolicyGateInput where
  delegationContext := input.delegationContext
  scopedTask := o.scopedTask.getD (scopedTaskFromStep input descriptor)
  capability := sdkDescriptorToPolicyCapability descriptor
  sideEffectKind := some ((packs S o).definition descriptor.capabilityId).sideEffectKind.text
  intent := intentFromStep input descriptor
  bounds := executionBounds o
  endpointAttemptsUsed := o.endpointAttemptsUsed.getD 0
  now

/-! ### Executing -/

def executionContext (input : StepInput) (descriptor : CapabilityDescriptor)
    (decision : PolicyGateResult) : PackExecutionContext where
  delegationContext := input.delegationContext
  capabilitySnapshotId := "step_" ++ input.planId
  projectId := input.delegationContext.projectId
  workspaceId := input.delegationContext.workspaceId
  taskRunId := input.delegationContext.taskRunId.getD input.nodeId
  traceId := input.traceId.getD input.delegationContext.traceId
  idempotencyKey := input.idempotencyKey
  policyDecision := decision
  executionBounds := executionBounds o
  timeoutMs := ((packs S o).definition descriptor.capabilityId).timeoutMs
  runtimeConfig :=
    let given := setField (setField (o.runtimeConfig.getD []) "plan_id" (.str input.planId))
      "node_id" (.str input.nodeId)
    match o.runId.filter (· ≠ "") with
    | some runId => setField given "run_id" (.str runId)
    | none => given

/-- Announce an artifact; an empty id is not announced. -/
def announceArtifact (input : StepInput) (artifactId : String) : StepProgram Unit := do
  let timestamp ← instant S
  if artifactId = "" then pure ()
  else emitRunEvent S o input (.artifactCreated artifactId) timestamp

def announceArtifacts (input : StepInput) : List String → StepProgram Unit
  | [] => pure ()
  | artifactId :: rest => do
      announceArtifact S o input artifactId
      announceArtifacts input rest

def announceModelCall (input : StepInput) (artifact : Value) : StepProgram Unit :=
  match modelCallArtifactRef artifact with
  | none => pure ()
  | some artifactId => do
      let timestamp ← instant S
      emitRunEvent S o input (.modelCallCompleted artifactId "capability" "unknown") timestamp

/-- What is done if its hook is given. -/
def optionally (given : Bool) (hook : StepProgram Unit) : StepProgram Unit :=
  if given then hook else pure ()

def recordArtifact (input : StepInput) (descriptor : CapabilityDescriptor) (artifact : Value) :
    StepProgram Unit := do
  optionally o.recordArtifact (stepCall (.recordArtifact (withLineage artifact input descriptor)))
  announceArtifacts S o input (artifactRefs artifact)
  announceModelCall S o input artifact

/-- How the context serves its executor; `refs` are the references recorded so far. -/
def serveContext (input : StepInput) (descriptor : CapabilityDescriptor) (call : ContextCall)
    (refs : List String) : StepProgram (Except String Unit × List String) :=
  match call with
  | .recordArtifact artifact => do
      let answer ← (recordArtifact S o input descriptor artifact).attempt
      pure (answer, refs ++ artifactRefs artifact)
  | .recordObservation item => do
      let answer ← (optionally o.recordObservation (stepCall (.recordObservation item))).attempt
      pure (answer, refs)
  | .recordStatus status => do
      let answer ← (optionally o.recordStatus (stepCall (.recordStatus status))).attempt
      pure (answer, refs)

/-- The executor within the step; a throw it lets pass is a plain error. -/
def runExecutor (input : StepInput) (descriptor : CapabilityDescriptor) (executor : Executor) :
    StepProgram (Except CapabilityError Value × List String) := do
  let ended ← Prog.interpret (serveContext S o input descriptor) executor []
  match ended with
  | (.ok outcome, refs) => pure (outcome, refs)
  | (.error message, refs) => pure (.error ⟨none, some message⟩, refs)

/-- The parts of a capability's result that the step reads. -/
structure CapabilityExecutionResult where
  status : CapabilityStepStatus
  output : Value
  structuredErrors : List Value
  artifacts : List Value

/-- A result that failed with one error. -/
def failedResult (code message : String) : CapabilityExecutionResult :=
  ⟨.failed, .undefined, [.obj [("code", .str code), ("message", .str message)]], []⟩

def executeDefinition (input : StepInput) (descriptor : CapabilityDescriptor)
    (definition : CapabilityDefinition) (context : PackExecutionContext) (data : Value) :
    StepProgram (CapabilityExecutionResult × List String) :=
  match definition.inputSchema data with
  | .error message => pure (failedResult "SCHEMA_VALIDATION_FAILED" message, [])
  | .ok parsed => do
      stepCall (.execute descriptor.capabilityId parsed)
      let (outcome, refs) ← runExecutor S o input descriptor (definition.execute context parsed)
      match outcome with
      | .error error =>
          pure (failedResult (error.code.getD "CAPABILITY_EXECUTION_FAILED")
            (error.message.getD "Capability execution failed"), refs)
      | .ok output =>
          match definition.outputSchema output with
          | .error message => pure (failedResult "RESULT_VALIDATION_FAILED" message, refs)
          | .ok parsedOutput => pure (⟨.success, parsedOutput, [], []⟩, refs)

/-- `registry.executeCapability`, a throw of it already caught: it throws for a capability
it does not know and for a missing idempotency key. -/
def executeCapability (input : StepInput) (descriptor : CapabilityDescriptor)
    (context : PackExecutionContext) (data : Value) :
    StepProgram (CapabilityExecutionResult × List String) := do
  stepCall (.executeCapability descriptor.capabilityId data)
  match (packs S o).registry.resolveCapability descriptor.capabilityId with
  | none => pure (failedResult "UNKNOWN_CAPABILITY" "Unknown capability", [])
  | some found =>
      let definition := (packs S o).definition found.capabilityId
      if definition.idempotencyMode = .required ∧ isBlank context.idempotencyKey then
        pure (failedResult "MISSING_IDEMPOTENCY_KEY" "Missing idempotency key", [])
      else executeDefinition S o input descriptor definition context data

/-- The codes that are kept as they are. -/
def allowedErrorCodes : List String :=
  ["INVALID_ARTIFACT", "INVALID_PLAN", "INVALID_DELEGATION_CONTEXT", "SNAPSHOT_MISMATCH",
    "UNKNOWN_MCP_SERVER", "UNKNOWN_CAPABILITY", "CAPABILITY_DIGEST_MISMATCH",
    "SCHEMA_VALIDATION_FAILED", "POLICY_DENIED", "APPROVAL_REQUIRED", "PRECONDITION_FAILED",
    "BUDGET_EXCEEDED", "MCP_EXECUTION_FAILED", "RESULT_VALIDATION_FAILED", "CRITIC_FAILED",
    "REVISION_UNSUPPORTED", "YIELDED"]

def normalizeErrorCode (code : String) : String :=
  if code ∈ allowedErrorCodes then code else "MCP_EXECUTION_FAILED"

/-- A returned error as the step reports it. -/
def normalizedError (input : StepInput) (now intentId : String) (item : Value) : StructuredError where
  code := normalizeErrorCode ((textOf (recordField item "code")).getD "MCP_EXECUTION_FAILED")
  message := (textOf (recordField item "message")).getD "Capability execution failed."
  intentId := some intentId
  taskId := some input.nodeId
  observedAt := now

def statusText : CapabilityStepStatus → String
  | .success => "success"
  | .failed => "failed"
  | .requiresApproval => "requires_approval"
  | .yielded => "yielded"

/-- The output, validated once more unless there is none. -/
def validatedOutput (definition : CapabilityDefinition) : Value → Except String Value
  | .undefined => .ok .undefined
  | output => definition.outputSchema output

/-- The end that what the capability returned leads to. -/
def reported (input : StepInput) (descriptor : CapabilityDescriptor) (now : String)
    (report : PolicyDecisionReport) (result : CapabilityExecutionResult) (refs : List String) :
    StepEnd :=
  let intentId := (intentFromStep input descriptor).intentId
  let refs := refs ++ result.artifacts.flatMap artifactRefs
  match validatedOutput ((packs S o).definition descriptor.capabilityId) result.output with
  | .error message =>
      single S input now (some intentId) (some report) .failed "RESULT_VALIDATION_FAILED" message
        .error "Capability output failed validation." refs
  | .ok _ =>
      { status := result.status
        output := result.output
        outputArtifactRefs := refs
        policyReport := some report
        observations :=
          [observation S.sha256
            (match result.status with
              | .success => .recorded
              | .failed => .error
              | .requiresApproval | .yielded => .skipped)
            (if result.status = .success then "Capability step completed."
              else "Capability step " ++ statusText result.status ++ ".")
            now (some intentId) (some input.nodeId) result.output]
        structuredErrors := result.structuredErrors.map (normalizedError input now intentId) }

/-! ### The step -/

/-- The part of a step after the gate. -/
def afterGate (input : StepInput) (started : Nat) (now : String)
    (descriptor : CapabilityDescriptor) (data : Value) : StepProgram StepResult :=
  let policy := evaluatePolicyWithReport S.dateParse (policyInput S o input descriptor now)
  let stop := fun (status : CapabilityStepStatus) (code message : String)
      (observed : ObservationStatus) =>
    finish S o input started now (single S input now
      (some (intentFromStep input descriptor).intentId) (some policy.2) status code message observed
      message [])
  match policy.1.outcome with
  | .deny => stop .failed "POLICY_DENIED" policy.1.reason .error
  | .yield => stop .yielded "YIELDED" policy.1.reason .skipped
  | .requiresApproval => stop .requiresApproval "APPROVAL_REQUIRED" policy.1.reason .skipped
  | .allow =>
      let mode := executionModeFromDryRun input
      if mode = .mock ∧ S.nodeEnv ≠ some "test" then
        stop .failed "POLICY_DENIED" "Mock execution mode is only allowed in tests." .error
      else if mode = .dryRun then
        stop .yielded "YIELDED"
          "Capability step dry run validated capability, schema, and policy without execution."
          .skipped
      else do
        let (result, refs) ← executeCapability S o input descriptor
          (executionContext S o input descriptor policy.1) data
        finish S o input started now (reported S o input descriptor now policy.2 result refs)

/-- The part of a step after the capability was found and its digest compared. -/
def judgeStep (input : StepInput) (started : Nat) (now : String)
    (descriptor : CapabilityDescriptor) : StepProgram StepResult := do
  emitRunEvent S o input .started now
  match ((packs S o).definition descriptor.capabilityId).inputSchema input.input with
  | .error message => finishFailure S o input started now "SCHEMA_VALIDATION_FAILED" message
  | .ok data => do
      emitRunEvent S o input (.policyEvaluated (evaluatePolicy S.dateParse
        (policyInput S o input descriptor now)).outcome.text) now
      afterGate S o input started now descriptor data

def now : StepProgram String :=
  match o.now with
  | some now => pure now
  | none => instant S

def runCapabilityStep (input : StepInput) : StepProgram StepResult := do
  let started ← stepCall .dateNow
  if input.refined S.isDatetime then do
    let now ← now S o
    match resolveCapabilityForStep (packs S o).registry S.localeCompare input.capabilityRef with
    | none =>
        finishFailure S o input started now "UNKNOWN_CAPABILITY"
          ("Unknown capability: " ++ input.capabilityRef)
    | some descriptor =>
        if descriptor.capabilityDigest ≠ input.capabilityDigest then
          finishFailure S o input started now "CAPABILITY_DIGEST_MISMATCH"
            "Capability digest does not match current registry descriptor."
        else judgeStep S o input started now descriptor
  else .fail (S.zodError "CapabilityStepInput")

end CapabilityStep

end OpenLagrange
