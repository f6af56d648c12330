/-
What a capability step is given and what it returns.

A step names a capability, carries the input and the delegation it runs under, and is
given a registry to resolve the capability in.  The registry holds a descriptor and a
definition for each capability: the descriptor is what the gate judges, the definition
is what runs.  A definition's executor is a program over what its context offers it, so
that what it records is part of it and the hooks behind the context can fail it.

The schemas of a definition belong to the pack that brings it: a schema maps a value to
the parsed value or to the message it refuses it with.
-/
import OpenLagrange.Policy.PolicyGate
import OpenLagrange.Util.Text

namespace OpenLagrange

/-! ### Capabilities and their executors -/

inductive SideEffectKind where
  | none | filesystemRead | filesystemWrite | networkRead | networkWrite | processExecution
  | cloudControlPlane | repositoryMutation | ticketMutation | messageSend
  deriving DecidableEq, Repr

def SideEffectKind.text : SideEffectKind → String
  | .none => "none"
  | .filesystemRead => "filesystem_read"
  | .filesystemWrite => "filesystem_write"
  | .networkRead => "network_read"
  | .networkWrite => "network_write"
  | .processExecution => "process_execution"
  | .cloudControlPlane => "cloud_control_plane"
  | .repositoryMutation => "repository_mutation"
  | .ticketMutation => "ticket_mutation"
  | .messageSend => "message_send"

inductive IdempotencyMode where
  | required | recommended | notApplicable
  deriving DecidableEq, Repr

/-- The data an executor finds in its context. -/
structure PackExecutionContext where
  delegationContext : DelegationContext
  capabilitySnapshotId : String
  projectId : String
  workspaceId : String
  taskRunId : String
  traceId : String
  idempotencyKey : String
  policyDecision : PolicyGateResult
  executionBounds : ExecutionBounds
  timeoutMs : Nat
  runtimeConfig : List (String × Value)

/-- What an executor can ask its context for. -/
inductive ContextCall where
  | recordArtifact (artifact : Value)
  | recordObservation (item : Value)
  | recordStatus (status : Value)

/-- What an executor throws: an error of the pack interface has a code, any other error a
message, and a thrown value that is no error has neither. -/
structure CapabilityError where
  code : Option String
  message : Option String
  deriving DecidableEq, Repr

/-- An executor at work: what it asks its context for, and what it returns or throws.
Whatever else it does is its own affair. -/
abbrev Executor := Prog ContextCall (fun _ => Unit) (Except CapabilityError Value)

structure CapabilityDefinition where
  sideEffectKind : SideEffectKind
  idempotencyMode : IdempotencyMode
  timeoutMs : Nat
  inputSchema : Value → Except String Value
  outputSchema : Value → Except String Value
  execute : PackExecutionContext → Value → Executor

/-- What the descriptor schema checks beyond the shape. -/
def CapabilityDescriptor.refined (d : CapabilityDescriptor) : Bool :=
  nonempty d.capabilityId && nonempty d.packId && nonempty d.name && isSha256Hex d.capabilityDigest

/-- The packs that are registered: registering one parses its descriptors. -/
structure RegisteredPacks where
  registry : PackRegistry
  /-- The definition registered with the descriptor of the given id. -/
  definition : String → CapabilityDefinition
  refined : ∀ d ∈ registry.capabilities, d.refined = true

/-! ### The step's input -/

structure StepInput where
  stepId : Option String
  planId : String
  nodeId : String
  capabilityRef : String
  capabilityDigest : String
  input : Value
  delegationContext : DelegationContext
  idempotencyKey : String
  inputArtifactRefs : List String
  executionMode : Option ExecutionMode
  dryRun : Bool
  traceId : Option String

/-- The step the plan runner asks for: it names the step and the trace, and no mode. -/
def CapabilityStepInput.asStep (input : CapabilityStepInput) : StepInput where
  stepId := some input.stepId
  planId := input.planId
  nodeId := input.nodeId
  capabilityRef := input.capabilityRef
  capabilityDigest := input.capabilityDigest
  input := input.input
  delegationContext := input.delegationContext
  idempotencyKey := input.idempotencyKey
  inputArtifactRefs := input.inputArtifactRefs
  executionMode := none
  dryRun := input.dryRun
  traceId := some input.traceId

def DelegationContext.refined (isDatetime : String → Bool) (c : DelegationContext) : Bool :=
  nonempty c.principalId && c.principalType ∈ ["human", "service", "runtime"] &&
    nonempty c.delegateId && c.delegateType ∈ ["reconciler", "service", "runtime"] &&
    nonempty c.projectId && nonempty c.workspaceId && isDatetime c.expiresAt &&
    nonempty c.traceId && nonempty c.parentRunId && c.taskRunId.all nonempty

def StepInput.refined (isDatetime : String → Bool) (input : StepInput) : Bool :=
  input.stepId.all nonempty && nonempty input.planId && nonempty input.nodeId &&
    nonempty input.capabilityRef && isSha256Hex input.capabilityDigest &&
    input.delegationContext.refined isDatetime && nonempty input.idempotencyKey &&
    input.inputArtifactRefs.all nonempty && input.traceId.all nonempty

def executionModeFromDryRun (input : StepInput) : ExecutionMode :=
  match input.executionMode with
  | some mode => mode
  | none => if input.dryRun then .dryRun else .live

/-! ### The step's result -/

inductive ObservationStatus where
  | recorded | skipped | error
  deriving DecidableEq, Repr

def ObservationStatus.text : ObservationStatus → String
  | .recorded => "recorded"
  | .skipped => "skipped"
  | .error => "error"

structure Observation where
  observationId : String
  intentId : Option String
  taskId : Option String
  status : ObservationStatus
  summary : String
  output : Value
  observedAt : String

/-- An observation, named after the hash of all it says; an output that is not given is
no property of the hashed object. -/
def observation (sha256 : String → String) (status : ObservationStatus) (summary now : String)
    (intentId taskId : Option String) (output : Value) : Observation where
  observationId := "observation_" ++ firstChars 16 (stableHash sha256 (stripUndefined
    [("status", some (.str status.text)), ("summary", some (.str summary)), ("now", some (.str now)),
      ("intent_id", intentId.map .str), ("task_id", taskId.map .str),
      ("output", match output with | .undefined => none | v => some v)]))
  intentId
  taskId
  status
  summary
  output
  observedAt := now

/-- All that a step returns. -/
structure StepResult extends CapabilityStepResult where
  executionMode : ExecutionMode
  policyReport : Option PolicyDecisionReport
  observations : List Observation
  durationMs : Nat
  startedAt : String
  completedAt : String

section Refined

variable (isDatetime : String → Bool)

def PolicyDecisionReport.refined (r : PolicyDecisionReport) : Bool :=
  nonempty r.capabilityRef && nonempty r.packId && nonempty r.sideEffectKind &&
    nonempty r.principalId && nonempty r.delegateId && isDatetime r.createdAt

def Observation.refined (o : Observation) : Bool :=
  nonempty o.observationId && isDatetime o.observedAt

def StepResult.refined (r : StepResult) : Bool :=
  r.outputArtifactRefs.all nonempty && r.policyReport.all (·.refined isDatetime) &&
    r.observations.all (·.refined isDatetime) && r.structuredErrors.all (·.refined isDatetime) &&
    isDatetime r.startedAt && isDatetime r.completedAt

end Refined

/-! ### Artifacts as an executor records them -/

/-- The ids of an artifact: its own and those its lineage lists. -/
def artifactRefs (artifact : Value) : List String :=
  let outputRefs :=
    match recordField (recordField artifact "lineage") "output_artifact_refs" with
    | .arr items => items.filterMap textOf
    | _ => []
  distinct ((textOf (recordField artifact "artifact_id")).toList ++ outputRefs)

/-- The artifact of a model call, where this is one. -/
def modelCallArtifactRef (artifact : Value) : Option String :=
  match (textOf (recordField (recordField artifact "metadata") "model_call_artifact_id")).filter
      (· ≠ "") with
  | some direct => some direct
  | none =>
      if textOf (recordField artifact "kind") = some "model_call" then
        (textOf (recordField artifact "artifact_id")).filter (· ≠ "")
      else none

/-- The properties of a value that is spread into an object. -/
def spread : Value → List (String × Value)
  | .obj fields => fields
  | .arr items => items.zipIdx.map fun (item, index) => (toString index, item)
  | _ => []

/-- Set a property: in place when it is there, last otherwise. -/
def setField (fields : List (String × Value)) (name : String) (value : Value) :
    List (String × Value) :=
  if fields.any (·.1 = name) then fields.map fun f => if f.1 = name then (name, value) else f
  else fields ++ [(name, value)]

/-- Set a property unless the record has a value for it. -/
def defaultField (fields : List (String × Value)) (name : String) (value : Value) :
    List (String × Value) :=
  let present := recordField (.obj fields) name
  setField fields name (if present.isNullish then value else present)

/-- An artifact with its lineage filled in from the step that records it. -/
def withLineage (artifact : Value) (input : StepInput) (descriptor : CapabilityDescriptor) : Value :=
  if artifact.isObject then
    let mode := Value.str (executionModeFromDryRun input).text
    let lineage := defaultField (defaultField (defaultField (defaultField (defaultField
      (spread (recordField artifact "lineage"))
      "produced_by_pack_id" (.str descriptor.packId))
      "produced_by_capability_id" (.str descriptor.capabilityId))
      "produced_by_plan_id" (.str input.planId))
      "produced_by_node_id" (.str input.nodeId))
      "input_artifact_refs" (strings input.inputArtifactRefs)
    .obj (setField (defaultField (defaultField (spread artifact) "execution_mode" mode)
      "source_mode" mode) "lineage" (.obj lineage))
  else artifact

end OpenLagrange
