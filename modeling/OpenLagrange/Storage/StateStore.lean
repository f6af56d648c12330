/-
The state store, and the calls the planning code awaits.

A `World` is the memory dialect of the store, together with the artifact index on
disk.  Run records, events and attempts are kept by run id, continuations by their
own id, and plan states by plan id.

A `Call` is one await: an access to the store or to the disk, a node handler, a
capability step, the workflow engine, the clock.  `serve` is what the call does.
`handle` adds the failures: `Env` decides for every moment whether the call throws,
and if so whether it had its effect first.  A value that a schema of the store
refuses is such a throw.
-/
import OpenLagrange.Lib.Prog
import OpenLagrange.Planning.WorkOrder
import OpenLagrange.Runs.RunControl
import OpenLagrange.Runs.RunEvent

namespace OpenLagrange

/-! ### What is stored -/

/-- An artifact as the index lists it. -/
structure ArtifactSummary where
  artifactId : String
  kind : String
  title : String
  summary : String
  pathOrUri : String
  createdAt : String
  relatedRunId : Option String
  relatedPlanId : Option String
  producedByNodeId : Option String
  exportable : Bool
  deriving DecidableEq, Repr

structure World where
  planStates : String → Option PlanState
  executions : String → Option RunExecutionRecord
  continuations : String → Option RunContinuationRecord
  attempts : String → List NodeAttempt
  runEvents : String → List RunEvent
  artifacts : List ArtifactSummary
  /-- How many calls were made. -/
  tick : Nat

/-- A store nothing was recorded in. -/
def World.empty : World where
  planStates := fun _ => none
  executions := fun _ => none
  continuations := fun _ => none
  attempts := fun _ => []
  runEvents := fun _ => []
  artifacts := []
  tick := 0

namespace World

def setPlanState (w : World) (state : PlanState) : World :=
  { w with planStates := Function.update w.planStates state.planId (some state) }

def setExecution (w : World) (record : RunExecutionRecord) : World :=
  { w with executions := Function.update w.executions record.runId (some record) }

def setContinuation (w : World) (record : RunContinuationRecord) : World :=
  { w with continuations := Function.update w.continuations record.continuationId (some record) }

def setAttempts (w : World) (runId : String) (attempts : List NodeAttempt) : World :=
  { w with attempts := Function.update w.attempts runId attempts }

def setEvents (w : World) (runId : String) (events : List RunEvent) : World :=
  { w with runEvents := Function.update w.runEvents runId events }

def setArtifacts (w : World) (artifacts : List ArtifactSummary) : World :=
  { w with artifacts := artifacts }

/-- One moment later. -/
def next (w : World) : World := { w with tick := w.tick + 1 }

end World

/-- Events by time, and by id at one time. -/
def eventLe (P : Platform) (a b : RunEvent) : Bool :=
  match P.localeCompare a.timestamp b.timestamp with
  | .lt => true
  | .gt => false
  | .eq => P.localeCompare a.eventId b.eventId ≠ .gt

def sortEvents (P : Platform) (events : List RunEvent) : List RunEvent :=
  events.insertionSort fun a b => eventLe P a b

/-- An event whose id is already there is dropped. -/
def appendEvent (P : Platform) (events : List RunEvent) (event : RunEvent) : List RunEvent :=
  sortEvents P (if events.any (·.eventId = event.eventId) then events else events ++ [event])

/-- Set one entry of a `Map` from ids to artifacts: in place when the id is there. -/
def setArtifact (index : List ArtifactSummary) (artifact : ArtifactSummary) : List ArtifactSummary :=
  if index.any (·.artifactId = artifact.artifactId) then
    index.map fun a => if a.artifactId = artifact.artifactId then artifact else a
  else index ++ [artifact]

def registerArtifacts (P : Platform) (index artifacts : List ArtifactSummary) :
    List ArtifactSummary :=
  sortByLocale P.localeCompare (·.createdAt) (artifacts.foldl setArtifact index)

/-! ### Capability steps and handlers -/

structure DelegationContext where
  principalId : String
  principalType : String
  delegateId : String
  delegateType : String
  projectId : String
  workspaceId : String
  allowedScopes : List String
  deniedScopes : List String
  allowedCapabilities : List String
  maxRiskLevel : RiskLevel
  approvalRequiredFor : List RiskLevel
  expiresAt : String
  traceId : String
  parentRunId : String
  taskRunId : Option String

structure CapabilityStepInput where
  stepId : String
  planId : String
  nodeId : String
  capabilityRef : String
  capabilityDigest : String
  input : Value
  delegationContext : DelegationContext
  idempotencyKey : String
  inputArtifactRefs : List String
  dryRun : Bool
  traceId : String

inductive CapabilityStepStatus where
  | success | failed | requiresApproval | yielded
  deriving DecidableEq, Repr

/-- The parts of a step's result that the runner reads. -/
structure CapabilityStepResult where
  status : CapabilityStepStatus
  output : Value
  outputArtifactRefs : List String
  structuredErrors : List StructuredError

/-- The events a capability step emits about its node. -/
inductive StepEvent where
  | started
  | completed (artifactRefs : List String)
  | failed (errors : List StructuredError)
  | policyEvaluated (decision : String)
  | approvalRequested
  | artifactCreated (artifactId : String)
  | modelCallCompleted (artifactId role model : String)

def stepAttemptId (input : CapabilityStepInput) : String :=
  if (after "attempt_".toList input.stepId.toList).isSome then input.stepId
  else "attempt_" ++ input.planId ++ "_" ++ input.nodeId ++ "_initial"

def StepEvent.body (input : CapabilityStepInput) : StepEvent → RunEventBody
  | .started => .capabilityStarted ⟨input.nodeId, stepAttemptId input, none⟩ input.capabilityRef
  | .completed refs =>
      .capabilityCompleted ⟨input.nodeId, stepAttemptId input, none⟩ input.capabilityRef refs
  | .failed errors =>
      .capabilityFailed ⟨input.nodeId, stepAttemptId input, none⟩ input.capabilityRef errors
  | .policyEvaluated decision =>
      .policyEvaluated (some input.nodeId) (some input.capabilityRef) decision
  | .approvalRequested =>
      .approvalRequested (some input.nodeId) (input.planId ++ ":" ++ input.nodeId ++ ":approval")
  | .artifactCreated artifactId =>
      .artifactCreated (some input.nodeId) artifactId "capability_step_result"
  | .modelCallCompleted artifactId role model =>
      .modelCallCompleted (some input.nodeId) artifactId role model

/-- How a node can end. -/
inductive NodeOutcome where
  | completed | failed | yielded | skipped
  deriving DecidableEq, Repr

def NodeOutcome.status : NodeOutcome → PlanNodeStatus
  | .completed => .completed
  | .failed => .failed
  | .yielded => .yielded
  | .skipped => .skipped

structure NodeResult where
  status : NodeOutcome
  artifacts : Option (List PlanArtifactRef)
  errors : Option (List String)

/-! ### Calls -/

/-- What the workflow engine, or a promise nobody awaits, is asked to execute. -/
inductive Task where
  | run (runId : String)
  | continuation (continuationId : String)
  | nodeReplay (continuationId : String)
  | cancel (continuationId : String)
  deriving DecidableEq, Repr

structure EventListener where
  runId : String
  timestamp : String

inductive Call where
  | clock
  | anHourFromNow
  | getPlanState (planId : String)
  | recordPlanState (state : PlanState)
  | emitRunEvent (listener : Option EventListener) (planId : String) (body : RunEventBody)
  | compileWorkOrder (plan : Planfile) (nodeId : String) (snapshot : CapabilitySnapshot)
  | handleNode (workOrder : WorkOrder) (plan : Planfile) (node : PlanNode) (state : PlanState)
  | runCapabilityStep (runId : Option String) (input : CapabilityStepInput)
  | getRunExecution (runId : String)
  | recordRunExecution (record : RunExecutionRecord)
  | getRunContinuation (continuationId : String)
  | recordRunContinuation (record : RunContinuationRecord)
  | recordNodeAttempt (attempt : NodeAttempt)
  | listNodeAttempts (runId : String)
  | appendRunEvent (event : RunEvent)
  | listRunEvents (runId : String)
  | listArtifacts
  | registerArtifacts (artifacts : List ArtifactSummary)
  | flushArtifacts (planId outputDir : String)
  | writeFile (path text : String)
  | registerRun (runId : String)
  | submitWorkflow (task : Task)
  | spawn (task : Task)

/-- What a call answers with. -/
abbrev Answer : Call → Type
  | .clock | .anHourFromNow => String
  | .getPlanState _ => Option PlanState
  | .recordPlanState _ => PlanState
  | .compileWorkOrder _ _ _ => WorkOrder
  | .handleNode _ _ _ _ => NodeResult
  | .runCapabilityStep _ _ => CapabilityStepResult
  | .getRunExecution _ => Option RunExecutionRecord
  | .recordRunExecution _ => RunExecutionRecord
  | .getRunContinuation _ => Option RunContinuationRecord
  | .listNodeAttempts _ => List NodeAttempt
  | .listRunEvents _ => List RunEvent
  | .listArtifacts => List ArtifactSummary
  | .flushArtifacts _ _ => List ArtifactSummary
  | .submitWorkflow _ => String
  | _ => Unit

abbrev Program (α : Type) := Prog Call Answer α

abbrev perform (call : Call) : Program (Answer call) := Prog.perform call

/-! ### What a call does -/

/-- Whether and how a call throws. -/
inductive Fault where
  | none
  | before (message : String)
  | after (message : String)

/-- What one capability step does: the events it emits, each at its time, and its end. -/
structure StepRun where
  events : List (String × StepEvent)
  result : Except String CapabilityStepResult

/-- Everything the planning code does not decide, at every moment. -/
structure Env where
  fault : Nat → Fault
  clock : Nat → String
  anHourFromNow : Nat → String
  runCapabilityStep : Nat → CapabilityStepInput → StepRun
  handleNode : Nat → WorkOrder → Planfile → PlanNode → PlanState → Except String NodeResult
  /-- The artifacts that the capability steps of an execution recorded. -/
  recordedArtifacts : Nat → List ArtifactSummary
  submitWorkflow : Nat → Task → Except String String

def serve (P : Platform) (env : Env) (call : Call) (w : World) :
    Except String (Answer call) × World :=
  match call with
  | .clock => (.ok (env.clock w.tick), w)
  | .anHourFromNow => (.ok (env.anHourFromNow w.tick), w)
  | .getPlanState planId => (.ok (w.planStates planId), w)
  | .recordPlanState state => (.ok state, w.setPlanState state)
  | .emitRunEvent none _ _ => (.ok (), w)
  | .emitRunEvent (some listener) planId body =>
      (.ok (), w.setEvents listener.runId (appendEvent P (w.runEvents listener.runId)
        (createRunEvent listener.runId planId listener.timestamp body)))
  | .compileWorkOrder plan nodeId snapshot => (compileWorkOrder P plan nodeId snapshot, w)
  | .handleNode workOrder plan node state => (env.handleNode w.tick workOrder plan node state, w)
  | .runCapabilityStep none input => ((env.runCapabilityStep w.tick input).result, w)
  | .runCapabilityStep (some runId) input =>
      let run := env.runCapabilityStep w.tick input
      (run.result, w.setEvents runId (run.events.foldl (fun events e =>
        appendEvent P events (createRunEvent runId input.planId e.1 (e.2.body input)))
        (w.runEvents runId)))
  | .getRunExecution runId => (.ok (w.executions runId), w)
  | .recordRunExecution record => (.ok record, w.setExecution record)
  | .getRunContinuation id => (.ok (w.continuations id), w)
  | .recordRunContinuation record => (.ok (), w.setContinuation record)
  | .recordNodeAttempt attempt =>
      (.ok (), w.setAttempts attempt.runId
        ((w.attempts attempt.runId).filter (·.attemptId ≠ attempt.attemptId) ++ [attempt]))
  | .listNodeAttempts runId => (.ok (w.attempts runId), w)
  | .appendRunEvent event =>
      (.ok (), w.setEvents event.runId (appendEvent P (w.runEvents event.runId) event))
  | .listRunEvents runId => (.ok (sortEvents P (w.runEvents runId)), w)
  | .listArtifacts => (.ok w.artifacts, w)
  | .registerArtifacts artifacts =>
      (.ok (), w.setArtifacts (registerArtifacts P w.artifacts artifacts))
  | .flushArtifacts _ _ =>
      let recorded := env.recordedArtifacts w.tick
      (.ok recorded, if recorded.length > 0 then
        w.setArtifacts (registerArtifacts P w.artifacts recorded) else w)
  | .writeFile _ _ => (.ok (), w)
  | .registerRun _ => (.ok (), w)
  | .submitWorkflow task => (env.submitWorkflow w.tick task, w)
  | .spawn _ => (.ok (), w)

/-- Reading the clock, telling nobody and leaving a promise behind cannot throw. -/
def Call.mayThrow : Call → Bool
  | .clock | .anHourFromNow | .emitRunEvent none _ _ | .spawn _ => false
  | _ => true

@[simp] theorem World.next_planStates (w : World) : w.next.planStates = w.planStates := rfl
@[simp] theorem World.next_executions (w : World) : w.next.executions = w.executions := rfl
@[simp] theorem World.next_continuations (w : World) : w.next.continuations = w.continuations := rfl
@[simp] theorem World.next_attempts (w : World) : w.next.attempts = w.attempts := rfl
@[simp] theorem World.next_runEvents (w : World) : w.next.runEvents = w.runEvents := rfl
@[simp] theorem World.next_artifacts (w : World) : w.next.artifacts = w.artifacts := rfl

def Env.faultAt (env : Env) (call : Call) (w : World) : Fault :=
  if call.mayThrow then env.fault w.tick else .none

def handle (P : Platform) (env : Env) : Prog.Handler Call Answer World := fun call w =>
  match env.faultAt call w with
  | .none => ((serve P env call w).1, (serve P env call w).2.next)
  | .before message => (.error message, w.next)
  | .after message => (.error message, (serve P env call w).2.next)

/-! ### What a call leaves alone -/

variable {P : Platform} {env : Env} {call : Call} {w : World}

/-- The state after a call, moments apart, is the served one or the one before. -/
theorem handle_world (call : Call) (w : World) :
    (handle P env call w).2 = (serve P env call w).2.next ∨ (handle P env call w).2 = w.next := by
  unfold handle
  cases env.faultAt call w with
  | none => exact Or.inl rfl
  | before m => exact Or.inr rfl
  | after m => exact Or.inl rfl

/-- An answer comes from a call that was served. -/
theorem handle_ok {a : Answer call} (h : (handle P env call w).1 = .ok a) :
    (serve P env call w).1 = .ok a ∧ (handle P env call w).2 = (serve P env call w).2.next := by
  unfold handle at h ⊢
  cases hf : env.faultAt call w with
  | none =>
      rw [hf] at h
      exact ⟨h, rfl⟩
  | before m =>
      rw [hf] at h
      cases h
  | after m =>
      rw [hf] at h
      cases h

/-- Without failures a call is served. -/
theorem handle_noFault (hf : env.fault w.tick = .none) :
    handle P env call w = ((serve P env call w).1, (serve P env call w).2.next) := by
  unfold handle Env.faultAt
  rw [hf]
  cases call.mayThrow <;> rfl

/-- A call that keeps `view` when it is served keeps it. -/
theorem handle_view {V : Type} {view : World → V} (hnext : ∀ w, view w.next = view w)
    (hserve : view (serve P env call w).2 = view w) : view (handle P env call w).2 = view w := by
  have hworld : (handle P env call w).2 = (serve P env call w).2.next ∨
      (handle P env call w).2 = w.next := handle_world call w
  rcases hworld with h | h
  · rw [h, hnext, hserve]
  · rw [h, hnext]

end OpenLagrange
