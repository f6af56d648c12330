/-
The control plane: creating, executing, resuming, retrying and cancelling runs.

A request handler records what is wanted and hands the work to the workflow engine.
Without an engine the work is left to a promise nobody awaits; both appear here as a
call that names the task, `submitWorkflow` and `spawn`.  The work itself is
`executeStoredRun`, `executeRunContinuation` or `executeRunCancellation`.

A continuation does two things: it resets part of the stored plan state, and it
executes the run again.  A resume resets the nodes that failed or yielded, a retry
resets one node and everything that depends on it.
-/
import OpenLagrange.Planning.PlanRunner
import OpenLagrange.Runs.RunSnapshot

namespace OpenLagrange

structure ApplyPlanfileInput where
  planfile : Planfile
  live : Option Bool
  outputDir : Option String
  runId : Option String
  now : Option String

structure CreateRunResult where
  runId : String
  snapshot : RunSnapshot
  state : PlanState

structure RunActionResult where
  runId : String
  status : String
  continuationId : Option String
  hatchetRunId : Option String
  snapshot : Option RunSnapshot
  message : String

variable (P : Platform)

/-! ### Small helpers -/

/-- The given instant, or the present one. -/
def nowOr (now : Option String) : Program String :=
  match now with
  | some now => pure now
  | none => perform .clock

/-- `Planfile.parse`. -/
def parsePlanfile (planfile : Planfile) : Program Planfile :=
  if planfile.refined P.isDatetime then pure planfile
  else .fail ("; ".intercalate ((P.schemaIssues planfile).map (·.1)))

/-- The id the workflow engine gives a task, or `none` when there is no engine. -/
def trySubmit (task : Task) : Program (Option String) :=
  Prog.tryCatch
    (do
      let id ← perform (.submitWorkflow task)
      pure (if id = "" then none else some id))
    (fun _ => pure none)

def validationMessage (validation : PlanValidationResult) : String :=
  "; ".intercalate (validation.issues.map (·.message))

def runIdForPlan (plan : Planfile) (now : String) : String :=
  "plan_" ++ firstChars 16 (stableHash P.sha256 (.obj [("plan_id", .str plan.planId),
    ("digest", (plan.canonicalPlanDigest.map Value.str).getD .undefined), ("now", .str now)]))

def resumeContinuationId (runId now : String) : String :=
  "cont_" ++ firstChars 16 (stableHash P.sha256 (.obj [("run_id", .str runId),
    ("kind", .str "resume"), ("now", .str now)]))

def cancelContinuationId (runId now : String) : String :=
  "cont_" ++ firstChars 16 (stableHash P.sha256 (.obj [("run_id", .str runId),
    ("kind", .str "cancel"), ("now", .str now)]))

/-- The hash both the attempt and the continuation of a retry are named after. -/
def retryHash (runId nodeId : String) (mode : RetryReplayMode) (now : String) : String :=
  firstChars 16 (stableHash P.sha256 (.obj [("run_id", .str runId), ("node_id", .str nodeId),
    ("replay_mode", .str mode.text), ("now", .str now)]))

def retryAttemptId (runId nodeId : String) (mode : RetryReplayMode) (now : String) : String :=
  "attempt_" ++ retryHash P runId nodeId mode now

def retryContinuationId (runId nodeId : String) (mode : RetryReplayMode) (now : String) : String :=
  "cont_" ++ retryHash P runId nodeId mode now

/-- The plan a live run executes: applied with approval, and no node dry-run by itself. -/
def livePlan (plan : Planfile) (now : String) : Planfile :=
  { plan with
    mode := .apply
    status := .validated
    goalFrame := { plan.goalFrame with suggestedMode := .applyWithApproval }
    nodes := plan.nodes.map fun node =>
      { node with
        executionMode :=
          if node.executionMode = none ∨ node.executionMode = some .dryRun then some .live
          else node.executionMode }
    updatedAt := now }

def liveExecutionPlan (plan : Planfile) (now : String) : Program Planfile := do
  let parsed ← parsePlanfile P (livePlan plan now)
  pure (withCanonicalPlanDigest P.sha256 parsed)

/-- The plan as it is recorded when a run is requested. -/
def requestedPlan (planfile : Planfile) (live : Option Bool) (now : String) : Program Planfile := do
  let parsed ← parsePlanfile P planfile
  let base ← parsePlanfile P { parsed with status := .validated, updatedAt := now }
  let basePlan := withCanonicalPlanDigest P.sha256 base
  if live = some true then liveExecutionPlan P basePlan now else pure basePlan

/-- The record of a new run; the plan carries its digest here. -/
def canonicalRun (runId : String) (plan : Planfile) (outputDir : Option String) (now : String) :
    RunExecutionRecord where
  runId
  planId := plan.planId
  planDigest := plan.canonicalPlanDigest.getD ""
  planTitle := some plan.goalFrame.interpretedGoal
  runtime := .localDev
  status := .queued
  planfile := plan
  hatchetRunId := none
  outputDir := outputDir.filter (· ≠ "")
  lastContinuationId := none
  createdAt := now
  updatedAt := now
  startedAt := none
  completedAt := none
  activeNodeId := none
  artifactRefs := []
  approvalRefs := []
  modelCallRefs := []
  errorRefs := []

def recordCanonicalRun (runId : String) (plan : Planfile) (outputDir : Option String)
    (now : String) : Program RunExecutionRecord :=
  perform (.recordRunExecution (canonicalRun runId plan outputDir now))

/-- The capabilities a run may use: those its plan refers to, to read only. -/
def readSnapshot (capabilityRefs : List String) (now : String) : CapabilitySnapshot :=
  createCapabilitySnapshotForTask P.sha256 P.localeCompare P.registry
    ⟨["research:read", "project:read"], capabilityRefs, .read⟩ now

def Planfile.capabilityRefs (plan : Planfile) : List String :=
  plan.nodes.flatMap (·.allowedCapabilityRefs)

def prepareRunState (plan : Planfile) (runId now : String) : Program PlanState :=
  let validation := validatePlanfile P (some (readSnapshot P plan.capabilityRefs now)) plan
  if validation.ok then do
    let recorded ← perform (.recordPlanState (initialPlanState P plan now))
    perform (.appendRunEvent (createRunEvent runId plan.planId now .runCreated))
    pure recorded
  else .fail (validationMessage validation)

/-! ### Executing a plan -/

/-- The text without `start` in front. -/
def dropStart (start text : String) : String :=
  match after start.toList text.toList with
  | some rest => String.ofList rest
  | none => text

def createMockDelegationContext (workspaceId delegateId projectId : String)
    (allowedScopes : List String) (expiresAt : String) : DelegationContext where
  principalId := "human-local"
  principalType := "human"
  delegateId
  delegateType := "reconciler"
  projectId
  workspaceId
  allowedScopes
  deniedScopes := ["project:write"]
  allowedCapabilities := ["read_file", "search_docs", "draft_readme_summary"]
  maxRiskLevel := .read
  approvalRequiredFor := [.write, .destructive, .externalSideEffect]
  expiresAt
  traceId := "trace_" ++ dropStart "project_" projectId
  parentRunId := "project_run_" ++ dropStart "project_" projectId
  taskRunId := none

/-- A non-empty text of the execution context. -/
def stringContext (plan : Planfile) (key : String) : Option String :=
  match plan.contextField key with
  | .str s => if s = "" then none else some s
  | _ => none

structure LiveRunInput where
  plan : Planfile
  now : String
  outputDir : Option String
  runId : Option String

/-- The options the control plane gives its runner: no handlers, the clock pinned. -/
def liveRunnerOptions (input : LiveRunInput) (expiresAt : String) : PlanRunnerOptions where
  capabilitySnapshot := readSnapshot P (distinct input.plan.capabilityRefs) input.now
  handlers := fun _ => false
  registry := none
  delegationContext :=
    let context := createMockDelegationContext
      ((stringContext input.plan "workspace_id").getD "workspace-local")
      "open-lagrange-local-plan-runner" input.plan.planId ["project:read", "research:read"] expiresAt
    some { context with
      allowedCapabilities := distinct input.plan.capabilityRefs
      maxRiskLevel := .read
      taskRunId := some input.plan.planId }
  runId := some (input.runId.getD (runIdForPlan P input.plan input.now))
  emitRunEvent := true
  now := some input.now

/-- The index entry of the rendered Planfile. -/
def planArtifact (plan : Planfile) (planPath now : String) : ArtifactSummary where
  artifactId := "planfile_" ++ firstChars 16
    (stableHash P.sha256 (.obj [("plan_id", .str plan.planId)]))
  kind := "planfile"
  title := "Planfile " ++ plan.planId
  summary := "Planfile markdown projection for local live execution."
  pathOrUri := planPath
  createdAt := now
  relatedRunId := none
  relatedPlanId := some plan.planId
  producedByNodeId := none
  exportable := true

def ArtifactSummary.ref (a : ArtifactSummary) : PlanArtifactRef :=
  ⟨a.artifactId, .capabilityStepResult, a.pathOrUri, a.summary, a.createdAt⟩

/-- The state a finished execution records: the runner's, with the recorded artifacts. -/
def finishedState (state : PlanState) (artifacts : List ArtifactSummary) (now : String) : PlanState :=
  { state with
    artifactRefs := state.artifactRefs ++ artifacts.map (·.ref)
    updatedAt := now }

def artifactsDir (input : LiveRunInput) : String :=
  (input.outputDir.filter (· ≠ "")).getD
    (".open-lagrange/plans/" ++ input.plan.planId ++ "/artifacts")

/-- What follows the runner: the artifacts and the Planfile reach the disk, the state the store. -/
def publishRun (input : LiveRunInput) (state : PlanState) : Program PlanState := do
  let artifacts ← perform (.flushArtifacts input.plan.planId (artifactsDir input))
  let planPath := ".open-lagrange/plans/" ++ input.plan.planId ++ "/planfile.plan.md"
  perform (.writeFile planPath
    (state.markdownProjection.getD (P.renderPlanfileMarkdown input.plan)))
  perform (.registerArtifacts [planArtifact P input.plan planPath input.now])
  perform (.registerRun (input.runId.getD (runIdForPlan P input.plan input.now)))
  perform (.recordPlanState (finishedState state artifacts input.now))

def executeLiveLocalPlanfile (input : LiveRunInput) : Program PlanState :=
  let snapshot := readSnapshot P (distinct input.plan.capabilityRefs) input.now
  let validation := validatePlanfile P (some snapshot) input.plan
  if validation.ok then do
    let expiresAt ← perform .anHourFromNow
    let result ← PlanRunner.runToCompletion P (liveRunnerOptions P input expiresAt) input.plan
    publishRun P input result.state
  else .fail (validationMessage validation)

/-! ### Executing a run -/

/-- The record of a run that starts executing. -/
def startedRecord (record : RunExecutionRecord) (startedAt updatedAt : String) :
    RunExecutionRecord :=
  { record with
    status := .running, startedAt := some (record.startedAt.getD startedAt), updatedAt }

/-- The record of a run that was executed, from what its snapshot shows. -/
def concludedRecord (latest : RunExecutionRecord) (snapshot : RunSnapshot) (updatedAt : String) :
    RunExecutionRecord :=
  { latest with
    status := snapshot.status
    completedAt := snapshot.completedAt
    artifactRefs := snapshot.artifacts.map (·.artifactId)
    approvalRefs := snapshot.approvals.map (·.approvalId)
    modelCallRefs := snapshot.modelCalls.map (·.artifactId)
    errorRefs := snapshot.errors.zipIdx.map fun (error, index) => error.code ++ ":" ++ toString index
    updatedAt }

/-- Store what the snapshot shows in the latest record of the run. -/
def concludeRun (runId : String) (snapshot : Option RunSnapshot) : Program Unit := do
  let latest ← perform (.getRunExecution runId)
  match latest, snapshot with
  | some latest, some snapshot => do
      let updatedAt ← perform .clock
      let _ ← perform (.recordRunExecution (concludedRecord latest snapshot updatedAt))
      pure ()
  | _, _ => pure ()

/-- Execute the run that `record` was read for. -/
def executeRecordedRun (runId : String) (record : RunExecutionRecord) :
    Program (Option RunSnapshot) := do
  let startedAt ← perform .clock
  let updatedAt ← perform .clock
  let _ ← perform (.recordRunExecution (startedRecord record startedAt updatedAt))
  let plan ← parsePlanfile P record.planfile
  let now ← perform .clock
  let _ ← executeLiveLocalPlanfile P ⟨plan, now, record.outputDir, some runId⟩
  let snapshot ← buildRunSnapshot P runId (some plan)
  concludeRun runId snapshot
  pure snapshot

def executeStoredRun (runId : String) : Program (Option RunSnapshot) := do
  match ← perform (.getRunExecution runId) with
  | none => pure none
  | some record => executeRecordedRun P runId record

def executeRunCancellation (continuationId : String) : Program (Option RunSnapshot) := do
  match ← perform (.getRunContinuation continuationId) with
  | none => pure none
  | some continuation =>
      match ← perform (.getRunExecution continuation.runId) with
      | none => pure none
      | some record => do
          let now ← perform .clock
          let _ ← perform (.recordRunExecution { record with status := .cancelled, updatedAt := now })
          perform (.recordRunContinuation { continuation with status := .completed, updatedAt := now })
          perform (.appendRunEvent (createRunEvent record.runId record.planId now
            (.runCancelled (some "Run cancelled."))))
          let plan ← parsePlanfile P record.planfile
          buildRunSnapshot P record.runId (some plan)

/-! ### Continuations -/

def resetPlanNodeState (node : PlanNodeState) (status : PlanNodeStatus) (reuseArtifacts : Bool) :
    PlanNodeState where
  nodeId := node.nodeId
  status
  startedAt := node.startedAt.filter (· ≠ "")
  completedAt := none
  artifacts := if reuseArtifacts then node.artifacts else []
  errors := []

/-- One pass over the nodes, adding each one that depends on a node collected so far. -/
def dependentsPass (plan : Planfile) (result : List String) : List String × Bool :=
  plan.nodes.foldl
    (fun acc node =>
      if node.id ∉ acc.1 ∧ ∃ dependency ∈ node.dependsOn, dependency ∈ acc.1 then
        (acc.1 ++ [node.id], true)
      else acc)
    (result, false)

/-- Passes until one adds nothing; `none` when there were not enough of them. -/
def dependentsLoop (plan : Planfile) : Nat → List String → Option (List String)
  | 0, _ => none
  | passes + 1, result =>
      let pass := dependentsPass plan result
      if pass.2 then dependentsLoop plan passes pass.1 else some pass.1

/-- The node and all that depend on it; one pass more than there are nodes is enough. -/
def dependentNodeIds (plan : Planfile) (nodeId : String) : Option (List String) :=
  dependentsLoop plan (plan.nodes.length + 1) [nodeId]

/-- The nodes a continuation resets. -/
def resetNodeIds (plan : Planfile) (state : PlanState) (continuation : RunContinuationRecord) :
    List String :=
  match continuation.kind, continuation.nodeId.filter (· ≠ "") with
  | .retry, some nodeId => (dependentNodeIds plan nodeId).getD []
  | _, _ => (state.nodeStates.filter (·.status.isStopped)).map (·.nodeId)

/-- The plan state a continuation leaves for the execution that follows. -/
def continuedState (plan : Planfile) (state : PlanState) (continuation : RunContinuationRecord)
    (now : String) : PlanState :=
  { state with
    status := .running
    nodeStates := state.nodeStates.map fun node =>
      if node.nodeId ∈ resetNodeIds plan state continuation then
        resetPlanNodeState node
          (if some node.nodeId = continuation.nodeId ∨ continuation.kind = .resume then .ready
            else .pending)
          (continuation.replayMode = some .reuseArtifacts)
      else node
    updatedAt := now }

/-- Reset the stored state, if there is one. -/
def resetStoredState (plan : Planfile) (continuation : RunContinuationRecord) : Program Unit := do
  match ← perform (.getPlanState plan.planId) with
  | none => pure ()
  | some state => do
      let now ← perform .clock
      let _ ← perform (.recordPlanState (continuedState plan state continuation now))
      pure ()

/-- Reset, and execute the run of the continuation again. -/
def continueRun (continuation : RunContinuationRecord) (plan : Planfile) :
    Program (Option RunSnapshot) := do
  resetStoredState plan continuation
  let now ← perform .clock
  perform (.recordRunContinuation { continuation with status := .running, updatedAt := now })
  let snapshot ← executeStoredRun P continuation.runId
  let now ← perform .clock
  perform (.recordRunContinuation { continuation with
    status := if snapshot.map (·.status) = some .failed then .failed else .completed
    updatedAt := now })
  pure snapshot

def executeRunContinuation (continuationId : String) : Program (Option RunSnapshot) := do
  match ← perform (.getRunContinuation continuationId) with
  | none => pure none
  | some continuation =>
      match ← perform (.getRunExecution continuation.runId) with
      | none => pure none
      | some record =>
          if continuation.kind = .cancel then executeRunCancellation P continuationId
          else do
            let plan ← parsePlanfile P record.planfile
            continueRun P continuation plan

/-! ### Requests -/

/-- Record the engine's id for a queued continuation, or leave the work to a promise. -/
def handOver (continuation : RunContinuationRecord) (task : Task) (left : Program Unit) :
    Program (Option String) := do
  match ← trySubmit task with
  | some hatchetRunId => do
      let now ← perform .clock
      perform (.recordRunContinuation { continuation with
        hatchetRunId := some hatchetRunId, updatedAt := now })
      pure (some hatchetRunId)
  | none => do
      left
      pure none

def missing (runId message : String) : RunActionResult :=
  ⟨runId, "missing", none, none, none, message⟩

/-- The answer to an accepted request, with the snapshot of the moment. -/
def accepted (runId continuationId : String) (hatchetRunId : Option String) (message : String) :
    Program RunActionResult := do
  let snapshot ← buildRunSnapshot P runId none
  pure ⟨runId, "queued", some continuationId, hatchetRunId, snapshot, message⟩

def resumeRun (runId : String) (now : Option String) : Program RunActionResult := do
  let now ← nowOr now
  match ← perform (.getRunExecution runId) with
  | none => pure (missing runId "Run was not found.")
  | some _ => do
      let continuation : RunContinuationRecord :=
        ⟨resumeContinuationId P runId now, runId, .resume, .queued, none, none, none, now, now⟩
      perform (.recordRunContinuation continuation)
      let hatchetRunId ← handOver continuation (.continuation continuation.continuationId)
        (perform (.spawn (.continuation continuation.continuationId)))
      accepted P runId continuation.continuationId hatchetRunId "Run resume requested."

/-- The attempt that a retry records before its continuation; the earlier ones are listed twice. -/
def retryAttempt (record : RunExecutionRecord) (node : PlanNode) (mode : RetryReplayMode)
    (policy : ReplayPolicyDecision) (prior counted : List NodeAttempt) (runId now : String) :
    NodeAttempt :=
  let attemptId := retryAttemptId P runId node.id mode now
  { attemptId
    runId
    planId := record.planId
    nodeId := node.id
    attemptNumber := counted.length + 1
    replayMode := mode
    idempotencyKey :=
      if mode = .forceNewIdempotencyKey then runId ++ ":" ++ node.id ++ ":" ++ attemptId
      else runId ++ ":" ++ node.id ++ ":replay:" ++ mode.text
    previousAttemptId := prior.getLast?.map (·.attemptId)
    inputArtifactRefs := []
    outputArtifactRefs := []
    status := if policy.requiresApproval = some true then .requiresApproval else .running
    startedAt := now
    completedAt := none }

/-- Record the attempt and the continuation of a retry that the policy allows. -/
def requestRetry (record : RunExecutionRecord) (node : PlanNode) (mode : RetryReplayMode)
    (policy : ReplayPolicyDecision) (runId now : String) : Program RunActionResult := do
  let attempts ← perform (.listNodeAttempts runId)
  let counted ← perform (.listNodeAttempts runId)
  perform (.recordNodeAttempt (retryAttempt P record node mode policy
    (attempts.filter (·.nodeId = node.id)) (counted.filter (·.nodeId = node.id)) runId now))
  let continuation : RunContinuationRecord :=
    ⟨retryContinuationId P runId node.id mode now, runId, .retry, .queued, some node.id, some mode,
      none, now, now⟩
  perform (.recordRunContinuation continuation)
  let hatchetRunId ← handOver continuation (.nodeReplay continuation.continuationId)
    (perform (.spawn (.continuation continuation.continuationId)))
  accepted P runId continuation.continuationId hatchetRunId "Run retry requested."

def retryRunNode (runId nodeId replayMode : String) (now : Option String) :
    Program RunActionResult :=
  match apiReplayMode replayMode with
  | .error message => .fail message
  | .ok mode => do
      let now ← nowOr now
      match ← perform (.getRunExecution runId) with
      | none => pure (missing runId "Run was not found.")
      | some record => do
          let plan ← parsePlanfile P record.planfile
          match plan.node? nodeId with
          | none => pure (missing runId ("Node was not found: " ++ nodeId))
          | some node =>
              let policy := evaluateNodeReplayPolicy node (some mode)
              if policy.ok then requestRetry P record node mode policy runId now
              else
                pure ⟨runId, "failed", none, none, none,
                  policy.reason.getD "Retry replay policy denied the request."⟩

def cancelRun (runId : String) (now : Option String) : Program RunActionResult := do
  let now ← nowOr now
  match ← perform (.getRunExecution runId) with
  | none => pure (missing runId "Run was not found.")
  | some record => do
      let continuationId := cancelContinuationId P runId now
      let _ ← perform (.recordRunExecution { record with
        status := .cancelled
        completedAt := some now
        lastContinuationId := some continuationId
        updatedAt := now })
      let continuation : RunContinuationRecord :=
        ⟨continuationId, runId, .cancel, .queued, none, none, none, now, now⟩
      perform (.recordRunContinuation continuation)
      perform (.appendRunEvent (createRunEvent runId record.planId now
        (.runCancelled (some "Cancellation requested."))))
      let hatchetRunId ← handOver continuation (.cancel continuationId)
        (do
          let _ ← executeRunCancellation P continuationId
          pure ())
      accepted P runId continuationId hatchetRunId "Run cancellation requested."

/-! ### Creating runs -/

/-- Record a plan that is not executed live. -/
def recordPlannedRun (plan : Planfile) (runId : String) (outputDir : Option String)
    (now : String) : Program PlanState :=
  let snapshot := createCapabilitySnapshotForTask P.sha256 P.localeCompare P.registry ⟨[], [], .read⟩ now
  let validation := validatePlanfile P (some snapshot) plan
  if validation.ok then do
    let recorded ← perform (.recordPlanState (initialPlanState P plan now))
    let _ ← recordCanonicalRun runId plan outputDir now
    perform (.appendRunEvent (createRunEvent runId plan.planId now .runCreated))
    pure recorded
  else .fail (validationMessage validation)

def applyPlanfile (input : ApplyPlanfileInput) : Program PlanState := do
  let now ← nowOr input.now
  let plan ← requestedPlan P input.planfile input.live now
  if input.live = some true then
    executeLiveLocalPlanfile P ⟨plan, now, input.outputDir, input.runId⟩
  else recordPlannedRun P plan (input.runId.getD (runIdForPlan P plan now)) input.outputDir now

/-- Hand a new live run over to the workflow engine, or to a promise. -/
def startRun (record : RunExecutionRecord) : Program Unit := do
  match ← trySubmit (.run record.runId) with
  | some hatchetRunId => do
      let startedAt ← perform .clock
      let updatedAt ← perform .clock
      let _ ← perform (.recordRunExecution { record with
        hatchetRunId := some hatchetRunId
        runtime := .hatchet
        status := .running
        startedAt := some startedAt
        updatedAt })
      pure ()
  | none => perform (.spawn (.run record.runId))

/-- The state a new run starts from. -/
def createRunState (plan : Planfile) (input : ApplyPlanfileInput) (runId now : String) :
    Program PlanState :=
  if input.live = some true then do
    let state ← prepareRunState P plan runId now
    let record ← recordCanonicalRun runId plan input.outputDir now
    startRun record
    pure state
  else applyPlanfile P ⟨plan, input.live, input.outputDir, some runId, some now⟩

def createRunFromPlanfile (input : ApplyPlanfileInput) : Program CreateRunResult := do
  let now ← nowOr input.now
  let plan ← requestedPlan P input.planfile input.live now
  let runId := input.runId.getD (runIdForPlan P plan now)
  let state ← createRunState P plan input runId now
  match ← buildRunSnapshot P runId (some plan) with
  | none => .fail ("Run snapshot was not created for " ++ runId ++ ".")
  | some snapshot => pure ⟨runId, snapshot, state⟩

end OpenLagrange
