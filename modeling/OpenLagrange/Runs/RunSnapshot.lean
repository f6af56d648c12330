/-
The snapshot of a run: what a client is shown.

A snapshot is put together from the run's events, the stored state of its plan, its
attempts, its record and the artifact index.  When the caller hands a Planfile in,
the record is not read, and the status is taken from the events.
-/
import OpenLagrange.Storage.StateStore

namespace OpenLagrange

inductive RunNodeStatus where
  | pending | ready | running | requiresApproval | yielded | failed | completed | skipped
  deriving DecidableEq, Repr

structure RunNodeSnapshot where
  nodeId : String
  title : String
  kind : String
  status : RunNodeStatus
  currentAttemptId : Option String
  attempts : List NodeAttempt
  startedAt : Option String
  completedAt : Option String
  capabilityRefs : List String
  artifactRefs : List String
  errorRefs : List String
  approvalRefs : List String
  deriving DecidableEq, Repr

structure RunArtifactSummary where
  artifactId : String
  kind : String
  title : String
  summary : String
  pathOrUri : String
  createdAt : String
  nodeId : Option String
  exportable : Bool
  deriving DecidableEq, Repr

structure ApprovalRequestSummary where
  approvalId : String
  status : String
  title : String
  summary : String
  nodeId : Option String
  requestedAt : Option String
  resolvedAt : Option String
  deriving DecidableEq, Repr

structure ModelCallSummary where
  artifactId : String
  title : String
  summary : String
  role : String
  model : String
  createdAt : String
  nodeId : Option String
  deriving DecidableEq, Repr

structure RunSnapshot where
  runId : String
  planId : String
  planTitle : Option String
  status : DurableRunStatus
  runtime : RunRuntime
  activeNodeId : Option String
  nodes : List RunNodeSnapshot
  timeline : List RunEvent
  artifacts : List RunArtifactSummary
  approvals : List ApprovalRequestSummary
  modelCalls : List ModelCallSummary
  errors : List StructuredError
  nextActions : List NextAction
  startedAt : Option String
  completedAt : Option String
  builderSessionId : Option String
  planMarkdown : Option String
  deriving DecidableEq, Repr

/-! ### Reading the events -/

def PlanNodeStatus.shown : PlanNodeStatus → RunNodeStatus
  | .pending => .pending
  | .ready => .ready
  | .running => .running
  | .completed => .completed
  | .failed => .failed
  | .yielded => .yielded
  | .skipped => .skipped

namespace RunEventBody

def isNodeStarted : RunEventBody → Bool
  | nodeStarted _ => true
  | _ => false

def isNodeCompleted : RunEventBody → Bool
  | nodeCompleted _ _ => true
  | _ => false

def isNodeFailed : RunEventBody → Bool
  | nodeFailed _ _ => true
  | _ => false

def isNodeYielded : RunEventBody → Bool
  | nodeYielded _ _ _ => true
  | _ => false

def isNodeTerminal (body : RunEventBody) : Bool :=
  body.isNodeCompleted || body.isNodeFailed || body.isNodeYielded

/-- The status a run ends in with this event. -/
def endStatus : RunEventBody → Option DurableRunStatus
  | runCompleted _ => some .completed
  | runFailed _ => some .failed
  | runYielded _ _ => some .yielded
  | runCancelled _ => some .cancelled
  | _ => none

end RunEventBody

/-- A stored status wins; only a node the state does not list is judged by its events. -/
def snapshotNodeStatus (status : Option PlanNodeStatus) (events : List RunEvent) : RunNodeStatus :=
  match status with
  | some status => status.shown
  | none =>
      if events.any (·.body.isNodeCompleted) then .completed
      else if events.any (·.body.isNodeFailed) then .failed
      else if events.any (·.body.isNodeYielded) then .yielded
      else if events.any (·.body.isNodeStarted) then .running
      else .pending

def terminalRunEvent (events : List RunEvent) : Option RunEvent :=
  events.reverse.find? (·.body.endStatus.isSome)

def runStatus (events : List RunEvent) (planStatus : Option PlanStatus) : DurableRunStatus :=
  match (terminalRunEvent events).bind (·.body.endStatus) with
  | some status => status
  | none =>
      if events.any fun e => e.body = .runStarted ∨ e.body.isNodeStarted then .running
      else
        match planStatus with
        | some .completed => .completed
        | some .failed => .failed
        | some .yielded => .yielded
        | some .running => .running
        | _ => .queued

def terminalTimestamp (events : List RunEvent) : Option String :=
  (events.reverse.find? (·.body.isNodeTerminal)).map (·.timestamp)

def activeNode (events : List RunEvent) (nodes : List RunNodeSnapshot) : Option String :=
  let running := events.reverse.find? fun event => event.body.isNodeStarted &&
    !events.any fun candidate =>
      candidate.body.isNodeTerminal && (candidate.body.nodeId = event.body.nodeId : Bool)
  (running.bind (·.body.nodeId)).or
    (((nodes.find? (·.status = .running)).map (·.nodeId)).or
      (((nodes.find? fun n => n.status = .yielded ∨ n.status = .requiresApproval).map (·.nodeId)).or
        ((nodes.find? (·.status = .failed)).map (·.nodeId))))

def eventArtifactRefs (event : RunEvent) : List String :=
  match event.body with
  | .artifactCreated _ artifactId _ | .modelCallCompleted _ artifactId _ _ => [artifactId]
  | .runCompleted refs | .nodeCompleted _ refs | .capabilityCompleted _ _ refs => refs
  | _ => []

/-- Set one entry of a `Map` from ids to approvals: in place when the id is there. -/
def setApproval (approvals : List ApprovalRequestSummary) (approval : ApprovalRequestSummary) :
    List ApprovalRequestSummary :=
  if approvals.any (·.approvalId = approval.approvalId) then
    approvals.map fun a => if a.approvalId = approval.approvalId then approval else a
  else approvals ++ [approval]

def buildApprovals (events : List RunEvent) : List ApprovalRequestSummary :=
  events.foldl
    (fun approvals event =>
      match event.body with
      | .approvalRequested nodeId approvalId =>
          setApproval approvals
            ⟨approvalId, "requested", "Approval", "Approval requested.", nodeId,
              some event.timestamp, none⟩
      | .approvalResolved nodeId approvalId approved =>
          let existing := approvals.find? (·.approvalId = approvalId)
          setApproval approvals
            ⟨approvalId, if approved then "approved" else "rejected",
              if approved then "Approval granted" else "Approval rejected",
              "Approval " ++ (if approved then "approved" else "rejected") ++ ".",
              nodeId.or (existing.bind (·.nodeId)), existing.bind (·.requestedAt),
              some event.timestamp⟩
      | _ => approvals)
    []

/-! ### The snapshot -/

/-- What a snapshot is put together from. -/
structure SnapshotSources where
  events : List RunEvent
  planfile : Option Planfile
  run : Option RunExecutionRecord
  planState : Option PlanState
  attempts : List NodeAttempt
  artifactIndex : List ArtifactSummary

/-- A node as the snapshot starts from it: its id, title, kind and capabilities. -/
structure NodeDefinition where
  nodeId : String
  title : String
  kind : String
  capabilityRefs : List String

namespace SnapshotSources

variable (P : Platform) (s : SnapshotSources)

def nodeEvents (nodeId : String) : List RunEvent :=
  s.events.filter (·.body.nodeId = some nodeId)

def planId? : Option String :=
  (((s.events.find? (·.body = .runCreated)).map (·.planId)).or
    ((s.run.map (·.planId)).or (s.planfile.map (·.planId)))).filter (· ≠ "")

def nodeDefinitions : List NodeDefinition :=
  match s.planfile with
  | some plan =>
      plan.nodes.map fun node => ⟨node.id, node.title, node.kind.text, node.allowedCapabilityRefs⟩
  | none =>
      match s.planState with
      | some state =>
          state.nodeStates.map fun node =>
            let events := s.nodeEvents node.nodeId
            ⟨node.nodeId, (events.findSome? (·.body.title)).getD node.nodeId,
              (events.findSome? fun e =>
                match e.body with
                | .artifactCreated _ _ kind => some kind
                | _ => none).getD "node",
              distinct ((events.filterMap (·.body.capabilityRef)).filter (· ≠ ""))⟩
      | none => []

def attemptLe (a b : NodeAttempt) : Bool := a.attemptNumber ≤ b.attemptNumber

def nodeSnapshot (node : NodeDefinition) : RunNodeSnapshot :=
  let state := s.planState.bind (·.node? node.nodeId)
  let events := s.nodeEvents node.nodeId
  let attempts := (s.attempts.filter (·.nodeId = node.nodeId)).insertionSort fun a b => attemptLe a b
  { nodeId := node.nodeId
    title := node.title
    kind := node.kind
    status := snapshotNodeStatus (state.map (·.status)) events
    currentAttemptId := attempts.getLast?.map (·.attemptId)
    attempts
    startedAt := ((state.bind (·.startedAt)).filter (· ≠ "")).or
      ((events.find? (·.body.isNodeStarted)).map (·.timestamp))
    completedAt := ((state.bind (·.completedAt)).filter (· ≠ "")).or (terminalTimestamp events)
    capabilityRefs := node.capabilityRefs
    artifactRefs := distinct (((state.map (·.artifacts)).getD []).map (·.artifactId) ++
      events.flatMap eventArtifactRefs)
    errorRefs := distinct
      ((((state.map (·.errors)).getD []).zipIdx.map fun (error, index) =>
        node.nodeId ++ ":error:" ++ toString index ++ ":" ++ firstChars 24 error) ++
      (events.filter fun e => e.body.type = "node.failed" ∨ e.body.type = "capability.failed").map
        (·.eventId))
    approvalRefs := (events.filterMap (·.body.approvalId)).filter (· ≠ "") }

/-- The artifact ids that the events, the plan state and the record of the run name. -/
def artifactIds : List String :=
  s.events.flatMap eventArtifactRefs ++
    ((s.planState.map (·.artifactRefs)).getD []).map (·.artifactId) ++
    (s.run.map (·.artifactRefs)).getD []

/-- Whether the snapshot of the run lists an artifact of the index. -/
def lists (runId planId : String) (artifact : ArtifactSummary) : Bool :=
  artifact.artifactId ∈ s.artifactIds ∨ artifact.relatedRunId = some runId ∨
    artifact.relatedPlanId = some planId

def indexedArtifacts (runId planId : String) : List RunArtifactSummary :=
  (s.artifactIndex.filter (s.lists runId planId)).map fun a =>
    ⟨a.artifactId, a.kind, a.title, a.summary, a.pathOrUri, a.createdAt, a.producedByNodeId,
      a.exportable⟩

/-- The kinds an artifact of the index can have, as far as events name them. -/
def artifactKinds : List String :=
  ["planfile", "skill_frame", "workflow_skill", "pack_build_plan", "generated_pack",
    "pack_manifest", "pack_validation_report", "pack_test_report", "pack_install_report",
    "pack_smoke_report", "policy_decision_report", "evidence_bundle", "patch_plan_context",
    "patch_plan", "patch_validation_report", "patch_artifact", "final_patch_artifact",
    "scope_expansion_request", "repair_patch_plan", "repair_decision", "verification_report",
    "review_report", "source_search_results", "source_snapshot", "source_text", "source_set",
    "research_brief", "citation_index", "markdown_export", "capability_step_result",
    "approval_request", "execution_timeline", "worktree_session", "model_call", "raw_log",
    "edited_planfile_snapshot", "planfile_update_report", "planfile_diff", "regenerated_planfile",
    "validation_report", "simulation_report", "plan_check_report", "plan_library_manifest",
    "plan_template", "saved_planfile", "artifact_selection", "run_digest", "run_packet",
    "artifact_manifest", "html_export", "pdf_export", "artifact_bundle", "zip_export"]

def eventOnlyArtifacts (indexed : List RunArtifactSummary) : List RunArtifactSummary :=
  s.events.filterMap fun event =>
    match event.body with
    | .artifactCreated nodeId artifactId kind =>
        if indexed.any (·.artifactId = artifactId) then none
        else
          some ⟨artifactId, if kind ∈ artifactKinds then kind else "capability_step_result", kind,
            kind ++ " artifact created.", "artifact://" ++ artifactId, event.timestamp, nodeId, true⟩
    | _ => none

def modelCalls : List ModelCallSummary :=
  s.events.filterMap fun event =>
    match event.body with
    | .modelCallCompleted nodeId artifactId role model =>
        let artifact := s.artifactIndex.reverse.find? (·.artifactId = artifactId)
        some ⟨artifactId, (artifact.map (·.title)).getD "Model call",
          (artifact.map (·.summary)).getD ("Model call completed with " ++ model ++ "."), role, model,
          event.timestamp, nodeId⟩
    | _ => none

def stateErrors : List StructuredError :=
  match s.planState with
  | some state =>
      state.nodeStates.flatMap fun node => node.errors.map fun message =>
        ⟨"MCP_EXECUTION_FAILED", message, none, some node.nodeId,
          node.completedAt.getD state.updatedAt⟩
  | none => []

def eventErrors : List StructuredError :=
  s.events.flatMap fun event =>
    match event.body with
    | .runFailed errors | .nodeFailed _ errors | .capabilityFailed _ _ errors => errors
    | _ => []

/-- The actions the last yield proposed, unless it proposed none. -/
def yieldedActions : List NextAction :=
  match s.events.reverse.findSome? fun event =>
    match event.body with
    | .runYielded _ actions | .nodeYielded _ _ actions => some actions
    | _ => none with
  | some actions => actions
  | none => []

def status : DurableRunStatus :=
  (s.run.map (·.status)).getD (runStatus s.events (s.planState.map (·.status)))

/-- The snapshot of a run, if anything says which plan it runs. -/
def snapshot (runId : String) : Option RunSnapshot :=
  s.planId?.map fun planId =>
    let nodes := s.nodeDefinitions.map s.nodeSnapshot
    let indexed := s.indexedArtifacts runId planId
    let artifacts := indexed ++ s.eventOnlyArtifacts indexed
    let approvals := buildApprovals s.events
    let errors := s.stateErrors ++ s.eventErrors
    let activeNodeId := (s.run.bind (·.activeNodeId)).or (activeNode s.events nodes)
    let terminal := s.status ∈ [DurableRunStatus.completed, .failed, .yielded, .cancelled]
    { runId
      planId
      planTitle := ((s.run.bind (·.planTitle)).or
        (s.planfile.map (·.goalFrame.interpretedGoal))).filter (· ≠ "")
      status := s.status
      runtime := (s.run.map (·.runtime)).getD .localDev
      activeNodeId
      nodes
      timeline := s.events
      artifacts
      approvals
      modelCalls := s.modelCalls
      errors
      nextActions :=
        if s.yieldedActions.length > 0 then s.yieldedActions
        else
          deriveRunNextActions runId s.status.text activeNodeId
            (approvals.map fun a => ⟨a.approvalId, a.status⟩)
            (artifacts.map fun a => ⟨a.artifactId, a.exportable⟩) (errors.map (·.message))
      startedAt := (s.run.bind (·.startedAt)).or
        (((s.events.find? (·.body = .runStarted)).map (·.timestamp)).or
          (s.planState.map (·.createdAt)))
      completedAt := (s.run.bind (·.completedAt)).or
        (((terminalRunEvent s.events).map (·.timestamp)).or
          (if terminal then s.planState.map (·.updatedAt) else none))
      builderSessionId := s.planfile.bind fun p => p.lifecycle.bind (·.builderSessionId)
      planMarkdown := (s.planState.bind (·.markdownProjection)).filter (· ≠ "") }

end SnapshotSources

/-- A stored Planfile, unless the schema refuses it. -/
def parseStoredPlanfile (P : Platform) (planfile : Planfile) : Option Planfile :=
  if planfile.refined P.isDatetime then some planfile else none

/-- The record of the run, read only when no Planfile is handed in. -/
def snapshotRun (runId : String) : Option Planfile → Program (Option RunExecutionRecord)
  | some _ => pure none
  | none => perform (.getRunExecution runId)

def buildRunSnapshot (P : Platform) (runId : String) (planfile : Option Planfile) :
    Program (Option RunSnapshot) := do
  let events ← perform (.listRunEvents runId)
  let run ← snapshotRun runId planfile
  let planfile := planfile.or (run.bind fun record => parseStoredPlanfile P record.planfile)
  match (SnapshotSources.mk events planfile run none [] []).planId? with
  | none => pure none
  | some planId => do
      let planState ← perform (.getPlanState planId)
      let attempts ← perform (.listNodeAttempts runId)
      let artifactIndex ← perform .listArtifacts
      pure ((SnapshotSources.mk events planfile run planState attempts artifactIndex).snapshot runId)

end OpenLagrange
