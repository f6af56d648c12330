/-
The repository plan runner.

The runner walks the nodes of a plan in listing order, from the first one or from the node it
resumes at.  For each it marks the node running, works on it, and marks it with its outcome; a
failed or yielded outcome ends the walk.  Then the final patch is exported, whatever came before.

What the source keeps in `this.status`, `this.artifacts` and in its memory is here a value, the
`Execution`, which each step takes and returns.  Patch and repair nodes treat the patch plan they
are given in one way, but for their texts and for the outcome of a refusal; the source writes it
twice, and `examinePatchPlan` states it once.
-/
import OpenLagrange.Planning.PlanRunner
import OpenLagrange.Repository.EvidenceCollector

namespace OpenLagrange

structure RepositoryPlanRunnerOptions where
  planfile : Planfile
  session : WorktreeSession
  initialStatus : Option RepositoryPlanStatus
  resumeFromNodeId : Option String
  approvedScopeRequest : Option PersistedScopeExpansionRequest
  expandedFiles : Option (List String)
  expandedVerificationCommands : Option (List String)
  /-- Whether a generator of review reports is given. -/
  hasReviewReportGenerator : Bool
  now : Option String

structure RepositoryExecutionMemory where
  evidence : Option EvidenceBundle
  patchPlan : Option RepositoryPatchPlan
  patchArtifactId : Option String
  patchArtifacts : List RepositoryPatchArtifact
  verification : Option RepositoryVerificationReport
  verificationReports : List RepositoryVerificationReport
  repairs : List RepairAttempt
  review : Option RepositoryReviewReport
  changedFiles : List String
  patchValidationReportIds : List String
  scopeExpansionRequestIds : List String

/-- What changes while a runner works. -/
structure Execution where
  status : RepositoryPlanStatus
  artifacts : List RepositoryArtifact
  memory : RepositoryExecutionMemory

/-- A runner as its constructor leaves it. -/
structure RepositoryRunner where
  now : String
  plan : Planfile
  session : WorktreeSession
  status : RepositoryPlanStatus

structure RepositoryNodeResult where
  status : NodeOutcome
  artifactRefs : List PlanArtifactRef
  errors : List String
  deriving DecidableEq

structure RepositoryPlanRunnerResult where
  state : PlanState
  status : RepositoryPlanStatus
  artifacts : List RepositoryArtifact

/-! ### Marking a node -/

/-- The status of the plan once a node was marked. -/
def markedPlanStatus (status : PlanNodeStatus) (errors : List String)
    (nodeStates : List PlanNodeState) : PlanStatus :=
  if status = .yielded then .yielded
  else if status = .failed ∨ (errors.length > 0 ∧ status ≠ .skipped) then .failed
  else if nodeStates.all (·.status.isDone) then .completed
  else .running

/-- The states of the nodes with one of them marked; `completedAt` is read unless it is running. -/
def markNodeStates (nodeStates : List PlanNodeState) (nodeId : String) (status : PlanNodeStatus)
    (artifacts : List PlanArtifactRef) (errors : List String) (completedAt : String) :
    List PlanNodeState :=
  nodeStates.map fun item =>
    if item.nodeId = nodeId then
      { item with
        status, artifacts, errors
        completedAt := if status = .running then item.completedAt else some completedAt }
    else item

def markedPlan (plan : Planfile) (status : PlanStatus) (nodeStates : List PlanNodeState)
    (artifactRefs : List PlanArtifactRef) : Planfile :=
  { plan with
    status
    nodes := plan.nodes.map fun candidate =>
      match nodeStates.find? fun item => item.nodeId = candidate.id with
      | some item =>
          { candidate with status := item.status, artifacts := item.artifacts, errors := item.errors }
      | none => candidate
    artifactRefs }

def markedRepositoryState (P : RepositoryPlatform) (plan : Planfile) (state : PlanState)
    (nodeId : String) (status : PlanNodeStatus) (artifacts : List PlanArtifactRef)
    (errors : List String) (completedAt updatedAt : String) : PlanState :=
  let nodeStates := markNodeStates state.nodeStates nodeId status artifacts errors completedAt
  let planStatus := markedPlanStatus status errors nodeStates
  { state with
    status := planStatus
    nodeStates
    artifactRefs := state.artifactRefs ++ artifacts
    markdownProjection := some (P.renderPlanfileMarkdown
      (markedPlan plan planStatus nodeStates (state.artifactRefs ++ artifacts)))
    updatedAt }

/-! ### Artifacts -/

/-- The kind under which a plan lists an artifact. -/
def RepositoryArtifactKind.planKind : RepositoryArtifactKind → PlanArtifactKind
  | .finalPatchArtifact => .finalPatchArtifact
  | .reviewReport => .reviewReport
  | .verificationReport => .verificationReport
  | .patchArtifact => .patchArtifact
  | .patchPlan | .repairPatchPlan => .patchPlan
  | .evidenceBundle => .evidenceBundle
  | _ => .rawLog

def planArtifactRef (artifact : RepositoryArtifact) : PlanArtifactRef :=
  ⟨artifact.artifactId, artifact.kind.planKind, artifact.pathOrUri, artifact.summary,
    artifact.createdAt⟩

def evidenceSummary (evidence : EvidenceBundle) : String :=
  toString evidence.files.length ++ " file(s), " ++ toString evidence.findings ++ " finding(s)."

def changedSummary (changedFiles : List String) : String :=
  toString changedFiles.length ++ " changed file(s)."

/-- The summary of the changes that a model or a reviewer is given. -/
def diffSummary (changedFiles : List String) : String :=
  toString changedFiles.length ++ " changed file(s): " ++ ", ".intercalate changedFiles

/-- What a patch plan may refer to. -/
def EvidenceBundle.refs (evidence : EvidenceBundle) : List String :=
  [evidence.evidenceBundleId, evidence.artifactId] ++ evidence.files

def defaultPatchPolicy (allowedFiles deniedFiles allowedVerificationCommandIds : List String) :
    PatchPolicy :=
  ⟨allowedFiles, deniedFiles, true, 32000, false, allowedVerificationCommandIds⟩

/-- How patch nodes and repair nodes differ in what they do with a patch plan. -/
structure PatchVariant where
  planKind : RepositoryArtifactKind
  planTitle : String
  validationTitle : String
  validationPassed : String
  validationFailed : String
  approvalText : String
  /-- How the node ends when the plan is not valid. -/
  refusal : NodeOutcome

def initialPatch : PatchVariant :=
  ⟨.patchPlan, "Patch Plan", "Patch Validation Report", "Patch validation passed.",
    "Patch validation failed.", "PatchPlan requires approval: ", .failed⟩

def repairPatch : PatchVariant :=
  ⟨.repairPatchPlan, "Repair Patch Plan", "Repair Patch Validation Report",
    "Repair patch validation passed.", "Repair patch validation failed.",
    "Repair PatchPlan requires approval: ", .yielded⟩

namespace RepositoryPlanRunner

variable (P : RepositoryPlatform) (o : RepositoryPlanRunnerOptions)

/-! ### The constructor -/

def readNow : RepositoryProgram String :=
  match o.now with
  | some now => pure now
  | none => await .clock

/-- The status that says that the plan runs. -/
def startedStatus (plan : Planfile) (session : WorktreeSession) (now : String) :
    RepositoryPlanStatus :=
  { o.initialStatus.getD (createRepositoryPlanStatus plan.planId now) with
    status := .running
    worktreeSession := some session
    currentNode := some (o.resumeFromNodeId.getD "frame_goal")
    updatedAt := now }

def construct : RepositoryProgram RepositoryRunner := do
  let now ← readNow o
  if !o.planfile.refined P.isDatetime then
    .fail ("; ".intercalate ((P.schemaIssues o.planfile).map (·.1)))
  else if !P.isDatetime now then .fail "Invalid RepositoryPlanStatus"
  else do
    let plan := withCanonicalPlanDigest P.sha256 o.planfile
    let updatedAt ← await .clock
    let session := { o.session with status := .running, updatedAt }
    await (.writeStatus (startedStatus o plan session now))
    pure ⟨now, plan, session, startedStatus o plan session now⟩

/-! ### Bookkeeping -/

variable (r : RepositoryRunner)

def writeStatus (x : Execution) (patch : RepositoryPlanStatus → RepositoryPlanStatus) :
    RepositoryProgram Execution := do
  let updatedAt ← await .clock
  let status := { patch x.status with updatedAt }
  await (.writeStatus status)
  pure { x with status }

def recordArtifact (x : Execution) (kind : RepositoryArtifactKind) (title summary : String)
    (content : ArtifactContent) : RepositoryProgram (RepositoryArtifact × Execution) := do
  let written ← await (.recordArtifact kind title content)
  let artifact : RepositoryArtifact :=
    ⟨written.artifactId, kind, title, summary, written.pathOrUri, written.createdAt⟩
  pure (artifact, { x with artifacts := x.artifacts ++ [artifact] })

def markNode (state : PlanState) (node : PlanNode) (status : PlanNodeStatus)
    (artifacts : List PlanArtifactRef) (errors : List String) : RepositoryProgram PlanState := do
  let completedAt ← await .clock
  let updatedAt ← await .clock
  let marked :=
    markedRepositoryState P r.plan state node.id status artifacts errors completedAt updatedAt
  await (.recordPlanState marked)
  pure marked

/-! ### Evidence -/

def collectEvidence (workspace : RepositoryWorkspace) (node : PlanNode) :
    RepositoryProgram EvidenceBundle :=
  collectEvidenceBundle P r.plan.planId node.id r.plan.goalFrame.interpretedGoal workspace
    (o.expandedFiles.getD ((o.approvedScopeRequest.bind (·.requestedFiles)).getD []))

/-- The evidence at hand, or evidence collected now. -/
def ensureEvidence (title : String) (workspace : RepositoryWorkspace) (node : PlanNode)
    (x : Execution) : RepositoryProgram (EvidenceBundle × Execution) :=
  match x.memory.evidence with
  | some evidence => pure (evidence, x)
  | none => do
      let evidence ← collectEvidence P o r workspace node
      let x := { x with memory := { x.memory with evidence := some evidence } }
      let (artifact, x) ← recordArtifact x .evidenceBundle title (evidenceSummary evidence)
        (.evidence evidence)
      let x ← writeStatus x fun status =>
        { status with
          artifactRefs := distinct (status.artifactRefs ++ [artifact.artifactId])
          evidenceBundleIds := distinct (status.evidenceBundleIds ++ [evidence.evidenceBundleId]) }
      pure (evidence, x)

/-! ### Patch plans -/

inductive GeneratedPatchPlan where
  | generated (patchPlan : RepositoryPatchPlan) (policy : PatchPolicy)
      (contextArtifact : RepositoryArtifact)
  | ended (result : RepositoryNodeResult)

def allowedFiles (evidence : EvidenceBundle) : List String :=
  distinct (evidence.files ++ o.expandedFiles.getD [])

def patchPolicy (node : PlanNode) (evidence : EvidenceBundle) : PatchPolicy :=
  defaultPatchPolicy (allowedFiles o evidence) []
    (distinct (node.verificationCommandIds.getD r.plan.verificationPolicy.allowedCommandIds ++
      o.expandedVerificationCommands.getD []))

/-- What the answer to the request for a patch plan means for the node. -/
def generatedPatchPlan (evidence : EvidenceBundle) (policy : PatchPolicy)
    (contextArtifact : RepositoryArtifact) : Except String PatchPlanGeneration → GeneratedPatchPlan
  | .error message => .ended ⟨.failed, [planArtifactRef contextArtifact], [message]⟩
  | .ok (.unavailable message) => .ended ⟨.yielded, [planArtifactRef contextArtifact], [message]⟩
  | .ok (.patchPlan patchPlan) =>
      if patchPlan.refined P.isDatetime then
        let unknownRefs := patchPlan.evidenceRefs.filter (· ∉ evidence.refs)
        if unknownRefs.length > 0 then
          .ended ⟨.yielded, [planArtifactRef contextArtifact],
            ["PatchPlan referenced unknown evidence: " ++ ", ".intercalate unknownRefs]⟩
        else .generated patchPlan policy contextArtifact
      else
        .ended ⟨.failed, [planArtifactRef contextArtifact], ["Invalid RepositoryPatchPlan"]⟩

def generatePatchPlan (node : PlanNode) (evidence : EvidenceBundle) (mode : PatchMode)
    (latestFailures : Option (List VerificationFailure)) (currentDiffSummary : Option String)
    (x : Execution) : RepositoryProgram (GeneratedPatchPlan × Execution) := do
  let workOrder ← await (.createPatchPlanWorkOrder node evidence latestFailures)
  let policy := patchPolicy o r node evidence
  let input : GeneratePatchPlanFromEvidenceInput :=
    ⟨r.plan.planId, node.id, workOrder, evidence, allowedFiles o evidence, policy, latestFailures,
      currentDiffSummary, mode⟩
  let (contextArtifact, x) ← recordArtifact x .patchPlanContext
    (if mode = .repair then "Repair PatchPlan Context" else "PatchPlan Context")
    "Redacted evidence-only PatchPlan generation context." (.context input)
  -- what is thrown here is caught
  let answer ← (await (.generatePatchPlan input)).attempt
  pure (generatedPatchPlan P evidence policy contextArtifact answer, x)

structure ScopeResult where
  requestId : String
  artifact : RepositoryArtifact
  message : String

/-- The request that a node waits for, as the status lists it. -/
def scopeExpansionEntry (request : PersistedScopeExpansionRequest) (approval : ScopeApproval) :
    RepositoryScopeExpansionStatus where
  request := { request with approvalId := some approval.approvalRequestId }
  approvalRequestId := approval.approvalRequestId
  requestDigest := some (scopeExpansionRequestDigest P.sha256 request.toRequest)
  approvalStatus := approval.decision
  resumeStatus := some .notReady
  suggestedApproveCommand :=
    "open-lagrange repo scope approve " ++ approval.approvalRequestId ++ " --reason \"<reason>\""
  suggestedRejectCommand :=
    "open-lagrange repo scope reject " ++ approval.approvalRequestId ++ " --reason \"<reason>\""
  suggestedResumeCommand := some ("open-lagrange repo resume " ++ r.plan.planId)

/-- The request of a patch plan, checked against the node and completed; both may throw. -/
def scopeRequestOf (node : PlanNode) (evidence : EvidenceBundle) (request : ScopeExpansionRequest) :
    Except String PersistedScopeExpansionRequest :=
  match validateScopeExpansionRequest request r.plan.planId node.id evidence.refs with
  | .error message => .error message
  | .ok request =>
      normalizeScopeExpansionRequest P.isDatetime request r.plan.planId node.id
        (request.workOrderId.getD ("work_order_" ++ firstChars 18 (stableHash P.sha256 (.obj
          [("plan", .str r.plan.planId), ("node", .str node.id),
            ("evidence", .str evidence.evidenceBundleId)]))))
        r.now

def handleScopeExpansionIfNeeded (node : PlanNode) (patchPlan : RepositoryPatchPlan)
    (evidence : EvidenceBundle) (x : Execution) :
    RepositoryProgram (Option ScopeResult × Execution) :=
  if !patchPlan.requiresScopeExpansion then pure (none, x)
  else
    match patchPlan.scopeExpansionRequest with
    | none => do
        let (artifact, x) ← recordArtifact x .scopeExpansionRequest "Invalid Scope Expansion Request"
          "PatchPlan requested scope expansion without a request."
          (.missingScopeRequest patchPlan.patchPlanId)
        pure (some ⟨"scope_missing_" ++ firstChars 18 (P.patchPlanHash patchPlan), artifact,
          "PatchPlan requested scope expansion without a request."⟩, x)
    | some request =>
        match scopeRequestOf P r node evidence request with
        | .error message => .fail message
        | .ok request => do
            let approval ← await (.createScopeExpansionApproval request)
            let (artifact, x) ← recordArtifact x .scopeExpansionRequest "Scope Expansion Request"
              request.reason (.scopeRequest request)
            let x ← writeStatus x fun status =>
              { status with
                scopeExpansionRequestIds :=
                  distinct (status.scopeExpansionRequestIds ++ [request.requestId])
                scopeExpansionRequests :=
                  status.scopeExpansionRequests ++ [scopeExpansionEntry P r request approval] }
            pure (some ⟨request.requestId, artifact,
              "Scope expansion requires approval: " ++ request.requestId⟩, x)

def createPatchApproval (node : PlanNode) (patchPlan : RepositoryPatchPlan) (x : Execution) :
    RepositoryProgram (RepositoryArtifact × Execution) := do
  let decision ← await (.createPatchApproval node.id patchPlan)
  recordArtifact x .approvalRequest "Patch Approval Request" patchPlan.summary
    (.approval patchPlan.patchPlanId decision)

inductive ExaminedPatchPlan where
  | ended (result : RepositoryNodeResult)
  /-- The plan may be applied; with the artifacts so far. -/
  | accepted (artifactRefs : List PlanArtifactRef)

/-- From the generated plan to the point where it is applied; `lead` are the artifacts before it. -/
def examinePatchPlan (variant : PatchVariant) (workspace : RepositoryWorkspace) (node : PlanNode)
    (evidence : EvidenceBundle) (lead : List PlanArtifactRef) (patchPlan : RepositoryPatchPlan)
    (policy : PatchPolicy) (x : Execution) :
    RepositoryProgram (ExaminedPatchPlan × Execution) := do
  let x := { x with memory := { x.memory with patchPlan := some patchPlan } }
  let (planArtifact, x) ← recordArtifact x variant.planKind variant.planTitle patchPlan.summary
    (.patchPlan patchPlan)
  let refs := lead ++ [planArtifactRef planArtifact]
  let (scopeResult, x) ← handleScopeExpansionIfNeeded P r node patchPlan evidence x
  match scopeResult with
  | some scope =>
      pure (.ended ⟨.yielded, refs ++ [planArtifactRef scope.artifact], [scope.message]⟩,
        { x with
          memory := { x.memory with
            scopeExpansionRequestIds := x.memory.scopeExpansionRequestIds ++ [scope.requestId] } })
  | none => do
      let validation ← await (.validatePatchPlan workspace patchPlan policy)
      let (validationArtifact, x) ← recordArtifact x .patchValidationReport variant.validationTitle
        (if validation.valid then variant.validationPassed else variant.validationFailed)
        (.validation validation)
      let x := { x with
        memory := { x.memory with
          patchValidationReportIds :=
            x.memory.patchValidationReportIds ++ [validationArtifact.artifactId] } }
      let refs := refs ++ [planArtifactRef validationArtifact]
      if !validation.valid then
        pure (.ended ⟨variant.refusal, refs, validation.violations.map (·.message)⟩, x)
      else if validation.approvalRequired then do
        let (approvalArtifact, x) ← createPatchApproval node patchPlan x
        pure (.ended ⟨.yielded, refs ++ [planArtifactRef approvalArtifact],
          [variant.approvalText ++ approvalArtifact.artifactId]⟩, x)
      else pure (.accepted refs, x)

/-- The memory after a patch was tried. -/
def Execution.keepPatch (x : Execution) (outcome : PatchOutcome) : Execution :=
  { x with
    memory := { x.memory with
      patchArtifactId := some outcome.artifactId
      patchArtifacts := x.memory.patchArtifacts ++ [outcome.toRepositoryPatchArtifact]
      changedFiles := outcome.changedFiles } }

/-- The memory after a verification. -/
def Execution.keepVerification (x : Execution) (report : RepositoryVerificationReport) : Execution :=
  { x with
    memory := { x.memory with
      verification := some report
      verificationReports := x.memory.verificationReports ++ [report] } }

/-! ### The nodes -/

def inspectNode (workspace : RepositoryWorkspace) (node : PlanNode) (x : Execution) :
    RepositoryProgram (RepositoryNodeResult × Execution) := do
  let evidence ← collectEvidence P o r workspace node
  let x := { x with memory := { x.memory with evidence := some evidence } }
  let (artifact, x) ← recordArtifact x .evidenceBundle "Evidence Bundle" (evidenceSummary evidence)
    (.evidence evidence)
  pure (⟨.completed, [planArtifactRef artifact], []⟩, x)

def patchNode (workspace : RepositoryWorkspace) (node : PlanNode) (x : Execution) :
    RepositoryProgram (RepositoryNodeResult × Execution) := do
  let (evidence, x) ← ensureEvidence P o r "Expanded Evidence Bundle" workspace node x
  let (generated, x) ← generatePatchPlan P o r node evidence .initialPatch none none x
  match generated with
  | .ended result => pure (result, x)
  | .generated patchPlan policy contextArtifact => do
      let (examined, x) ← examinePatchPlan P r initialPatch workspace node evidence
        [planArtifactRef contextArtifact] patchPlan policy x
      match examined with
      | .ended result => pure (result, x)
      | .accepted refs => do
          await (.proposePatch node.id patchPlan evidence)
          let outcome ← await (.applyPatchPlan .initialPatch workspace patchPlan policy)
          let (artifact, x) ← recordArtifact (Execution.keepPatch x outcome) .patchArtifact
            "Patch Artifact" (changedSummary outcome.changedFiles)
            (.patch outcome.toRepositoryPatchArtifact)
          pure (⟨if outcome.applyStatus = .applied then .completed else .failed,
            refs ++ [planArtifactRef artifact], outcome.errors.map (·.message)⟩, x)

/-- The commands to verify with: the given ones, or the first command of the worktree. -/
def commandIdsOr (given commands : List String) : List String :=
  if given.length > 0 then given else commands.take 1

def verifyWorktree (title passed failed : String) (node : PlanNode) (given : List String)
    (x : Execution) : RepositoryProgram (RepositoryArtifact × Execution) := do
  let commands ← await (.detectVerificationPolicy r.session.worktreePath)
  let report ← await (.runVerificationPolicy node.id commands (commandIdsOr given commands))
  recordArtifact (Execution.keepVerification x report) .verificationReport title
    (if report.passed then passed else failed) (.verification report)

def verifyNode (node : PlanNode) (x : Execution) :
    RepositoryProgram (RepositoryNodeResult × Execution) := do
  let (artifact, x) ← verifyWorktree r "Verification Report" "Verification passed."
    "Verification failed." node (node.verificationCommandIds.getD []) x
  pure (⟨.completed, [planArtifactRef artifact], []⟩, x)

/-- What follows the recorded decision on a repair, whatever was decided. -/
def attemptRepair (workspace : RepositoryWorkspace) (node : PlanNode)
    (verification : RepositoryVerificationReport) (repair : RepairAttempt)
    (repairArtifact : RepositoryArtifact) (x : Execution) :
    RepositoryProgram (RepositoryNodeResult × Execution) := do
  let (evidence, x) ← ensureEvidence P o r "Expanded Repair Evidence Bundle" workspace node x
  let (generated, x) ← generatePatchPlan P o r node evidence .repair (some verification.failures)
    (some (diffSummary x.memory.changedFiles)) x
  match generated with
  | .ended result =>
      pure (⟨.yielded, planArtifactRef repairArtifact :: result.artifactRefs,
        repair.decision.reason :: result.errors⟩, x)
  | .generated patchPlan policy contextArtifact => do
      let (examined, x) ← examinePatchPlan P r repairPatch workspace node evidence
        [planArtifactRef repairArtifact, planArtifactRef contextArtifact] patchPlan policy x
      match examined with
      | .ended result => pure (result, x)
      | .accepted refs => do
          let outcome ← await (.applyPatchPlan .repair workspace patchPlan policy)
          let (patchArtifact, x) ← recordArtifact (Execution.keepPatch x outcome) .patchArtifact
            "Repair Patch Artifact" (changedSummary outcome.changedFiles)
            (.patch outcome.toRepositoryPatchArtifact)
          let (verifyArtifact, x) ← verifyWorktree r "Repair Verification Report"
            "Repair verification passed." "Repair verification failed." node
            patchPlan.verificationCommandIds x
          -- whether the patch was applied does not count here
          pure (⟨.completed, refs ++ [planArtifactRef patchArtifact, planArtifactRef verifyArtifact],
            outcome.errors.map (·.message)⟩, x)

def repairNode (workspace : RepositoryWorkspace) (node : PlanNode) (x : Execution) :
    RepositoryProgram (RepositoryNodeResult × Execution) :=
  match x.memory.verification with
  | none => pure (⟨.skipped, [], []⟩, x)
  | some verification =>
      if verification.passed then pure (⟨.skipped, [], []⟩, x)
      else do
        let repair := nextRepairAttempt r.plan.planId node.id x.memory.repairs verification r.now
        let x := { x with memory := { x.memory with repairs := x.memory.repairs ++ [repair] } }
        let (repairArtifact, x) ← recordArtifact x .repairDecision "Repair Decision"
          repair.failureSummary (.repair repair)
        attemptRepair P o r workspace node verification repair repairArtifact x

/-- The review that is written without a generator. -/
def defaultReview (node : PlanNode) (changedFiles : List String) : RepositoryReviewReport where
  reviewReportId := "review_" ++ firstChars 18 (stableHash P.sha256 (.obj
    [("plan", .str r.plan.planId), ("files", strings changedFiles)]))
  summary := toString changedFiles.length ++ " file(s) changed."
  artifactId := "review_" ++ firstChars 18 (stableHash P.sha256 (.obj
    [("plan", .str r.plan.planId), ("node", .str node.id)]))

def reviewInput (memory : RepositoryExecutionMemory) : ReviewReportInput where
  planfile := r.plan
  changedFiles := memory.changedFiles
  patchArtifacts := memory.patchArtifacts
  verificationReports := memory.verificationReports
  repairAttempts := memory.repairs
  finalDiffSummary := diffSummary memory.changedFiles
  knownLimitations :=
    if memory.verification.any (·.passed) then [] else ["Verification did not pass or did not run."]
  finalPatchArtifactId := truthy memory.patchArtifactId

/-- The review of the generator, or the default; what is thrown here is caught. -/
def reviewReport (node : PlanNode) (memory : RepositoryExecutionMemory) :
    RepositoryProgram (Except String RepositoryReviewReport) :=
  if o.hasReviewReportGenerator then (await (.generateReviewReport (reviewInput r memory))).attempt
  else pure (.ok (defaultReview P r node memory.changedFiles))

def reviewNode (node : PlanNode) (x : Execution) :
    RepositoryProgram (RepositoryNodeResult × Execution) := do
  let review ← reviewReport P o r node x.memory
  match review with
  | .error message => pure (⟨.failed, [], [message]⟩, x)
  | .ok review => do
      let x := { x with memory := { x.memory with review := some review } }
      let (artifact, x) ← recordArtifact x .reviewReport "Review Report" review.summary
        (.review review)
      pure (⟨.completed, [planArtifactRef artifact], []⟩, x)

def runNode (node : PlanNode) (x : Execution) :
    RepositoryProgram (RepositoryNodeResult × Execution) :=
  if node.kind = .frame ∨ node.kind = .design then pure (⟨.completed, [], []⟩, x)
  else do
    let workspace ← await (.loadWorkspace r.session.worktreePath ("trace_" ++ r.plan.planId))
    match node.kind with
    | .inspect => inspectNode P o r workspace node x
    | .patch => patchNode P o r workspace node x
    | .verify => verifyNode r node x
    | .repair => repairNode P o r workspace node x
    | .review => reviewNode P o r node x
    | _ => pure (⟨.completed, [], []⟩, x)

/-! ### The walk -/

/-- The nodes from the one to resume at; all of them when it is not in the plan. -/
def nodesForRun : List PlanNode :=
  match truthy o.resumeFromNodeId with
  | none => r.plan.nodes
  | some id =>
      if r.plan.nodes.any (·.id = id) then r.plan.nodes.dropWhile (·.id ≠ id) else r.plan.nodes

/-- The status as a node ends. -/
def endedStatus (node : PlanNode) (state : PlanState) (result : RepositoryNodeResult)
    (memory : RepositoryExecutionMemory) (status : RepositoryPlanStatus) : RepositoryPlanStatus :=
  let ended := { status with
    planState := some state
    artifactRefs := distinct (status.artifactRefs ++ result.artifactRefs.map (·.artifactId))
    changedFiles := memory.changedFiles
    evidenceBundleIds := memory.evidence.elim status.evidenceBundleIds ([·.evidenceBundleId])
    patchPlanIds := memory.patchPlan.elim status.patchPlanIds ([·.patchPlanId])
    patchPlanGeneratedByModel :=
      if memory.patchPlan.isSome then some true else status.patchPlanGeneratedByModel
    patchValidationReportIds := memory.patchValidationReportIds
    scopeExpansionRequestIds := memory.scopeExpansionRequestIds
    patchArtifactIds := (truthy memory.patchArtifactId).elim status.patchArtifactIds ([·])
    verificationReportIds :=
      memory.verification.elim status.verificationReportIds ([·.verificationReportId])
    repairAttemptIds := memory.repairs.map (·.repairAttemptId)
    reviewReportId := memory.review.elim status.reviewReportId (some ·.reviewReportId)
    errors := status.errors ++ result.errors }
  if result.status = .yielded then
    let guidance := yieldedGuidance r.plan.planId (result.errors.headD ("Node yielded: " ++ node.id))
      ((result.artifactRefs.find? fun a => startsWith a.artifactId "approval_").map (·.artifactId))
      (truthy memory.scopeExpansionRequestIds.getLast?)
    { ended with
      yieldedReason := some guidance.yieldedReason
      remediation := some guidance.remediation
      suggestedNextCommand := some guidance.suggestedNextCommand }
  else ended

/-- The status as a node starts. -/
def startedNodeStatus (node : PlanNode) (state : PlanState) (status : RepositoryPlanStatus) :
    RepositoryPlanStatus :=
  { status with currentNode := some node.id, status := .running, planState := some state }

def runNodes : List PlanNode → PlanState → Execution → RepositoryProgram (PlanState × Execution)
  | [], state, x => pure (state, x)
  | node :: rest, state, x => do
      let running ← markNode P r state node .running [] []
      let x ← writeStatus x (startedNodeStatus node running)
      let (result, x) ← runNode P o r node x
      let marked ← markNode P r running node result.status.status result.artifactRefs result.errors
      let x ← writeStatus x (endedStatus r node marked result x.memory)
      if result.status = .failed ∨ result.status = .yielded then pure (marked, x)
      else runNodes rest marked x

/-! ### The run -/

/-- The state the run starts from. -/
def startState : PlanState :=
  match o.initialStatus.bind (·.planState) with
  | some state => { state with status := .running, updatedAt := r.now }
  | none =>
      createInitialPlanState r.plan.planId .running (r.plan.canonicalPlanDigest.getD "")
        (r.plan.nodes.map fun node =>
          ⟨node.id, if node.dependsOn.length = 0 then .ready else .pending⟩)
        [] (P.renderPlanfileMarkdown { r.plan with status := .running }) r.now

/-- What the status of an earlier run says, before its records are read back. -/
def rememberedMemory : RepositoryExecutionMemory where
  evidence := none
  patchPlan := none
  patchArtifactId := o.initialStatus.bind fun status => truthy status.patchArtifactIds.getLast?
  patchArtifacts := []
  verification := none
  verificationReports := []
  repairs := []
  review := none
  changedFiles := o.initialStatus.elim [] (·.changedFiles)
  patchValidationReportIds := o.initialStatus.elim [] (·.patchValidationReportIds)
  scopeExpansionRequestIds := o.initialStatus.elim [] (·.scopeExpansionRequestIds)

/-- The record that an earlier run left under an id. -/
def readBack {α : Type} (read : String → RepositoryProgram (Option α)) :
    Option String → RepositoryProgram (Option α)
  | none => pure none
  | some id => read id

def createInitialMemory : RepositoryProgram RepositoryExecutionMemory := do
  let verification ← readBack (fun id => await (.readVerification id))
    (o.initialStatus.bind fun status => truthy status.verificationReportIds.getLast?)
  let artifact ← readBack (fun id => await (.readPatchArtifact id))
    (rememberedMemory o).patchArtifactId
  pure { rememberedMemory o with
    verification
    verificationReports := verification.toList
    patchArtifacts := artifact.toList }

/-- How the session and the status end. -/
def finalSessionStatus : PlanStatus → WorktreeStatus
  | .failed => .failed
  | .yielded => .retained
  | _ => .completed

def finalRunStatus : PlanStatus → RepositoryRunStatus
  | .failed => .failed
  | .yielded => .yielded
  | _ => .completed

def finish (state : PlanState) (x : Execution) : RepositoryProgram RepositoryPlanRunnerResult := do
  let finalPatch ← await (.exportFinalPatch r.session)
  let (finalArtifact, x) ← recordArtifact x .finalPatchArtifact "Final Patch Artifact"
    "Validated final git patch artifact." (.finalPatch finalPatch)
  let updatedAt ← await .clock
  let session := { r.session with
    status := finalSessionStatus state.status
    updatedAt
    finalPatchArtifactId := (truthy (some finalArtifact.artifactId)).elim
      r.session.finalPatchArtifactId some }
  let x ← writeStatus x fun status =>
    { status with
      status := finalRunStatus state.status
      worktreeSession := some session
      finalPatchArtifactId := some finalArtifact.artifactId
      artifactRefs := distinct (status.artifactRefs ++ [finalArtifact.artifactId])
      changedFiles := finalPatch.changedFiles }
  await (.registerArtifacts x.artifacts)
  pure ⟨state, x.status, x.artifacts⟩

def run : RepositoryProgram RepositoryPlanRunnerResult :=
  let validation := validatePlanfile P.toPlatform none r.plan
  if validation.ok then do
    await (.persistExecutionCopy r.plan)
    await (.recordPlanState (startState P o r))
    let memory ← createInitialMemory o
    let (state, x) ← runNodes P o r (nodesForRun o r) (startState P o r) ⟨r.status, [], memory⟩
    finish r state x
  else .fail ("; ".intercalate (validation.issues.map (·.message)))

/-- A runner made and run. -/
def constructAndRun : RepositoryProgram RepositoryPlanRunnerResult := do
  let r ← construct P o
  run P o r

end RepositoryPlanRunner

end OpenLagrange
