/-
Edited Planfile documents and the sessions they are submitted to.

An edit replaces the plan of a session when its document can be parsed, its plan is valid,
the structured diff shows nothing that needs a confirmation, and a simulation does not find
the plan unsafe.  Every submission is recorded in the history of the session, also one that
is refused.  The digest a revision records is that of the submitted plan, before the
lifecycle section of the plan is rewritten.

Artifacts are recorded through a store that is a parameter here: it answers with the ids it
recorded, or it throws.  What throws leaves every file as it was.
-/
import OpenLagrange.Planning.PlanBuilderSession
import OpenLagrange.Planning.PlanfileDiff

namespace OpenLagrange

structure UpdateOptions where
  allowRiskIncrease : Option Bool
  allowNewCapabilities : Option Bool
  allowScheduleChange : Option Bool
  deriving DecidableEq, Repr

structure UpdateBuilderPlanfileInput where
  sessionId : String
  markdown : String
  updateSource : UpdateSource
  runtimeProfile : Option RuntimeProfileForRequirements
  options : Option UpdateOptions

structure EditError where
  code : String
  message : String
  observedAt : String
  path : Option (List PathItem)
  deriving DecidableEq, Repr

inductive DiffStatus where
  | unchanged | changed | notAvailable
  deriving DecidableEq, Repr

inductive ReportValidation where
  | notRun | passed | failed
  deriving DecidableEq, Repr

structure PlanfileUpdateReport where
  sessionId : String
  previousPlanDigest : Option String
  newPlanDigest : Option String
  parsed : Bool
  diffStatus : DiffStatus
  /-- `none` where no simulation was run. -/
  simulationStatus : Option PlanSimulationStatus
  validationStatus : ReportValidation
  builderStatus : PlanBuilderStatus
  diff : Option PlanfileStructuredDiff
  questions : List PlannerQuestion
  validationErrors : List EditError
  simulationWarnings : List String
  regeneratedMarkdown : Option String
  mermaid : Option String
  artifactRefs : List String
  deriving Repr

/-- What the reconciler uses: the platform, the YAML library and the artifact store. -/
structure EditPlatform extends Platform where
  yaml : PlanfileYaml
  recordArtifacts : PlanBuilderSession → PlanfileUpdateReport → UpdateBuilderPlanfileInput →
    Except String (List String)

namespace EditablePlanfile

variable (E : EditPlatform)

/-- The snapshot of every capability that is registered. -/
def fullSnapshot (P : Platform) (now : String) : CapabilitySnapshot :=
  buildCapabilitySnapshot P.sha256 P.localeCompare (P.registry.listCapabilities P.localeCompare fun _ => true)
    now

def structuredError (code message now : String) : EditError := ⟨code, message, now, none⟩

/-! ### What needs a confirmation -/

def allowed (options : Option UpdateOptions) (flag : UpdateOptions → Option Bool) : Bool :=
  options.bind flag = some true

def safetyErrorsFor (diff : PlanfileStructuredDiff) (next : Planfile) (options : Option UpdateOptions)
    (now : String) : List EditError :=
  let increased := diff.riskChanges.filter (·.increased)
  (if diff.capabilitiesAdded.length > 0 ∧ ¬ allowed options (·.allowNewCapabilities) then
    [structuredError "APPROVAL_REQUIRED" ("New capabilities require confirmation: " ++
      ", ".intercalate diff.capabilitiesAdded) now] else []) ++
  (if increased.length > 0 ∧ ¬ allowed options (·.allowRiskIncrease) then
    [structuredError "APPROVAL_REQUIRED" ("Risk increases require confirmation: " ++
      ", ".intercalate (increased.map fun change =>
        change.target ++ " " ++ change.before ++ "->" ++ change.after)) now] else []) ++
  (if diff.scheduleChanged.isSome ∧ ¬ allowed options (·.allowScheduleChange) then
    [structuredError "APPROVAL_REQUIRED" "Schedule changes require confirmation." now] else []) ++
  (if next.nodes.any fun node => node.riskLevel = .externalSideEffect ∧ ¬ node.approvalRequired then
    [structuredError "APPROVAL_REQUIRED" "New external side effects require approval." now] else [])

def issueErrors (validation : PlanValidationResult) (now : String) : List EditError :=
  (validation.issues.filter (·.severity = .error)).map fun issue =>
    { code :=
        match issue.code with
        | .unknownCapability => "UNKNOWN_CAPABILITY"
        | .approvalRequired => "APPROVAL_REQUIRED"
        | _ => "INVALID_PLAN"
      message := issue.message
      observedAt := now
      path := some issue.path }

/-! ### Judging a submitted plan -/

/-- What the reconciler finds out about a plan that was parsed. -/
structure Judgement where
  diff : PlanfileStructuredDiff
  validation : PlanValidationResult
  validationErrors : List EditError
  safe : Bool
  /-- Not run where there are validation errors. -/
  simulation : Option PlanSimulationReport

def judge (input : UpdateBuilderPlanfileInput) (now : String) (next : Planfile)
    (diff : PlanfileStructuredDiff) : Judgement :=
  let validation := validatePlanfile E.toPlatform (some (fullSnapshot E.toPlatform now)) next
  let safetyErrors := safetyErrorsFor diff next input.options now
  let validationErrors := issueErrors validation now ++ safetyErrors
  { diff
    validation
    validationErrors
    safe := safetyErrors.length = 0
    simulation := if validationErrors.length > 0 then none
      else some (simulatePlanfile E.sha256 ⟨next, some validation, input.runtimeProfile, none⟩) }

/-- Whether the submitted plan becomes the plan of the session. -/
def Judgement.accepted (j : Judgement) : Bool :=
  j.validationErrors.length = 0 ∧ (j.simulation.map (·.status)) ≠ some .invalid ∧
    (j.simulation.map (·.status)) ≠ some .unsafePlan

def Judgement.builderStatus (j : Judgement) (session : PlanBuilderSession) : PlanBuilderStatus :=
  if j.accepted then
    if j.simulation.map (·.status) = some .ready then .ready else .needsInput
  else session.status

/-- The digest of the plan the session holds, taken before anything else. -/
def previousDigest (current : Planfile) : String :=
  canonicalPlanDigest E.sha256 (withCanonicalPlanDigest E.sha256 current)

def parseMarkdown (markdown : String) : Except String Planfile :=
  (parsePlanfileMarkdown E.isDatetime E.yaml markdown).map (withCanonicalPlanDigest E.sha256)

/-! ### Reports and revisions -/

def parseFailedReport (session : PlanBuilderSession) (current : Planfile) (message now : String) :
    PlanfileUpdateReport where
  sessionId := session.sessionId
  previousPlanDigest := some (previousDigest E current)
  newPlanDigest := none
  parsed := false
  diffStatus := .notAvailable
  simulationStatus := none
  validationStatus := .notRun
  builderStatus := session.status
  diff := none
  questions := []
  validationErrors := [structuredError "INVALID_PLAN" message now]
  simulationWarnings := []
  regeneratedMarkdown := none
  mermaid := none
  artifactRefs := []

def updateReport (session : PlanBuilderSession) (current next : Planfile) (j : Judgement) :
    PlanfileUpdateReport where
  sessionId := session.sessionId
  previousPlanDigest := some (previousDigest E current)
  newPlanDigest := some (canonicalPlanDigest E.sha256 next)
  parsed := true
  diffStatus := if hasStructuredDiffChanges j.diff then .changed else .unchanged
  simulationStatus := j.simulation.map (·.status)
  validationStatus := if j.validation.ok ∧ j.safe then .passed else .failed
  builderStatus := j.builderStatus session
  diff := some j.diff
  questions := ((j.simulation.map (·.questions)).getD [])
  validationErrors := j.validationErrors
  simulationWarnings := ((j.simulation.map (·.warnings)).getD [])
  regeneratedMarkdown := some (renderPlanfileMarkdown E.yaml next ⟨none, none, none⟩)
  mermaid := some (renderPlanMermaid next.nodes next.edges)
  artifactRefs := []

def revisionId (fields : List (String × Value)) : String :=
  "planfile_revision_" ++ firstChars 18 (stableHash E.sha256 (.obj fields))

def parseFailedRevision (session : PlanBuilderSession) (input : UpdateBuilderPlanfileInput)
    (current : Planfile) (now : String) (artifactRefs : List String) : PlanfileRevision where
  revisionId := revisionId E [("session_id", .str session.sessionId),
    ("previousDigest", .str (previousDigest E current)), ("now", .str now),
    ("status", .str "parse_failed")]
  sessionId := session.sessionId
  source := input.updateSource
  previousDigest := some (previousDigest E current)
  newDigest := none
  status := .rejected
  summary := "Rejected edited Planfile because parsing failed."
  createdAt := now
  artifactRefs

def updateRevision (session : PlanBuilderSession) (input : UpdateBuilderPlanfileInput)
    (current next : Planfile) (j : Judgement) (now : String) (artifactRefs : List String) :
    PlanfileRevision where
  revisionId := revisionId E [("session_id", .str session.sessionId),
    ("previousDigest", .str (previousDigest E current)),
    ("newDigest", .str (canonicalPlanDigest E.sha256 next)), ("now", .str now)]
  sessionId := session.sessionId
  source := input.updateSource
  previousDigest := some (previousDigest E current)
  newDigest := some (canonicalPlanDigest E.sha256 next)
  status :=
    if j.accepted then
      if j.builderStatus session = .needsInput then .needsInput else .accepted
    else .rejected
  summary := (if j.accepted then "Accepted" else "Rejected") ++ " edited Planfile " ++ next.planId ++ "."
  createdAt := now
  artifactRefs

/-- `lifecycle(...)` of the reconciler: the plan as the session keeps it. -/
def lifecycle (plan : Planfile) (sessionId now : String) (validationOk : Bool)
    (simulation : PlanSimulationStatus) (status : PlanBuilderStatus) : Planfile :=
  withLifecycle E.sha256 plan now
    { sessionId
      questionsAnswered := none
      validationStatus := if validationOk then .passed else .failed
      simulationStatus := simulation.lifecycle
      status := if status = .ready then .ready else .draft }

/-! ### Submitting a document -/

/-- A session after a submission that changed nothing but its history. -/
def recorded (session : PlanBuilderSession) (revision : PlanfileRevision) (now : String) :
    PlanBuilderSession :=
  { session with
    planfileRevisionHistory := session.planfileRevisionHistory ++ [revision]
    updatedAt := now }

/-- A session whose plan is the submitted one. -/
def installed (session : PlanBuilderSession) (next : Planfile) (j : Judgement)
    (simulation : PlanSimulationReport) (revision : PlanfileRevision) (now : String) :
    PlanBuilderSession :=
  { session with
    currentPlanfile := some (lifecycle E next session.sessionId now j.validation.ok simulation.status
      (j.builderStatus session))
    validationReport := some j.validation
    simulationReport := some simulation
    pendingQuestions := simulation.questions
    status := j.builderStatus session
    planfileRevisionHistory := session.planfileRevisionHistory ++ [revision]
    updatedAt := now }

/-- The session file is written after its schema has looked at the plan. -/
def saved (session : PlanBuilderSession) : Except String PlanBuilderSession :=
  if session.currentPlanfile.all (·.refined E.isDatetime) then .ok session
  else .error "Invalid Plan Builder session."

def reconcileForSession (session : PlanBuilderSession) (current : Planfile)
    (input : UpdateBuilderPlanfileInput) (now : String) :
    Except String (PlanfileUpdateReport × PlanBuilderSession) :=
  match parseMarkdown E input.markdown with
  | .error message =>
      let report := parseFailedReport E session current message now
      (E.recordArtifacts session report input).bind fun artifactRefs =>
        (saved E (recorded session
          (parseFailedRevision E session input current now artifactRefs) now)).map fun session =>
            ({ report with artifactRefs }, session)
  | .ok next =>
      match diffPlanfiles E.isDatetime (withCanonicalPlanDigest E.sha256 current) next with
      | none => .error "Invalid structured diff."
      | some diff =>
          let j := judge E input now next diff
          let report := updateReport E session current next j
          (E.recordArtifacts session report input).bind fun artifactRefs =>
            let revision := updateRevision E session input current next j now artifactRefs
            (saved E (match j.accepted, j.simulation with
              | true, some simulation => installed E session next j simulation revision now
              | _, _ => recorded session revision now)).map fun session =>
                ({ report with artifactRefs }, session)

/-- `updateBuilderPlanfileFromMarkdown`: the report or what was thrown, and the session files. -/
def updateBuilderPlanfileFromMarkdown (files : SessionFiles) (input : UpdateBuilderPlanfileInput)
    (now : String) : Except String PlanfileUpdateReport × SessionFiles :=
  match getPlanBuilderSession files input.sessionId with
  | none => (.error ("Plan Builder session not found: " ++ input.sessionId), files)
  | some session =>
      match session.currentPlanfile with
      | none => (.error ("Plan Builder session has no current Planfile: " ++ input.sessionId), files)
      | some current =>
          match reconcileForSession E session current input now with
          | .error message => (.error message, files)
          | .ok (report, session) => (.ok report, savePlanBuilderSession files session)

end EditablePlanfile

end OpenLagrange
