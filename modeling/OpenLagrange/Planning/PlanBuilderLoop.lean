/-
The loop of the Plan Builder.

A session is simulated, validated and revised until it is ready, needs an answer, or has been
revised as often as it may be.  A revision is made without a model where the plan is valid as it
is; otherwise the planner is asked, as long as the revisions of the model in the history of the
session are fewer than the calls that are allowed.

The clock, the session files, the planner that a caller brings along and the provider of a
configured model are calls that answer or throw.  Sessions, revisions and plans go through their
schemas wherever the source parses them.
-/
import OpenLagrange.Lib.Prog
import OpenLagrange.Planning.PlanBuilderSession
import OpenLagrange.Platform

namespace OpenLagrange

/-! ### Schemas -/

section Schemas

variable (P : Platform)

def PlanRevision.refined (revision : PlanRevision) : Bool :=
  nonempty revision.revisionId && nonempty revision.reason && revision.changes.all nonempty &&
    revision.planfile.refined P.isDatetime && P.isDatetime revision.createdAt &&
    revision.telemetryArtifactId.all nonempty

def PlanBuilderSession.refined (session : PlanBuilderSession) : Bool :=
  nonempty session.sessionId && nonempty session.originalInput &&
    session.currentPlanfile.all (·.refined P.isDatetime) &&
    session.revisionHistory.all (·.refined P) && session.yieldReason.all nonempty &&
    P.isDatetime session.createdAt && P.isDatetime session.updatedAt

/-- What the planner model answers. -/
structure ModelPlanRevisionOutput where
  reason : String
  changes : List String
  planfile : Planfile

def ModelPlanRevisionOutput.refined (output : ModelPlanRevisionOutput) : Bool :=
  nonempty output.reason && output.changes.all nonempty && output.planfile.refined P.isDatetime

end Schemas

/-! ### Calls -/

structure ModelRouteConfig where
  routeId : String
  planner : String
  deriving DecidableEq, Repr

inductive BuilderCall where
  | dateNow
  | save (session : PlanBuilderSession)
  /-- The planner of the options. -/
  | planner (planfile : Planfile) (reason : String)
  /-- Whether the model of the route is configured. -/
  | configuredModel (route : ModelRouteConfig)
  | generateObject (route : ModelRouteConfig) (planfile : Planfile) (reason : String)
  /-- The second try, whose text is read as JSON. -/
  | generateText (route : ModelRouteConfig) (planfile : Planfile) (reason : String)
  | persistTelemetry (route : ModelRouteConfig)

/-- What the calls answer; the provider answers with objects of the schema it is given. -/
abbrev BuilderAnswer (P : Platform) : BuilderCall → Type
  | .dateNow => { text : String // P.isDatetime text = true }
  | .save _ => Unit
  | .planner _ _ => PlanRevision
  | .configuredModel _ => Bool
  | .generateObject _ _ _ => { output : ModelPlanRevisionOutput // output.refined P = true }
  | .generateText _ _ _ => { output : ModelPlanRevisionOutput // output.refined P = true }
  | .persistTelemetry _ => Option { text : String // nonempty text = true }

abbrev BuilderProgram (P : Platform) (α : Type) := Prog BuilderCall (BuilderAnswer P) α

structure PlanBuilderConfig where
  maxRevisions : Option Nat
  maxQuestions : Option Int
  maxModelCalls : Option Nat

structure ReviseOptions where
  reason : Option String
  route : Option ModelRouteConfig
  /-- Whether the caller brings a planner. -/
  planner : Bool
  persist : Option Bool

structure StabilizeOptions where
  runtimeProfile : Option RuntimeProfileForRequirements
  route : Option ModelRouteConfig
  persist : Option Bool

namespace PlanBuilder

variable (P : Platform) (config : PlanBuilderConfig)

abbrev await (call : BuilderCall) : BuilderProgram P (BuilderAnswer P call) := Prog.perform call

/-! ### Sessions -/

def savePlanBuilderSession (session : PlanBuilderSession) : BuilderProgram P PlanBuilderSession := do
  if session.refined P then
    await P (.save session)
    pure session
  else .fail "PlanBuilderSession"

def updateSession (session : PlanBuilderSession) (patch : PlanBuilderSession → PlanBuilderSession)
    (persist : Option Bool) : BuilderProgram P PlanBuilderSession := do
  let now ← await P .dateNow
  let next := { patch session with updatedAt := now.val }
  if next.refined P then
    if persist = some false then pure next else savePlanBuilderSession P next
  else .fail "PlanBuilderSession"

/-- A session that gives up, for a reason. -/
def yielded (reason : String) (session : PlanBuilderSession) : PlanBuilderSession :=
  { session with status := .yielded, yieldReason := some reason }

/-- The simulation status a plan is marked with. -/
def simulationOf (session : PlanBuilderSession) : LifecycleSimulation :=
  (session.simulationReport.map (·.status.lifecycle)).getD .unknown

def lifecyclePlanfile (planfile : Planfile) (now : String) (update : LifecycleUpdate) :
    BuilderProgram P Planfile :=
  -- the digest is put in after the schema has looked at the rest
  let next := withLifecycle P.sha256 planfile now update
  if { next with canonicalPlanDigest := planfile.canonicalPlanDigest }.refined P.isDatetime then
    pure next
  else .fail "Planfile"

def mergeQuestions (current next : List PlannerQuestion) : List PlannerQuestion :=
  next.foldl (fun byId question =>
      if byId.any (·.questionId = question.questionId) then byId else byId ++ [question])
    (current.foldl (fun byId question =>
      if byId.any (·.questionId = question.questionId) then
        byId.map fun other => if other.questionId = question.questionId then question else other
      else byId ++ [question]) [])

/-! ### Simulating and validating -/

def simulatePlan (session : PlanBuilderSession) (runtimeProfile : Option RuntimeProfileForRequirements)
    (persist : Option Bool) : BuilderProgram P PlanBuilderSession :=
  match session.currentPlanfile with
  | none => updateSession P session (yielded "No Planfile is available to simulate.") persist
  | some planfile =>
      let simulation := simulatePlanfile P.sha256
        ⟨planfile, session.validationReport, runtimeProfile, config.maxQuestions⟩
      updateSession P session (fun session => { session with
        simulationReport := some simulation
        pendingQuestions := mergeQuestions session.pendingQuestions simulation.questions
        status :=
          match simulation.status with
          | .ready => .validating
          | .needsInput | .missingRequirements => .needsInput
          | .invalid | .unsafePlan => .yielded }) persist

/-- The status a session has once its plan was validated. -/
def validatedStatus (session : PlanBuilderSession) (ok : Bool) : PlanBuilderStatus :=
  if ok ∧ session.simulationReport.map (·.status) = some .ready then .ready
  else if session.pendingQuestions.length > 0 then .needsInput
  else if ok then .ready
  else .yielded

def validatePlan (session : PlanBuilderSession) (persist : Option Bool) :
    BuilderProgram P PlanBuilderSession :=
  match session.currentPlanfile with
  | none => updateSession P session (yielded "No Planfile is available to validate.") persist
  | some planfile => do
      let validation := validatePlanfile P none planfile
      let status := validatedStatus session validation.ok
      let now ← await P .dateNow
      let planfile ← lifecyclePlanfile P planfile now.val
        { sessionId := session.sessionId
          questionsAnswered := some session.answeredQuestions.length
          validationStatus := if validation.ok then .passed else .failed
          simulationStatus := simulationOf session
          status := if status = .ready then .ready else .draft }
      updateSession P session (fun session => { session with
        validationReport := some validation
        currentPlanfile := some planfile
        status
        yieldReason :=
          if status = .yielded then some "Planfile validation failed and requires semantic revision."
          else session.yieldReason }) persist

/-! ### Revising -/

/-- A revision of a valid plan that changes nothing but its lifecycle. -/
def deterministicRepair (session : PlanBuilderSession) (now : String) :
    BuilderProgram P (Option PlanRevision) :=
  match session.currentPlanfile with
  | none => pure none
  | some planfile =>
      if (validatePlanfile P none planfile).ok then do
        let planfile ← lifecyclePlanfile P planfile now
          { sessionId := session.sessionId
            questionsAnswered := some session.answeredQuestions.length
            validationStatus := .passed
            simulationStatus := simulationOf session
            status := if simulationOf session = .ready then .ready else .draft }
        let revision : PlanRevision :=
          { revisionId := "revision_" ++ firstChars 18 (stableHash P.sha256 (.obj
              [("plan_id", .str planfile.planId), ("now", .str now), ("source", .str "deterministic")]))
            source := .deterministic
            reason := "Updated Planfile lifecycle metadata."
            changes := ["Updated lifecycle metadata", "Refreshed canonical digest"]
            planfile
            validationOk := true
            createdAt := now
            telemetryArtifactId := none }
        if revision.refined P then pure (some revision) else .fail "PlanRevision"
      else pure none

/-- `executeModelRoleCall` for the planner: what fails is tried once more as text. -/
def executeModelRoleCall (route : ModelRouteConfig) (planfile : Planfile) (reason : String) :
    BuilderProgram P ({ output : ModelPlanRevisionOutput // output.refined P = true } ×
      Option { text : String // nonempty text = true }) := do
  let model ← await P (.configuredModel route)
  if model then
    Prog.tryCatch
      (do
        let object ← await P (.generateObject route planfile reason)
        let telemetry ← await P (.persistTelemetry route)
        pure (object, telemetry))
      fun caught =>
        Prog.tryCatch
          (do
            let object ← await P (.generateText route planfile reason)
            let telemetry ← await P (.persistTelemetry route)
            pure (object, telemetry))
          fun fallback => do
            let _ ← await P (.persistTelemetry route)
            .fail (caught ++ " JSON fallback failed: " ++ fallback)
  else do
    let _ ← await P (.persistTelemetry route)
    .fail "Model provider unavailable for planner."

def revisePlanfileWithModel (route : ModelRouteConfig) (planfile : Planfile) (reason now : String) :
    BuilderProgram P PlanRevision := do
  let (object, telemetry) ← executeModelRoleCall P route planfile reason
  let output := object.val
  -- the schema of the answer has looked at its plan already
  let planfile := withCanonicalPlanDigest P.sha256 output.planfile
  let revision : PlanRevision :=
    { revisionId := "revision_" ++ firstChars 18 (canonicalPlanDigest P.sha256 output.planfile)
      source := .model
      reason := output.reason
      changes := output.changes
      planfile
      validationOk := (validatePlanfile P none planfile).ok
      createdAt := now
      telemetryArtifactId := telemetry.map (·.val) }
  if revision.refined P then pure revision else .fail "PlanRevision"

def modelRevisionCount (session : PlanBuilderSession) : Nat :=
  session.revisionHistory.countP (·.source = .model)

/-- The session with a revision in its history. -/
def withRevision (revision : PlanRevision) (planfile : Planfile) (session : PlanBuilderSession) :
    PlanBuilderSession :=
  { session with
    currentPlanfile := some planfile
    revisionHistory := session.revisionHistory ++ [revision]
    status := .validating }

/-- The revision of the planner that the options give, or of the model of their route. -/
def plannedRevision (session : PlanBuilderSession) (planfile : Planfile) (options : ReviseOptions)
    (now : String) : BuilderProgram P PlanRevision :=
  let reason := (options.reason.or session.yieldReason).getD "Semantic Planfile revision requested."
  match options.planner, options.route with
  | false, some route => revisePlanfileWithModel P route planfile reason now
  | _, _ => await P (.planner planfile reason)

/-- The planner is asked, and its revision is put into the session. -/
def askPlanner (session : PlanBuilderSession) (planfile : Planfile) (options : ReviseOptions)
    (now : String) : BuilderProgram P PlanBuilderSession := do
  let revision ← plannedRevision P session planfile options now
  let planfile ← lifecyclePlanfile P revision.planfile now
    { sessionId := session.sessionId
      questionsAnswered := some session.answeredQuestions.length
      validationStatus := if revision.validationOk then .passed else .failed
      simulationStatus := simulationOf session
      status := revision.planfile.status }
  let next ← updateSession P session (withRevision revision planfile) (some false)
  validatePlan P next options.persist

/-- No repair is tried where the caller brings a planner. -/
def repairFirst (session : PlanBuilderSession) (options : ReviseOptions) (now : String) :
    BuilderProgram P (Option PlanRevision) :=
  if options.planner then pure none else deterministicRepair P session now

def revisePlan (session : PlanBuilderSession) (options : ReviseOptions) :
    BuilderProgram P PlanBuilderSession :=
  match session.currentPlanfile with
  | none => updateSession P session (yielded "No Planfile is available to revise.") options.persist
  | some planfile => do
      let now ← await P .dateNow
      let deterministic ← repairFirst P session options now.val
      match deterministic with
      | some revision =>
          let next ← updateSession P session (withRevision revision revision.planfile) (some false)
          validatePlan P next options.persist
      | none =>
          if options.route.isNone ∧ options.planner = false then
            updateSession P session
              (yielded "MODEL_PROVIDER_UNAVAILABLE: semantic revision requires a configured planner route.")
              options.persist
          else if modelRevisionCount session ≥ config.maxModelCalls.getD 1 then
            updateSession P session (yielded "Maximum model revision calls reached.") options.persist
          else
            Prog.tryCatch (askPlanner P session planfile options now.val) fun message =>
              updateSession P session (yielded message) options.persist

/-! ### Stabilizing -/

def settled (session : PlanBuilderSession) : Bool :=
  session.status = .ready ∨ session.status = .needsInput

/-- At most so many turns of the loop. -/
def stabilizeLoop (options : StabilizeOptions) : Nat → PlanBuilderSession →
    BuilderProgram P PlanBuilderSession
  | 0, session => pure session
  | turns + 1, session => do
      let next ← simulatePlan P config session options.runtimeProfile (some false)
      let next ← validatePlan P next (some false)
      if settled next then pure next
      else do
        let next ← revisePlan P config next ⟨none, options.route, false, some false⟩
        if settled next then pure next else stabilizeLoop options turns next

/-- A session the loop left unsettled gives up. -/
def concede (session : PlanBuilderSession) : BuilderProgram P PlanBuilderSession :=
  if settled session then pure session
  else updateSession P session (yielded (session.yieldReason.getD
    "Plan Builder did not stabilize within revision limits.")) (some false)

def stabilizePlan (session : PlanBuilderSession) (options : StabilizeOptions) :
    BuilderProgram P PlanBuilderSession := do
  let next ← stabilizeLoop P config options (config.maxRevisions.getD 3) session
  let next ← concede P next
  if options.persist = some false then pure next else savePlanBuilderSession P next

end PlanBuilder

end OpenLagrange
