/-
Plan Builder sessions and the files they are kept in.

A session holds the plan that is being built, the reports that were made of it, the
questions that are open and the ones that were answered, and two histories: revisions of the
plan by the builder, and submissions of edited documents.  Each session is one file, whose
path is made from the id of the session.
-/
import OpenLagrange.Planning.PlanSimulation
import OpenLagrange.Util.Path

namespace OpenLagrange

inductive PlanBuilderStatus where
  | drafting | simulating | validating | needsInput | revising | ready | approved | yielded
  deriving DecidableEq, Repr

inductive PromptSource where
  | chat | skillsFile | planfile | template
  deriving DecidableEq, Repr

inductive PlanRevisionSource where
  | deterministic | model
  deriving DecidableEq, Repr

structure PlanRevision where
  revisionId : String
  source : PlanRevisionSource
  reason : String
  changes : List String
  planfile : Planfile
  validationOk : Bool
  createdAt : String
  telemetryArtifactId : Option String
  deriving Repr

inductive UpdateSource where
  | web | tui | cli | externalFile
  deriving DecidableEq, Repr

def UpdateSource.text : UpdateSource → String
  | .web => "web"
  | .tui => "tui"
  | .cli => "cli"
  | .externalFile => "external_file"

inductive PlanfileRevisionStatus where
  | accepted | rejected | needsInput
  deriving DecidableEq, Repr

structure PlanfileRevision where
  revisionId : String
  sessionId : String
  source : UpdateSource
  previousDigest : Option String
  newDigest : Option String
  status : PlanfileRevisionStatus
  summary : String
  createdAt : String
  artifactRefs : List String
  deriving DecidableEq, Repr

structure PlanBuilderSession where
  sessionId : String
  promptSource : PromptSource
  originalInput : String
  currentPlanfile : Option Planfile
  simulationReport : Option PlanSimulationReport
  validationReport : Option PlanValidationResult
  pendingQuestions : List PlannerQuestion
  answeredQuestions : List PlannerQuestion
  revisionHistory : List PlanRevision
  planfileRevisionHistory : List PlanfileRevision
  status : PlanBuilderStatus
  yieldReason : Option String
  createdAt : String
  updatedAt : String
  deriving Repr

/-! ### Files -/

def defaultPlanBuilderRoot : List String := [".open-lagrange", "plan-builder", "sessions"]

def sessionPath (sessionId : String) : FilePath :=
  joinPath (defaultPlanBuilderRoot ++ [sessionId ++ ".json"])

def sessionIndexPath : FilePath := joinPath (defaultPlanBuilderRoot ++ ["index.json"])

/-- The session files there are. -/
abbrev SessionFiles := FilePath → Option PlanBuilderSession

def getPlanBuilderSession (files : SessionFiles) (sessionId : String) : Option PlanBuilderSession :=
  files (sessionPath sessionId)

def savePlanBuilderSession (files : SessionFiles) (session : PlanBuilderSession) : SessionFiles :=
  fun path => if path = sessionPath session.sessionId then some session else files path

theorem save_own (files : SessionFiles) (session : PlanBuilderSession) :
    savePlanBuilderSession files session (sessionPath session.sessionId) = some session := if_pos rfl

/-! ### The lifecycle section of a plan -/

structure LifecycleUpdate where
  sessionId : String
  questionsAnswered : Option Nat
  validationStatus : LifecycleValidation
  simulationStatus : LifecycleSimulation
  status : PlanStatus

/-- A plan with its lifecycle section filled in.  Only the builder counts answered questions. -/
def withLifecycle (sha256 : String → String) (plan : Planfile) (now : String)
    (update : LifecycleUpdate) : Planfile :=
  withCanonicalPlanDigest sha256
    { plan with
      status := update.status
      lifecycle := some
        { builderSessionId := some update.sessionId
          questionsAnswered := update.questionsAnswered.or (plan.lifecycle.bind (·.questionsAnswered))
          assumptions := some plan.goalFrame.assumptions
          validationStatus := some update.validationStatus
          simulationStatus := some update.simulationStatus }
      updatedAt := now }

def PlanSimulationStatus.lifecycle : PlanSimulationStatus → LifecycleSimulation
  | .ready => .ready
  | .needsInput => .needsInput
  | .missingRequirements => .missingRequirements
  | .invalid => .invalid
  | .unsafePlan => .unsafePlan

end OpenLagrange
