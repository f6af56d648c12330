/-
Simulating a Planfile without running it.

A simulation derives the requirements of a plan and sums up in a status whether the plan
could be started as it is.  It also asks the questions that a user has to answer first.
Whether the plan is valid it takes from a validation report, where it is given one.
-/
import OpenLagrange.Planning.PlanRequirements
import OpenLagrange.Planning.PlanfileMarkdown

namespace OpenLagrange

inductive QuestionSeverity where
  | blocking | clarifying | optional
  deriving DecidableEq, Repr

structure PlannerQuestion where
  questionId : String
  severity : QuestionSeverity
  question : String
  whyItMatters : String
  defaultAssumption : Option String
  choices : List String
  affectedNodes : List String
  answer : Option String
  answeredAt : Option String
  deriving DecidableEq, Repr

/-- `!question.answer`; an answer is never empty. -/
def PlannerQuestion.unanswered (q : PlannerQuestion) : Bool := q.answer.isNone

def unansweredQuestions (questions : List PlannerQuestion) : List PlannerQuestion :=
  questions.filter (·.unanswered)

inductive PlanSimulationStatus where
  | ready | needsInput | missingRequirements | invalid | unsafePlan
  deriving DecidableEq, Repr

structure PlanSimulationReport where
  status : PlanSimulationStatus
  requiredPacks : List String
  requiredProviders : List String
  requiredCredentials : List String
  requiredPermissions : List String
  approvalRequirements : List String
  predictedArtifacts : List String
  estimatedSteps : Nat
  questions : List PlannerQuestion
  validatorErrors : List String
  warnings : List String
  deriving DecidableEq, Repr

/-! ### Questions -/

/-- A question of a plan; its id depends on the plan's id and on what is asked. -/
def question (sha256 : String → String) (plan : Planfile) (key : String) (severity : QuestionSeverity)
    (text whyItMatters defaultAssumption : String) (choices affectedNodes : List String) :
    PlannerQuestion where
  questionId := "question_" ++
    firstChars 16 (stableHash sha256 (.obj [("plan_id", .str plan.planId), ("key", .str key)]))
  severity
  question := text
  whyItMatters
  defaultAssumption := some defaultAssumption
  choices
  affectedNodes
  answer := none
  answeredAt := none

def nodesUsing (plan : Planfile) (capabilityRef : String) : List String :=
  (plan.nodes.filter fun node => capabilityRef ∈ node.allowedCapabilityRefs).map (·.id)

def nodesOfRisk (plan : Planfile) (risk : RiskLevel) : List String :=
  (plan.nodes.filter (·.riskLevel = risk)).map (·.id)

/-- Whether a schedule was asked for without a time. -/
def lacksScheduleTime (plan : Planfile) : Bool :=
  let schedule := plan.contextField "schedule_intent"
  (match recordField schedule "requested" with
    | .bool requested => requested
    | _ => false) && (textOf (recordField schedule "time_of_day")).isNone

def scheduleQuestion (sha256 : String → String) (plan : Planfile) : PlannerQuestion :=
  question sha256 plan "schedule_time" .blocking
    "What time of day should this scheduled Planfile use?"
    "A schedule cannot be saved without an explicit time." "08:00" ["08:00", "09:00", "17:00"]
    (plan.nodes.map (·.id))

def searchQuestion (sha256 : String → String) (plan : Planfile) : PlannerQuestion :=
  question sha256 plan "search_provider" .blocking
    "Which search source should this research Planfile use?"
    "Topic research requires a configured live search provider or explicit source URLs."
    "Configure local-searxng or provide --url sources."
    ["configure local-searxng", "provide URLs", "defer search"]
    (nodesUsing plan "research.search_sources")

def sideEffectQuestion (sha256 : String → String) (plan : Planfile) : PlannerQuestion :=
  question sha256 plan "external_side_effect" .clarifying
    "Confirm that this Planfile may request approval for external side effects."
    "External side effects need explicit review before execution."
    "Require approval before execution."
    ["require approval", "revise to avoid external side effects"]
    (nodesOfRisk plan .externalSideEffect)

def destructiveQuestion (sha256 : String → String) (plan : Planfile) : PlannerQuestion :=
  question sha256 plan "destructive_action" .blocking
    "Confirm the destructive scope or revise the Planfile."
    "Destructive actions require explicit user intent and approval."
    "Revise to avoid destructive actions."
    ["revise to avoid destructive actions", "explicitly allow destructive scope"]
    (nodesOfRisk plan .destructive)

def planQuestions (sha256 : String → String) (plan : Planfile)
    (requirements : PlanRequirementsReport) : List PlannerQuestion :=
  (if lacksScheduleTime plan then [scheduleQuestion sha256 plan] else []) ++
  (if "search" ∈ requirements.missingProviders then [searchQuestion sha256 plan] else []) ++
  (if plan.nodes.any (·.riskLevel = .externalSideEffect) then [sideEffectQuestion sha256 plan]
    else []) ++
  (if plan.nodes.any (·.riskLevel = .destructive) then [destructiveQuestion sha256 plan] else [])

/-- `items.slice(0, count)`. -/
def sliceTo {α : Type} (count : Int) (items : List α) : List α :=
  if 0 ≤ count then items.take count.toNat else items.take (items.length - count.natAbs)

/-! ### The simulation -/

structure SimulatePlanfileInput where
  planfile : Planfile
  validationReport : Option PlanValidationResult
  runtimeProfile : Option RuntimeProfileForRequirements
  maxQuestions : Option Int

def validatorErrorTexts (validation : Option PlanValidationResult) : List String :=
  (((validation.map (·.issues)).getD []).filter (·.severity = .error)).map fun issue =>
    issue.code.text ++ ": " ++ issue.message

def simulatedQuestions (sha256 : String → String) (input : SimulatePlanfileInput) :
    List PlannerQuestion :=
  sliceTo (input.maxQuestions.getD 5) (planQuestions sha256 input.planfile
    (derivePlanRequirements input.planfile input.runtimeProfile none))

def simulationStatus (sha256 : String → String) (input : SimulatePlanfileInput) : PlanSimulationStatus :=
  let requirements := derivePlanRequirements input.planfile input.runtimeProfile none
  if (validatorErrorTexts input.validationReport).length > 0 then .invalid
  else if input.planfile.nodes.any (·.riskLevel = .destructive) then .unsafePlan
  else if (simulatedQuestions sha256 input).any fun q => q.severity = .blocking ∧ q.unanswered then
    .needsInput
  else if requirements.missingProviders.length > 0 ∨ requirements.missingCredentials.length > 0 ∨
      requirements.missingPacks.length > 0 then .missingRequirements
  else .ready

def simulatePlanfile (sha256 : String → String) (input : SimulatePlanfileInput) :
    PlanSimulationReport :=
  let requirements := derivePlanRequirements input.planfile input.runtimeProfile none
  { status := simulationStatus sha256 input
    requiredPacks := requirements.requiredPacks
    requiredProviders := requirements.requiredProviders
    requiredCredentials := requirements.requiredCredentials
    requiredPermissions := requirements.permissions
    approvalRequirements := requirements.approvalRequirements
    predictedArtifacts := unique (input.planfile.nodes.flatMap (·.expectedOutputs))
    estimatedSteps := input.planfile.nodes.length
    questions := simulatedQuestions sha256 input
    validatorErrors := validatorErrorTexts input.validationReport
    warnings := requirements.warnings }

end OpenLagrange
