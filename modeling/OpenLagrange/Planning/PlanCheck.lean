/-
Plan Check: whether a Planfile can become a run.

The check asks the validator, the derived requirements and the execution modes of the
nodes, and sums up in a status.  Only a blocking status keeps a run from being created.

Issues that ask for an approval do not count as validation errors here; they are listed
as approvals that the run will need.  A report is parsed by its schema before it is
handed out, and the one part that may not pass is the label of a requirement whose id
consists of separators.
-/
import OpenLagrange.Planning.PlanRequirements
import OpenLagrange.Planning.ControlPlane
import OpenLagrange.Lib.Table

namespace OpenLagrange

/-- What the check uses besides the control plane: the packs registered and Unicode upper case. -/
structure CheckPlatform extends Platform where
  packIds : List String
  upperCase : Char → String
  /-- The message of the schema when a requirement has no label. -/
  labelIssue : String

inductive RequirementKind where
  | pack | provider | credential | permission | approval | runtime | schedule
  deriving DecidableEq, Repr

def RequirementKind.text : RequirementKind → String
  | .pack => "pack"
  | .provider => "provider"
  | .credential => "credential"
  | .permission => "permission"
  | .approval => "approval"
  | .runtime => "runtime"
  | .schedule => "schedule"

inductive RequirementState where
  | present | missing | optionalMissing | misconfigured | unsupported
  deriving DecidableEq, Repr

structure RequirementStatus where
  kind : RequirementKind
  id : String
  label : String
  required : Bool
  status : RequirementState
  detail : Option String
  suggestedCommand : Option String
  deriving DecidableEq, Repr

structure ApprovalRequirementSummary where
  approvalId : String
  label : String
  riskLevel : RiskLevel
  nodeId : String
  required : Bool
  suggestedCommand : String
  deriving DecidableEq, Repr

structure SideEffectSummary where
  nodeId : String
  label : String
  riskLevel : RiskLevel
  requiresApproval : Bool
  deriving DecidableEq, Repr

structure PredictedArtifact where
  artifactId : String
  kind : String
  label : String
  nodeId : String
  deriving DecidableEq, Repr

/-- A validation issue as an error, with the issue as its details. -/
structure IssueError where
  code : String
  message : String
  observedAt : String
  severity : PlanIssueSeverity
  path : List PathItem
  issueCode : PlanIssueCode
  deriving DecidableEq, Repr

structure SuggestedAction extends NextAction where
  description : Option String
  deriving DecidableEq, Repr

inductive PlanCheckStatus where
  | runnable | runnableWithWarnings | missingRequirements | invalid | unsafePlan
  deriving DecidableEq, Repr

structure PlanCheckReport where
  planId : String
  planDigest : String
  status : PlanCheckStatus
  portability : PlanPortabilityLevel
  requiredPacks : List RequirementStatus
  requiredProviders : List RequirementStatus
  requiredCredentials : List RequirementStatus
  requiredPermissions : List RequirementStatus
  approvalRequirements : List ApprovalRequirementSummary
  scheduleRequirements : List RequirementStatus
  executionModeWarnings : List String
  sideEffects : List SideEffectSummary
  predictedArtifacts : List PredictedArtifact
  validationErrors : List IssueError
  warnings : List String
  suggestedActions : List SuggestedAction
  deriving DecidableEq, Repr

def planCheckBlocksRun (report : PlanCheckReport) : Bool :=
  report.status = .invalid ∨ report.status = .unsafePlan ∨ report.status = .missingRequirements

structure RunPlanCheckInput where
  planfile : Planfile
  runtimeProfile : Option RuntimeProfileForRequirements
  availablePacks : Option (List String)
  capabilitySnapshot : Option CapabilitySnapshot
  live : Option Bool
  now : String

namespace PlanCheck

variable (S : CheckPlatform)

/-! ### Requirements -/

/-- The parts of a text between the characters `stops` picks. -/
def splitAtChars (stops : Char → Bool) : List Char → List (List Char)
  | [] => [[]]
  | c :: rest =>
      match splitAtChars stops rest with
      | first :: others => if stops c then [] :: first :: others else (c :: first) :: others
      | [] => [[c]]

/-- `id.split(/[.:_-]/u)`, the parts capitalized and joined by blanks. -/
def labelFor (id : String) : String :=
  " ".intercalate (((splitAtChars (fun c => c = '.' ∨ c = ':' ∨ c = '_' ∨ c = '-') id.toList).filter
    (· ≠ [])).map fun part =>
      match part with
      | c :: rest => S.upperCase c ++ String.ofList rest
      | [] => "")

/-- A requirement of the report; its schema refuses an empty label. -/
def requirement (kind : RequirementKind) (id : String) (missing : Bool) (suggestedCommand : String) :
    Option RequirementStatus :=
  if labelFor S id = "" then none
  else some ⟨kind, id, labelFor S id, true, if missing then .missing else .present, none,
    if missing then some suggestedCommand else none⟩

def providerCommand (id : String) : String :=
  if id = "search" then "open-lagrange init --runtime podman --with-search"
  else "open-lagrange provider check " ++ id

def approvalCommand (planId id : String) : String :=
  "open-lagrange approval request " ++ planId ++ " --permission " ++ id

def RuntimeMode.text : RuntimeMode → String
  | .localMode => "local"
  | .remoteMode => "remote"

def runtimeRequirements (plan : Planfile) (profile : Option RuntimeProfileForRequirements) :
    List RequirementStatus :=
  let modes := ((plan.requirements.bind (·.runtime)).bind (·.mode)).getD []
  if modes.length = 0 then []
  else
    let present : Bool :=
      match (profile.bind (·.name)).filter (· ≠ "") with
      | some current => (if current = "remote" then RuntimeMode.remoteMode else .localMode) ∈ modes
      | none => RuntimeMode.localMode ∈ modes
    [⟨.runtime, "runtime.mode", "Runtime mode: " ++ " or ".intercalate (modes.map RuntimeMode.text), true,
      if present then .present else .unsupported,
      if present then none
      else some ("Current profile does not match required runtime mode: " ++
        ", ".intercalate (modes.map RuntimeMode.text)),
      none⟩]

def unsupportedTemplateRequirements (plan : Planfile) : List RequirementStatus :=
  if textOf (recordField (plan.contextField "template") "template_id") = some "research.digest" then
    [⟨.runtime, "template.research.digest", "Research digest execution", true, .unsupported,
      some "research.digest is scaffold-only until multi-topic branch execution is available.",
      some "open-lagrange plan instantiate <template> --write <path>"⟩]
  else []

/-- `plan.execution_context?.schedule_intent ?? plan.requirements?.runtime`, where it is truthy. -/
def scheduleRequirementsFor (plan : Planfile) : List RequirementStatus :=
  let intent := plan.contextField "schedule_intent"
  let scheduled : Bool :=
    if intent.isNullish then (plan.requirements.bind (·.runtime)).isSome else intent.truthy
  if scheduled then
    [⟨.schedule, "schedule", "Schedule definition", false, .present, none, none⟩]
  else []

/-! ### Approvals, side effects and artifacts -/

def approvalForNode (plan : Planfile) (node : PlanNode) : ApprovalRequirementSummary :=
  let approvalId := plan.planId ++ ":" ++ node.id ++ ":approval"
  ⟨approvalId, node.title ++ " approval", node.riskLevel, node.id, true,
    "open-lagrange approval approve " ++ approvalId ++ " --reason \"approved\""⟩

/-- The node an issue is about: the first name on its path that is a node's id. -/
def issueNode (plan : Planfile) (issue : PlanValidationIssue) : Option PlanNode :=
  (issue.path.findSome? fun item =>
    match item with
    | .key name => if plan.nodes.any (·.id = name) then some name else none
    | .index _ => none).bind plan.node?

def approvalRequirementsFor (plan : Planfile) (approvalIssues : List PlanValidationIssue) :
    List ApprovalRequirementSummary :=
  let fromNodes := (plan.nodes.filter (·.approvalRequired)).map (approvalForNode plan)
  let fromIssues := (approvalIssues.filterMap (issueNode plan)).map (approvalForNode plan)
  sortByLocale S.localeCompare (·.approvalId)
    ((fromNodes ++ fromIssues).foldl (Table.upsert (·.approvalId)) [])

def sideEffectsFor (plan : Planfile) : List SideEffectSummary :=
  (plan.nodes.filter (·.riskLevel ≠ .read)).map fun node =>
    ⟨node.id, node.title, node.riskLevel, node.approvalRequired⟩

def artifactKindFor (output : String) : String :=
  if mentions "brief".toList output.toList then "research_brief"
  else if mentions "patch".toList output.toList then "patch_artifact"
  else if mentions "verification".toList output.toList ∨ mentions "test".toList output.toList then
    "verification_report"
  else if mentions "plan".toList output.toList then "planfile"
  else "capability_step_result"

def predictedArtifactsFor (plan : Planfile) : List PredictedArtifact :=
  plan.nodes.flatMap fun node => node.expectedOutputs.zipIdx.map fun (output, index) =>
    ⟨node.id ++ ":expected:" ++ toString (index + 1), artifactKindFor output, output, node.id⟩

/-! ### Warnings -/

def executionModeWarningsFor (plan : Planfile) (live : Bool) : List String :=
  plan.nodes.flatMap fun node =>
    let mode := node.executionMode.getD .live
    if (mode = .fixture ∨ mode = .mock) ∧ live then
      [node.id ++ " uses " ++ mode.text ++ " execution and cannot be used for a normal live run."]
    else if mode = .dryRun ∧ live then
      [node.id ++ " is marked dry_run and will be converted before live execution."]
    else []

def portabilityWarnings (plan : Planfile) (portability : PlanPortabilityLevel) : List String :=
  match portability with
  | .portable => []
  | .machineBound => ["Planfile contains machine-bound details such as absolute local paths."]
  | .profileBound => ["Planfile depends on profile-specific providers or credentials."]
  | .workspaceBound =>
      if plan.nodes.any (·.allowedCapabilityRefs.any fun ref => startsWith ref "repo.") then
        ["Planfile depends on the current workspace."] else []

def optionalWarnings (plan : Planfile) : List String :=
  ((plan.required (·.packs)).filter (¬ ·.required)).map
    (fun item => "Optional pack not required before run: " ++ item.id) ++
  ((plan.required (·.providers)).filter (¬ ·.required)).map
    (fun item => "Optional provider not required before run: " ++ item.id) ++
  ((plan.required (·.credentials)).filter (¬ ·.required)).map
    (fun item => "Optional credential not required before run: " ++ item.ref)

/-! ### Suggested actions -/

def editPlanAction : SuggestedAction where
  actionId := "edit_plan"
  label := "Edit Planfile"
  command := some "open-lagrange plan check <planfile>"
  actionType := .editPlan
  required := true
  targetRef := none
  description := none

def configureAction (item : RequirementStatus) : SuggestedAction where
  actionId := "configure:" ++ item.kind.text ++ ":" ++ item.id
  label := item.label
  command := item.suggestedCommand
  actionType := if item.kind = .permission ∨ item.kind = .approval then .approve
    else .configureProvider
  required := item.required
  targetRef := some item.id
  description := item.detail

def approveAction (approval : ApprovalRequirementSummary) : SuggestedAction where
  actionId := "approve:" ++ approval.approvalId
  label := approval.label
  command := some approval.suggestedCommand
  actionType := .approve
  required := approval.required
  targetRef := some approval.approvalId
  description := none

def runAction (planId : String) : SuggestedAction where
  actionId := "run:" ++ planId
  label := "Run now"
  command := some ("open-lagrange plan run " ++ planId)
  actionType := .resume
  required := false
  targetRef := some planId
  description := none

def suggestedActionsFor (planId : String) (missing : List RequirementStatus)
    (approvals : List ApprovalRequirementSummary) (invalid : Bool) : List SuggestedAction :=
  (missing.map configureAction ++ approvals.map approveAction ++
    (if invalid then [editPlanAction] else []) ++ [runAction planId]).foldl
      (Table.upsert (·.actionId)) []

/-! ### The report -/

def structuredErrorForIssue (now : String) (issue : PlanValidationIssue) : IssueError where
  code :=
    match issue.code with
    | .unknownCapability => "UNKNOWN_CAPABILITY"
    | .approvalRequired => "APPROVAL_REQUIRED"
    | _ => "INVALID_PLAN"
  message := issue.message
  observedAt := now
  severity := issue.severity
  path := issue.path
  issueCode := issue.code

/-- The capabilities the validator is to know, where the caller says anything about them. -/
def snapshotOptions (input : RunPlanCheckInput) : Option CapabilitySnapshot :=
  match input.capabilitySnapshot, input.availablePacks with
  | some snapshot, _ => some snapshot
  | none, none => none
  | none, some _ =>
      let refs := if input.planfile.refined S.isDatetime then
        distinct input.planfile.capabilityRefs else []
      some (createCapabilitySnapshotForTask S.sha256 S.localeCompare S.registry
        ⟨["project:read", "research:read"], refs, .read⟩ input.now)

def checkValidation (input : RunPlanCheckInput) : PlanValidationResult :=
  validatePlanfile S.toPlatform (snapshotOptions S input) input.planfile

/-- The issues that make a plan invalid for the check: all errors but missing approvals. -/
def hardValidationErrors (input : RunPlanCheckInput) : List PlanValidationIssue :=
  (checkValidation S input).issues.filter fun issue =>
    issue.severity = .error ∧ issue.code ≠ .approvalRequired

def approvalIssues (input : RunPlanCheckInput) : List PlanValidationIssue :=
  (checkValidation S input).issues.filter (·.code = .approvalRequired)

/-- The report on a plan the schema refuses. -/
def refusedReport (input : RunPlanCheckInput) (planDigest : String) : PlanCheckReport where
  planId := if input.planfile.planId = "" then "unknown_plan" else input.planfile.planId
  planDigest
  status := .invalid
  portability := .machineBound
  requiredPacks := []
  requiredProviders := []
  requiredCredentials := []
  requiredPermissions := []
  approvalRequirements := []
  scheduleRequirements := []
  executionModeWarnings := []
  sideEffects := []
  predictedArtifacts := []
  validationErrors := (checkValidation S input).issues.map (structuredErrorForIssue input.now)
  warnings := []
  suggestedActions := [editPlanAction]

/-- The requirements of the report that decide whether something is missing. -/
structure Requirements where
  packs : List RequirementStatus
  providers : List RequirementStatus
  credentials : List RequirementStatus
  permissions : List RequirementStatus
  runtime : List RequirementStatus
  templates : List RequirementStatus

def Requirements.all (r : Requirements) : List RequirementStatus :=
  r.packs ++ r.providers ++ r.credentials ++ r.permissions ++ r.runtime ++ r.templates

/-- `status === "missing" || status === "misconfigured" || status === "unsupported"`. -/
def RequirementStatus.blocks (item : RequirementStatus) : Bool :=
  item.status = .missing ∨ item.status = .misconfigured ∨ item.status = .unsupported

def requirementsOf (input : RunPlanCheckInput) : Option Requirements := do
  let plan := input.planfile
  let derived := derivePlanRequirements plan input.runtimeProfile input.availablePacks
  let packs ← derived.requiredPacks.mapM fun id =>
    requirement S .pack id (id ∈ derived.missingPacks) ("open-lagrange pack install " ++ id)
  let providers ← derived.requiredProviders.mapM fun id =>
    requirement S .provider id (id ∈ derived.missingProviders) (providerCommand id)
  let credentials ← derived.requiredCredentials.mapM fun id =>
    requirement S .credential id (id ∈ derived.missingCredentials)
      ("open-lagrange secrets set " ++ id ++ " --from-stdin")
  let permissions ← derived.permissions.mapM fun id =>
    requirement S .permission id (id ∈ derived.missingPermissions) (approvalCommand plan.planId id)
  pure ⟨packs, providers, credentials, permissions, runtimeRequirements plan input.runtimeProfile,
    unsupportedTemplateRequirements plan⟩

def warningsOf (input : RunPlanCheckInput) : List String :=
  let plan := input.planfile
  let derived := derivePlanRequirements plan input.runtimeProfile input.availablePacks
  unique (derived.warnings ++ executionModeWarningsFor plan (input.live.getD false) ++
    portabilityWarnings plan derived.portabilityLevel ++ optionalWarnings plan)

/-- `/fixture|mock/i`. -/
def mentionsFixture (warning : String) : Bool :=
  mentions "fixture".toList warning.toList || mentions "mock".toList warning.toList

/-- The status; what is unsafe is asked only about a plan that is invalid already. -/
def statusOf (input : RunPlanCheckInput) (missingRequired : Bool) : PlanCheckStatus :=
  let hard := hardValidationErrors S input
  if hard.length > 0 then
    if hard.any (·.code = .destructiveGoalNotExplicit) ∨
        (executionModeWarningsFor input.planfile (input.live.getD false)).any fun warning =>
          mentionsFixture warning ∧ input.live.getD false then .unsafePlan
    else .invalid
  else if missingRequired then .missingRequirements
  else if (warningsOf input).length > 0 ∨
      (approvalRequirementsFor S input.planfile (approvalIssues S input)).length > 0 ∨
      (derivePlanRequirements input.planfile input.runtimeProfile
        input.availablePacks).sideEffects.length > 0 then .runnableWithWarnings
  else .runnable

/-- Check a plan; `none` where the schema refuses the report.  `rawDigest` is the hash of what
was handed in when that is not a Planfile. -/
def runPlanCheck (rawDigest : String) (input : RunPlanCheckInput) : Option PlanCheckReport :=
  let plan := input.planfile
  if plan.refined S.isDatetime then do
    let derived := derivePlanRequirements plan input.runtimeProfile input.availablePacks
    let requirements ← requirementsOf S input
    let approvals := approvalRequirementsFor S plan (approvalIssues S input)
    some
      { planId := plan.planId
        planDigest := canonicalPlanDigest S.sha256 plan
        status := statusOf S input (requirements.all.any RequirementStatus.blocks)
        portability := derived.portabilityLevel
        requiredPacks := requirements.packs
        requiredProviders := requirements.providers
        requiredCredentials := requirements.credentials
        requiredPermissions := requirements.permissions
        approvalRequirements := approvals
        scheduleRequirements := scheduleRequirementsFor plan
        executionModeWarnings := executionModeWarningsFor plan (input.live.getD false)
        sideEffects := sideEffectsFor plan
        predictedArtifacts := predictedArtifactsFor plan
        validationErrors := (checkValidation S input).issues.map (structuredErrorForIssue input.now)
        warnings := warningsOf input
        suggestedActions := suggestedActionsFor plan.planId
          (requirements.all.filter (·.status ≠ .present)) approvals
          ((hardValidationErrors S input).length > 0) }
  else some (refusedReport S input rawDigest)

end PlanCheck

/-! ### Creating a run that passed the check -/

structure CheckAndCreateInput extends ApplyPlanfileInput where
  runtimeProfile : Option RuntimeProfileForRequirements

inductive CheckAndCreateRunResult where
  | blocked (report : PlanCheckReport) (message : String)
  | created (report : PlanCheckReport) (run : CreateRunResult) (message : String)

def PlanCheckStatus.text : PlanCheckStatus → String
  | .runnable => "runnable"
  | .runnableWithWarnings => "runnable_with_warnings"
  | .missingRequirements => "missing_requirements"
  | .invalid => "invalid"
  | .unsafePlan => "unsafe"

/-- What the check is asked about a plan before its run is created. -/
def createCheckInput (S : CheckPlatform) (plan : Planfile) (input : CheckAndCreateInput)
    (now : String) : RunPlanCheckInput :=
  ⟨plan, input.runtimeProfile, some S.packIds, none, some (input.live ≠ some false), now⟩

/-- The request to create the run of a plan that was checked. -/
def createRunInput (plan : Planfile) (input : CheckAndCreateInput) (now : String) :
    ApplyPlanfileInput :=
  ⟨plan, some (input.live.getD true), input.outputDir.filter (· ≠ ""), input.runId.filter (· ≠ ""),
    some now⟩

def checkAndCreateRunFromPlanfile (S : CheckPlatform) (input : CheckAndCreateInput) :
    Program CheckAndCreateRunResult := do
  let now ← nowOr input.now
  let parsed ← parsePlanfile S.toPlatform input.planfile
  let base ← parsePlanfile S.toPlatform { parsed with status := .validated, updatedAt := now }
  let plan := withCanonicalPlanDigest S.sha256 base
  match PlanCheck.runPlanCheck S "" (createCheckInput S plan input now) with
  | none => .fail S.labelIssue
  | some report =>
      if planCheckBlocksRun report then
        pure (.blocked report ("Plan Check blocked run creation: " ++ report.status.text ++ "."))
      else do
        let run ← createRunFromPlanfile S.toPlatform (createRunInput plan input now)
        pure (.created report run ("Run created: " ++ run.runId))

end OpenLagrange
