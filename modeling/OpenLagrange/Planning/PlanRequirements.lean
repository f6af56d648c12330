/-
What a Planfile requires before it can run.

The requirements are derived from two places: from the nodes, whose capabilities,
risks and verification commands say what they need, and from the `requirements`
section, where an author can add more.  What is missing is judged against a runtime
profile and the packs that are available, where these are known.
-/
import OpenLagrange.Planning.Validator
import OpenLagrange.Util.Text

namespace OpenLagrange

inductive PlanPortabilityLevel where
  | portable | workspaceBound | profileBound | machineBound
  deriving DecidableEq, Repr

def PlanPortabilityLevel.text : PlanPortabilityLevel → String
  | .portable => "portable"
  | .workspaceBound => "workspace_bound"
  | .profileBound => "profile_bound"
  | .machineBound => "machine_bound"

structure PlanRequirementsReport where
  planId : String
  portabilityLevel : PlanPortabilityLevel
  requiredPacks : List String
  requiredProviders : List String
  requiredCredentials : List String
  permissions : List String
  approvalRequirements : List String
  sideEffects : List String
  scheduleInfo : Option Value
  missingPacks : List String
  missingProviders : List String
  missingCredentials : List String
  missingPermissions : List String
  suggestedCommands : List String
  warnings : List String

structure SearchProviderProfile where
  id : String
  kind : String
  enabled : Option Bool

/-- The parts of a runtime profile that requirements are judged against. -/
structure RuntimeProfileForRequirements where
  name : Option String
  searchProviders : Option (List SearchProviderProfile)
  /-- The names of the secrets the profile refers to. -/
  secretRefs : Option (List String)

/-! ### Reading the execution context -/

def Value.nonemptyText : Value → Option String
  | .str s => if s = "" then none else some s
  | _ => none

/-- Whether JavaScript takes the value for true. -/
def Value.truthy : Value → Bool
  | .undefined | .null => false
  | .bool b => b
  | .num text => text ≠ "0" ∧ text ≠ "NaN"
  | .str s => s ≠ ""
  | .arr _ | .obj _ | .native _ => true

/-! ### What is required -/

def packForCapability (capabilityRef : String) : Option String :=
  (if startsWith capabilityRef "research." then some "open-lagrange.research"
    else if startsWith capabilityRef "repo." then some "open-lagrange.repository"
    else if startsWith capabilityRef "chat." then some "open-lagrange.chat"
    else if startsWith capabilityRef "skill." then some "open-lagrange.skills"
    else if includes capabilityRef "." then some (beforeLastDot capabilityRef)
    else none).filter (· ≠ "")

def requiredProviderKinds (plan : Planfile) : List String :=
  let parameters := plan.contextField "parameters"
  let search :=
    if plan.nodes.any (·.allowedCapabilityRefs.contains "research.search_sources") then
      match recordField parameters "urls" with
      | .arr (_ :: _) => []
      | _ => [((recordField parameters "provider_id").nonemptyText).getD "search"]
    else []
  unique (search ++
    (if plan.nodes.any (·.allowedCapabilityRefs.any fun ref => startsWith ref "repo.") then
      ["workspace"] else []))

def requiredCredentialNames (plan : Planfile) : List String :=
  match plan.contextField "credentials" with
  | .arr items => unique (items.filterMap Value.nonemptyText)
  | _ => []

def nodePermissions (node : PlanNode) : List String :=
  ("risk:" ++ node.riskLevel.text) ::
    (if (node.verificationCommandIds.getD []).length > 0 then ["allowlisted_verification_command"]
      else [])

def nodeSideEffect (node : PlanNode) : String :=
  match node.riskLevel with
  | .read => "read"
  | .write => "workspace_or_artifact_write"
  | .destructive => "destructive_workspace_write"
  | .externalSideEffect => "external_side_effect"

/-- The part of the `requirements` section of a plan that `read` looks at. -/
def Planfile.required {α : Type} (plan : Planfile) (read : PlanfileRequirements → Option (List α)) :
    List α :=
  (plan.requirements.bind read).getD []

def requiredPacks (plan : Planfile) : List String :=
  unique ((plan.nodes.flatMap fun node => node.allowedCapabilityRefs.filterMap packForCapability) ++
    ((plan.required (·.packs)).filter (·.required)).map (·.id))

def requiredProviders (plan : Planfile) : List String :=
  unique (requiredProviderKinds plan ++ ((plan.required (·.providers)).filter (·.required)).map (·.id))

def requiredCredentials (plan : Planfile) : List String :=
  unique (requiredCredentialNames plan ++
    ((plan.required (·.credentials)).filter (·.required)).map (·.ref))

def requiredPermissions (plan : Planfile) : List String :=
  unique (plan.nodes.flatMap nodePermissions ++ plan.required (·.permissions))

def approvalRequirements (plan : Planfile) : List String :=
  unique ((plan.nodes.flatMap fun node =>
      if node.approvalRequired then [node.id ++ ": " ++ node.riskLevel.text] else []) ++
    plan.required (·.approvals))

/-! ### What is missing -/

def missingPacksFor (requiredPacks : List String) (availablePacks : Option (List String)) :
    List String :=
  match availablePacks with
  | none => []
  | some available => requiredPacks.filter (· ∉ available)

def searchProvidersOf (profile : Option RuntimeProfileForRequirements) :
    List SearchProviderProfile :=
  (profile.bind (·.searchProviders)).getD []

def hasLiveSearchProvider (profile : Option RuntimeProfileForRequirements) : Bool :=
  (searchProvidersOf profile).any fun provider =>
    provider.enabled ≠ some false ∧ provider.kind ≠ "fixture"

def missingProvidersFor (requiredProviders : List String)
    (profile : Option RuntimeProfileForRequirements) : List String :=
  requiredProviders.filter fun provider =>
    if provider = "workspace" then false
    else if provider = "search" then ¬ hasLiveSearchProvider profile
    else ¬ (searchProvidersOf profile).any fun config =>
      config.enabled ≠ some false ∧ config.id = provider

/-- A name every object inherits counts as a secret that is there. -/
def missingCredentialsFor (requiredCredentials : List String)
    (profile : Option RuntimeProfileForRequirements) : List String :=
  let refs := (profile.bind (·.secretRefs)).getD []
  requiredCredentials.filter fun credential =>
    credential ∉ refs ∧ credential ∉ Value.inheritedNames

/-! ### The report -/

def portabilityFor (plan : Planfile) (requiredProviders requiredCredentials : List String) :
    PlanPortabilityLevel :=
  let repository := plan.contextField "repository"
  let repoRoot := (recordField repository "repo_root").nonemptyText
  if repoRoot.any fun root => startsWith root "/" then .machineBound
  else if requiredCredentials.length > 0 ∨ requiredProviders.any (· ≠ "workspace") then .profileBound
  else if repoRoot.isSome ∨ "workspace" ∈ requiredProviders then .workspaceBound
  else .portable

def scheduleInfoFor (plan : Planfile) : Value := plan.contextField "schedule_intent"

def suggestedCommands (missingPacks missingProviders missingCredentials approvalRequirements :
    List String) : List String :=
  unique
    ((if "search" ∈ missingProviders then
        ["open-lagrange init --runtime podman --with-search", "open-lagrange up --with-search"]
      else []) ++
    ((missingProviders.filter (· ≠ "search")).map fun provider =>
      "open-lagrange search test-provider " ++ provider) ++
    (if missingPacks.length > 0 then ["open-lagrange pack list"] else []) ++
    (missingCredentials.map fun credential =>
      "open-lagrange secrets set " ++ credential ++ " --from-stdin") ++
    (if approvalRequirements.length > 0 then ["open-lagrange plan apply <planfile>"] else []))

def warningsFor (plan : Planfile) (missingPacks missingProviders missingCredentials : List String) :
    List String :=
  (if missingPacks.length > 0 then
    ["Missing required pack(s): " ++ ", ".intercalate missingPacks] else []) ++
  (if missingProviders.length > 0 then
    ["Missing required provider(s): " ++ ", ".intercalate missingProviders] else []) ++
  (if missingCredentials.length > 0 then
    ["Missing required credential(s): " ++ ", ".intercalate missingCredentials] else []) ++
  (if plan.nodes.any fun node =>
      node.executionMode = some .fixture ∨ node.executionMode = some .mock then
    ["Planfile contains fixture or mock execution nodes."] else [])

def derivePlanRequirements (plan : Planfile) (profile : Option RuntimeProfileForRequirements)
    (availablePacks : Option (List String)) : PlanRequirementsReport :=
  let missingPacks := missingPacksFor (requiredPacks plan) availablePacks
  let missingProviders := missingProvidersFor (requiredProviders plan) profile
  let missingCredentials := missingCredentialsFor (requiredCredentials plan) profile
  let scheduleInfo := scheduleInfoFor plan
  { planId := plan.planId
    portabilityLevel := portabilityFor plan (requiredProviders plan) (requiredCredentials plan)
    requiredPacks := requiredPacks plan
    requiredProviders := requiredProviders plan
    requiredCredentials := requiredCredentials plan
    permissions := requiredPermissions plan
    approvalRequirements := approvalRequirements plan
    sideEffects := unique (plan.nodes.map nodeSideEffect)
    scheduleInfo := if scheduleInfo.truthy then some scheduleInfo else none
    missingPacks
    missingProviders
    missingCredentials
    missingPermissions := []
    suggestedCommands := suggestedCommands missingPacks missingProviders missingCredentials
      (approvalRequirements plan)
    warnings := warningsFor plan missingPacks missingProviders missingCredentials }

end OpenLagrange
