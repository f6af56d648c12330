/-
Planfiles as Markdown documents.

A Planfile is rendered as a page of prose around one fenced block, and the block holds the
plan as YAML.  Reading a page back takes every fenced block whose first line says YAML and
whose body names the schema; there has to be exactly one.  The prose, a Mermaid drawing of
the plan among it, is made of texts of the plan and is not looked at again.

The YAML library is a parameter.  `toLowerCase` is taken on ASCII letters, as no other
character becomes one of the letters that are compared.
-/
import OpenLagrange.Planning.Validator
import OpenLagrange.Lib.Fences
import OpenLagrange.Util.Text

namespace OpenLagrange

/-- The YAML library, on Planfiles. -/
structure PlanfileYaml where
  stringify : Planfile → String
  /-- `YAML.parse`, and the shape of a Planfile in what it reads; an error is its message. -/
  parse : String → Except String Planfile
  /-- The message of the schema for a Planfile that it refuses. -/
  refusal : Planfile → String

def PlanIssueCode.text : PlanIssueCode → String
  | .invalidSchema => "INVALID_SCHEMA"
  | .invalidPlan => "INVALID_PLAN"
  | .invalidNodeId => "INVALID_NODE_ID"
  | .duplicateNodeId => "DUPLICATE_NODE_ID"
  | .missingDependency => "MISSING_DEPENDENCY"
  | .cycleDetected => "CYCLE_DETECTED"
  | .unreachableNode => "UNREACHABLE_NODE"
  | .unknownCapability => "UNKNOWN_CAPABILITY"
  | .approvalRequired => "APPROVAL_REQUIRED"
  | .unknownVerificationCommand => "UNKNOWN_VERIFICATION_COMMAND"
  | .patchAcceptanceMissing => "PATCH_ACCEPTANCE_MISSING"
  | .destructiveGoalNotExplicit => "DESTRUCTIVE_GOAL_NOT_EXPLICIT"

/-! ### The Mermaid drawing -/

/-- A character outside the basic plane is two code units, and each is replaced. -/
def safeMermaidId (id : String) : String :=
  String.join (id.toList.map fun c =>
    if c.isAlphanum ∨ c = '_' then c.toString else if c.toNat < 0x10000 then "_" else "__")

def escapeLabel (value : String) : String :=
  String.join (value.toList.map fun c =>
    if c = '\\' then "\\\\" else if c = '"' then "'" else if c = '\n' then " " else c.toString)

def edgesFor (nodes : List PlanNode) (edges : List PlanEdge) : List PlanEdge :=
  if edges.length > 0 then edges
  else nodes.flatMap fun node => node.dependsOn.map fun dependency => ⟨dependency, node.id, "depends on"⟩

def renderPlanMermaid (nodes : List PlanNode) (edges : List PlanEdge) : String :=
  "\n".intercalate ("flowchart TD" ::
    ((nodes.map fun node => "  " ++ safeMermaidId node.id ++ "[\"" ++ escapeLabel node.title ++ "\"]") ++
      (edgesFor nodes edges).map fun edge =>
        "  " ++ safeMermaidId edge.source ++ " -->" ++
          (if edge.reason = "" then "" else "|" ++ escapeLabel edge.reason ++ "|") ++ " " ++
          safeMermaidId edge.target))

/-! ### The page -/

structure RenderPlanfileMarkdownOptions where
  dryRunFindings : Option (List String)
  validationIssues : Option (List PlanValidationIssue)
  nextStep : Option String
  deriving DecidableEq, Repr

def numbered (items : List String) : String :=
  if items.length > 0 then
    "\n".intercalate (items.zipIdx.map fun item => toString (item.2 + 1) ++ ". " ++ item.1)
  else "1. No acceptance criteria recorded."

def bulletList (items : List String) : String :=
  if items.length > 0 then "\n".intercalate (items.map fun item => "- " ++ item) else "- None."

def approvalLines (plan : Planfile) : String :=
  let nodes := plan.nodes.filter (·.approvalRequired)
  if nodes.length = 0 then "- No node approval requirements recorded."
  else "\n".intercalate (nodes.map fun node =>
    "- " ++ node.id ++ ": " ++ node.riskLevel.text ++ " approval required")

def statusProjection (plan : Planfile) : String :=
  "\n".intercalate (plan.nodes.map fun node => "- " ++ node.id ++ ": " ++ node.status.text)

def defaultNextStep (plan : Planfile) : String :=
  if plan.status = .draft then "Validate the executable YAML block."
  else if plan.status = .validated then
    if plan.mode = .dryRun then "Review the dry-run plan." else "Apply through the control plane."
  else if plan.status = .pending then "Start or resume execution through the control plane."
  else "Review current status and artifacts."

def artifactLines (plan : Planfile) : String :=
  if plan.artifactRefs.length > 0 then
    "\n".intercalate (plan.artifactRefs.map fun artifact =>
      "- " ++ artifact.kind.text ++ ": " ++ artifact.pathOrUri ++ " - " ++ artifact.summary)
  else "- No artifacts recorded."

def errorLines (plan : Planfile) (options : RenderPlanfileMarkdownOptions) : String :=
  let errors := (plan.nodes.flatMap fun node => node.errors.map fun error =>
      "- " ++ node.id ++ ": " ++ error) ++
    (options.validationIssues.getD []).map fun issue => "- " ++ issue.code.text ++ ": " ++ issue.message
  if errors.length > 0 then "\n".intercalate errors else "- No errors recorded."

/-- The lines in front of the executable block. -/
def linesBefore (plan : Planfile) : List String :=
  ["# Planfile: " ++ plan.goalFrame.interpretedGoal, "", "## Goal", plan.goalFrame.interpretedGoal,
    "", "## Assumptions", bulletList plan.goalFrame.assumptions, "", "## Non-goals",
    bulletList plan.goalFrame.nonGoals, "", "## Acceptance Criteria",
    numbered plan.goalFrame.acceptanceCriteria, "", "## Plan DAG", "```mermaid",
    renderPlanMermaid plan.nodes plan.edges, "```", "", "## Executable Plan"]

/-- The lines behind the executable block. -/
def linesAfter (plan : Planfile) (options : RenderPlanfileMarkdownOptions) : List String :=
  ["", "## Dry-run Findings",
    bulletList (options.dryRunFindings.getD ["No dry-run findings recorded."]), "",
    "## Approval Requirements", approvalLines plan, "", "## Execution Status", statusProjection plan,
    "", "## Artifacts", artifactLines plan, "", "## Errors", errorLines plan options, "",
    "## Next Step", options.nextStep.getD (defaultNextStep plan), ""]

def renderPlanfileMarkdown (yaml : PlanfileYaml) (plan : Planfile)
    (options : RenderPlanfileMarkdownOptions) : String :=
  "\n".intercalate (linesBefore plan ++
    ["```yaml planfile", String.ofList (trimEndChars (yaml.stringify plan).toList), "```"] ++
    linesAfter plan options)

/-! ### Reading a page -/

def schemaMarker : String := "schema_version: open-lagrange.plan.v1"

/-- Whether the first line of a block says that the block is YAML. -/
def yamlInfo (info : List Char) : Bool :=
  let word := (trimChars info).map Char.toLower
  "yaml".toList.isPrefixOf word || "yml".toList.isPrefixOf word

def isCandidate (block : List Char × List Char) : Bool :=
  yamlInfo block.1 && includesChars schemaMarker.toList (trimChars block.2)

/-- The blocks of a page that could be the executable one. -/
def candidates (markdown : String) : List (List Char × List Char) :=
  (Fences.scan 0 markdown.toList).filter isCandidate

def extractExecutableYaml (markdown : String) : Except String String :=
  match candidates markdown with
  | [] => .error "No executable Planfile YAML block found."
  | [block] => .ok (String.ofList (trimChars block.2))
  | _ => .error "Multiple executable Planfile YAML blocks found."

def parsePlanfileYaml (isDatetime : String → Bool) (yaml : PlanfileYaml) (yamlText : String) :
    Except String Planfile :=
  match yaml.parse yamlText with
  | .error message => .error message
  | .ok plan => if plan.refined isDatetime then .ok plan else .error (yaml.refusal plan)

def parsePlanfileMarkdown (isDatetime : String → Bool) (yaml : PlanfileYaml) (markdown : String) :
    Except String Planfile :=
  match extractExecutableYaml markdown with
  | .error message => .error message
  | .ok text => parsePlanfileYaml isDatetime yaml text

end OpenLagrange
