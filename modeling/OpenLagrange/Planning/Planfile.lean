/-
The Planfile schema, and the canonical object its digest is taken of.

The structures carry the shape that the schema checks; `Planfile.refined` is the
rest of the check, the lengths and formats a type does not express.  Which strings
are ISO datetimes is decided by the schema library, so it is a parameter.  Where the
schema has a default, the structure holds the value after it was filled in.

The canonical object is what a reviewer approves: everything that decides what a
run does, without the parts a run changes.  It leaves out the statuses, artifacts
and errors of the nodes, the status of the plan and its timestamps; it also leaves
out the requirements.
-/
import OpenLagrange.Util.Value

namespace OpenLagrange

inductive RiskLevel where
  | read | write | destructive | externalSideEffect
  deriving DecidableEq, Repr

inductive ExecutionMode where
  | live | dryRun | fixture | mock | test
  deriving DecidableEq, Repr

inductive PlanMode where
  | dryRun | apply
  deriving DecidableEq, Repr

inductive PlanStatus where
  | draft | validated | ready | approved | pending | running | completed | failed | yielded
  deriving DecidableEq, Repr

inductive PlanNodeKind where
  | frame | inspect | analyze | design | patch | verify | repair | review | approval | finalize
  deriving DecidableEq, Repr

inductive PlanNodeStatus where
  | pending | ready | running | completed | failed | yielded | skipped
  deriving DecidableEq, Repr

inductive PlanArtifactKind where
  | goalFrame | planfile | evidenceBundle | patchPlan | patchArtifact | verificationReport
  | reviewReport | finalReport | finalPatchArtifact | worktreeSession | markdownProjection
  | capabilityStepResult | rawLog
  deriving DecidableEq, Repr

def RiskLevel.text : RiskLevel → String
  | .read => "read"
  | .write => "write"
  | .destructive => "destructive"
  | .externalSideEffect => "external_side_effect"

def ExecutionMode.text : ExecutionMode → String
  | .live => "live"
  | .dryRun => "dry_run"
  | .fixture => "fixture"
  | .mock => "mock"
  | .test => "test"

def PlanMode.text : PlanMode → String
  | .dryRun => "dry_run"
  | .apply => "apply"

def PlanNodeKind.text : PlanNodeKind → String
  | .frame => "frame"
  | .inspect => "inspect"
  | .analyze => "analyze"
  | .design => "design"
  | .patch => "patch"
  | .verify => "verify"
  | .repair => "repair"
  | .review => "review"
  | .approval => "approval"
  | .finalize => "finalize"

def PlanNodeStatus.text : PlanNodeStatus → String
  | .pending => "pending"
  | .ready => "ready"
  | .running => "running"
  | .completed => "completed"
  | .failed => "failed"
  | .yielded => "yielded"
  | .skipped => "skipped"

def PlanArtifactKind.text : PlanArtifactKind → String
  | .goalFrame => "goal_frame"
  | .planfile => "planfile"
  | .evidenceBundle => "evidence_bundle"
  | .patchPlan => "patch_plan"
  | .patchArtifact => "patch_artifact"
  | .verificationReport => "verification_report"
  | .reviewReport => "review_report"
  | .finalReport => "final_report"
  | .finalPatchArtifact => "final_patch_artifact"
  | .worktreeSession => "worktree_session"
  | .markdownProjection => "markdown_projection"
  | .capabilityStepResult => "capability_step_result"
  | .rawLog => "raw_log"

structure PlanArtifactRef where
  artifactId : String
  kind : PlanArtifactKind
  pathOrUri : String
  summary : String
  createdAt : String
  deriving DecidableEq, Repr

inductive AmbiguityLevel where
  | low | medium | high
  deriving DecidableEq, Repr

inductive SuggestedMode where
  | dryRun | applyWithApproval
  deriving DecidableEq, Repr

structure GoalFrame where
  goalId : String
  originalPrompt : String
  interpretedGoal : String
  acceptanceCriteria : List String
  nonGoals : List String
  assumptions : List String
  ambiguityLevel : AmbiguityLevel
  ambiguityQuestions : List String
  ambiguityBlocking : Bool
  suggestedMode : SuggestedMode
  riskNotes : List String
  createdAt : String
  deriving DecidableEq, Repr

structure PlanNode where
  id : String
  kind : PlanNodeKind
  title : String
  objective : String
  description : String
  dependsOn : List String
  allowedCapabilityRefs : List String
  executionMode : Option ExecutionMode
  expectedOutputs : List String
  acceptanceRefs : List String
  riskLevel : RiskLevel
  approvalRequired : Bool
  status : PlanNodeStatus
  artifacts : List PlanArtifactRef
  errors : List String
  optional : Option Bool
  verificationCommandIds : Option (List String)
  deriving DecidableEq, Repr

structure PlanEdge where
  source : String
  target : String
  reason : String
  deriving DecidableEq, Repr

structure ApprovalPolicy where
  requireApprovalForRisks : List RiskLevel
  approvedPlanDigest : Option String
  explicitDestructiveGoal : Option Bool
  deriving DecidableEq, Repr

structure VerificationPolicy where
  allowedCommandIds : List String
  deriving DecidableEq, Repr

inductive LifecycleValidation where
  | unknown | passed | failed
  deriving DecidableEq, Repr

inductive LifecycleSimulation where
  | unknown | ready | needsInput | missingRequirements | invalid | unsafePlan
  deriving DecidableEq, Repr

structure PlanfileLifecycle where
  builderSessionId : Option String
  questionsAnswered : Option Nat
  assumptions : Option (List String)
  validationStatus : Option LifecycleValidation
  simulationStatus : Option LifecycleSimulation
  deriving DecidableEq, Repr

structure PlanfilePackRequirement where
  id : String
  version : Option String
  required : Bool
  deriving DecidableEq, Repr

structure PlanfileProviderRequirement where
  id : String
  kind : String
  required : Bool
  acceptable : Option (List String)
  deriving DecidableEq, Repr

structure PlanfileCredentialRequirement where
  ref : String
  required : Bool
  purpose : Option String
  deriving DecidableEq, Repr

inductive RuntimeMode where
  | localMode | remoteMode
  deriving DecidableEq, Repr

structure PlanfileRuntimeRequirement where
  mode : Option (List RuntimeMode)
  deriving DecidableEq, Repr

inductive ParameterType where
  | string | number | boolean | object | array
  deriving DecidableEq, Repr

structure PlanfileParameterRequirement where
  type : ParameterType
  required : Bool
  default : Option Value
  description : Option String
  deriving Repr

structure PlanfileRequirements where
  packs : Option (List PlanfilePackRequirement)
  providers : Option (List PlanfileProviderRequirement)
  credentials : Option (List PlanfileCredentialRequirement)
  permissions : Option (List String)
  approvals : Option (List String)
  runtime : Option PlanfileRuntimeRequirement
  parameters : Option (List (String × PlanfileParameterRequirement))
  deriving Repr

structure Planfile where
  planId : String
  goalFrame : GoalFrame
  mode : PlanMode
  status : PlanStatus
  nodes : List PlanNode
  edges : List PlanEdge
  approvalPolicy : ApprovalPolicy
  verificationPolicy : VerificationPolicy
  requirements : Option PlanfileRequirements
  executionContext : Option (List (String × Value))
  lifecycle : Option PlanfileLifecycle
  artifactRefs : List PlanArtifactRef
  createdAt : String
  updatedAt : String
  canonicalPlanDigest : Option String
  deriving Repr

/-! ### The checks a type does not express -/

/-- `/^[a-f0-9]{64}$/`. -/
def isSha256Hex (s : String) : Bool :=
  s.toList.length = 64 ∧
    s.toList.all fun c => ('a' ≤ c ∧ c ≤ 'f') ∨ ('0' ≤ c ∧ c ≤ '9')

def nonempty (s : String) : Bool := s ≠ ""

def PlanArtifactRef.refined (isDatetime : String → Bool) (a : PlanArtifactRef) : Bool :=
  nonempty a.artifactId && nonempty a.pathOrUri && isDatetime a.createdAt

def GoalFrame.refined (isDatetime : String → Bool) (g : GoalFrame) : Bool :=
  nonempty g.goalId && nonempty g.originalPrompt && nonempty g.interpretedGoal &&
    g.acceptanceCriteria.all nonempty && g.nonGoals.all nonempty && g.assumptions.all nonempty &&
    g.ambiguityQuestions.all nonempty && g.riskNotes.all nonempty && isDatetime g.createdAt

def PlanNode.refined (isDatetime : String → Bool) (n : PlanNode) : Bool :=
  nonempty n.id && nonempty n.title && nonempty n.objective && n.dependsOn.all nonempty &&
    n.allowedCapabilityRefs.all nonempty && n.expectedOutputs.all nonempty &&
    n.acceptanceRefs.all nonempty && n.artifacts.all (·.refined isDatetime) &&
    (n.verificationCommandIds.getD []).all nonempty

def PlanfileRequirements.refined (r : PlanfileRequirements) : Bool :=
  (r.packs.getD []).all (fun p => nonempty p.id && p.version.all nonempty) &&
    (r.providers.getD []).all (fun p => nonempty p.id && nonempty p.kind &&
      (p.acceptable.getD []).all nonempty) &&
    (r.credentials.getD []).all (fun c => nonempty c.ref && c.purpose.all nonempty) &&
    (r.permissions.getD []).all nonempty && (r.approvals.getD []).all nonempty &&
    (r.parameters.getD []).all fun p => p.2.description.all nonempty

def Planfile.refined (isDatetime : String → Bool) (p : Planfile) : Bool :=
  nonempty p.planId && p.goalFrame.refined isDatetime && p.nodes.all (·.refined isDatetime) &&
    p.edges.all (fun e => nonempty e.source && nonempty e.target) &&
    p.approvalPolicy.approvedPlanDigest.all isSha256Hex &&
    p.verificationPolicy.allowedCommandIds.all nonempty &&
    p.requirements.all (·.refined) &&
    p.lifecycle.all (fun l => l.builderSessionId.all nonempty &&
      (l.assumptions.getD []).all nonempty) &&
    p.artifactRefs.all (·.refined isDatetime) && isDatetime p.createdAt &&
    isDatetime p.updatedAt && p.canonicalPlanDigest.all isSha256Hex

/-! ### The canonical object -/

def PlanArtifactRef.toValue (a : PlanArtifactRef) : Value :=
  .obj [("artifact_id", .str a.artifactId), ("kind", .str a.kind.text),
    ("path_or_uri", .str a.pathOrUri), ("summary", .str a.summary),
    ("created_at", .str a.createdAt)]

def AmbiguityLevel.text : AmbiguityLevel → String
  | .low => "low"
  | .medium => "medium"
  | .high => "high"

def SuggestedMode.text : SuggestedMode → String
  | .dryRun => "dry_run"
  | .applyWithApproval => "apply_with_approval"

def GoalFrame.toValue (g : GoalFrame) : Value :=
  .obj [("goal_id", .str g.goalId), ("original_prompt", .str g.originalPrompt),
    ("interpreted_goal", .str g.interpretedGoal),
    ("acceptance_criteria", strings g.acceptanceCriteria), ("non_goals", strings g.nonGoals),
    ("assumptions", strings g.assumptions),
    ("ambiguity", .obj [("level", .str g.ambiguityLevel.text),
      ("questions", strings g.ambiguityQuestions), ("blocking", .bool g.ambiguityBlocking)]),
    ("suggested_mode", .str g.suggestedMode.text), ("risk_notes", strings g.riskNotes),
    ("created_at", .str g.createdAt)]

def PlanEdge.toValue (e : PlanEdge) : Value :=
  .obj [("from", .str e.source), ("to", .str e.target), ("reason", .str e.reason)]

def ApprovalPolicy.toValue (p : ApprovalPolicy) : Value :=
  stripUndefined
    [("require_approval_for_risks", some (strings (p.requireApprovalForRisks.map (·.text)))),
      ("approved_plan_digest", p.approvedPlanDigest.map .str),
      ("explicit_destructive_goal", p.explicitDestructiveGoal.map .bool)]

/-- The part of a node that the canonical object keeps. -/
def PlanNode.canonical (n : PlanNode) : Value :=
  stripUndefined
    [("id", some (.str n.id)), ("kind", some (.str n.kind.text)), ("title", some (.str n.title)),
      ("objective", some (.str n.objective)), ("description", some (.str n.description)),
      ("depends_on", some (strings n.dependsOn)),
      ("allowed_capability_refs", some (strings n.allowedCapabilityRefs)),
      ("execution_mode", n.executionMode.map fun m => .str m.text),
      ("expected_outputs", some (strings n.expectedOutputs)),
      ("acceptance_refs", some (strings n.acceptanceRefs)),
      ("risk_level", some (.str n.riskLevel.text)),
      ("approval_required", some (.bool n.approvalRequired)),
      ("optional", n.optional.map .bool),
      ("verification_command_ids", n.verificationCommandIds.map strings)]

def canonicalPlanObject (p : Planfile) : Value :=
  let lifecycle := p.lifecycle.map fun l =>
    stripUndefined
      [("builder_session_id", l.builderSessionId.map .str),
        ("questions_answered", l.questionsAnswered.map fun n => .num (toString n)),
        ("assumptions", l.assumptions.map strings)]
  stripUndefined
    [("schema_version", some (.str "open-lagrange.plan.v1")), ("plan_id", some (.str p.planId)),
      ("goal_frame", some p.goalFrame.toValue), ("mode", some (.str p.mode.text)),
      ("nodes", some (.arr (p.nodes.map (·.canonical)))),
      ("edges", some (.arr (p.edges.map (·.toValue)))),
      ("approval_policy", some p.approvalPolicy.toValue),
      ("verification_policy", some (.obj [("allowed_command_ids",
        strings p.verificationPolicy.allowedCommandIds)])),
      ("execution_context", p.executionContext.map .obj), ("lifecycle", lifecycle),
      ("artifact_refs", some (.arr (p.artifactRefs.map (·.toValue))))]

def canonicalPlanDigest (sha256 : String → String) (p : Planfile) : String :=
  stableHash sha256 (canonicalPlanObject p)

def withCanonicalPlanDigest (sha256 : String → String) (p : Planfile) : Planfile :=
  { p with canonicalPlanDigest := some (canonicalPlanDigest sha256 p) }

/-- The canonical object does not contain the digest it is hashed into. -/
@[simp] theorem canonicalPlanObject_withDigest (sha256 : String → String) (p : Planfile) :
    canonicalPlanObject (withCanonicalPlanDigest sha256 p) = canonicalPlanObject p := rfl

@[simp] theorem canonicalPlanDigest_withDigest (sha256 : String → String) (p : Planfile) :
    canonicalPlanDigest sha256 (withCanonicalPlanDigest sha256 p)
      = canonicalPlanDigest sha256 p := rfl

@[simp] theorem withCanonicalPlanDigest_nodes (sha256 : String → String) (p : Planfile) :
    (withCanonicalPlanDigest sha256 p).nodes = p.nodes := rfl

@[simp] theorem withCanonicalPlanDigest_planId (sha256 : String → String) (p : Planfile) :
    (withCanonicalPlanDigest sha256 p).planId = p.planId := rfl

/-! ### The dependencies as a graph -/

/-- The node of the given id. -/
def Planfile.node? (p : Planfile) (id : String) : Option PlanNode :=
  p.nodes.find? fun node => node.id = id

end OpenLagrange
