/-
Which artifacts go into an output.

The artifacts that a request is about are collected by id: those it names, those of its plan, and
those of its run.  They are sorted by what they are worth and judged one after the other, and once
as many are selected as the request allows, the rest is put aside too.
-/
import Mathlib.Data.List.Sort
import OpenLagrange.Lib.Table
import OpenLagrange.Lib.Triage
import OpenLagrange.Output.Artifacts
import OpenLagrange.Runs.RunSnapshot

namespace OpenLagrange.Output

inductive OutputPreset where
  | finalOutputs | researchPacket | developerPacket | debugPacket | allSafe
  deriving DecidableEq, Repr

structure ArtifactSelectionInput where
  runId : Option String
  planId : Option String
  artifactIds : Option (List String)
  includeKinds : Option (List String)
  excludeKinds : Option (List String)
  includeModelCalls : Bool
  includeRawLogs : Bool
  includeRedactedOnly : Bool
  maxArtifacts : Nat
  preset : OutputPreset

structure ExcludedArtifact where
  artifactId : String
  reason : ExcludedArtifactReason
  deriving DecidableEq, Repr

structure ArtifactSelectionResult where
  selectedArtifacts : List ArtifactSummary
  excludedArtifacts : List ExcludedArtifact
  warnings : List String

def presetKinds : OutputPreset → List String
  | .finalOutputs => ["final_patch_artifact", "research_brief", "review_report", "markdown_export",
      "html_export", "pdf_export", "run_digest", "run_packet"]
  | .researchPacket => ["research_brief", "citation_index", "source_set", "source_search_results",
      "markdown_export", "html_export", "execution_timeline", "planfile"]
  | .developerPacket => ["planfile", "evidence_bundle", "patch_plan", "patch_artifact",
      "final_patch_artifact", "verification_report", "review_report", "run_digest"]
  | .debugPacket => ["execution_timeline", "policy_decision_report", "validation_report",
      "simulation_report", "plan_check_report", "model_call", "raw_log"]
  | .allSafe => []

def defaultExcludedKinds : List ArtifactKind :=
  [.rawLog, .sourceSnapshot, .sourceText, .modelCall, .capabilityStepResult]

namespace ArtifactSelectionInput

variable (input : ArtifactSelectionInput)

/-! ### What the request is about -/

def named : List String := input.artifactIds.getD []

def plan : Option String := input.planId.filter (· ≠ "")

def run : Option String := input.runId.filter (· ≠ "")

end ArtifactSelectionInput

/-- The artifact of an id: of several, the last one listed. -/
def byId (index : List ArtifactSummary) (artifactId : String) : Option ArtifactSummary :=
  index.reverse.find? (·.artifactId = artifactId)

/-- Whether an artifact belongs to the run, or to the plan its snapshot names. -/
def ofRun (runId : String) (snapshot : Option RunSnapshot) (artifact : ArtifactSummary) : Bool :=
  artifact.relatedRunId = some runId || artifact.relatedPlanId = snapshot.map (·.planId) ||
    artifact.producedByPlanId = snapshot.map (·.planId)

/-- What is put into the map of candidates, in this order. -/
def collected (input : ArtifactSelectionInput) (index : List ArtifactSummary)
    (snapshot : Option RunSnapshot) : List ArtifactSummary :=
  input.named.filterMap (byId index) ++
    (match input.plan with
      | some planId => listArtifactsForPlan planId index
      | none => []) ++
    (match input.run with
      | some runId =>
          (((snapshot.map (·.artifacts)).getD []).filterMap fun item => byId index item.artifactId) ++
            index.filter (ofRun runId snapshot)
      | none => [])

/-- The map of candidates. -/
def candidateMap (input : ArtifactSelectionInput) (index : List ArtifactSummary)
    (snapshot : Option RunSnapshot) : Table.Keyed ArtifactSummary.artifactId :=
  (collected input index snapshot).foldl Table.Keyed.upsert Table.Keyed.empty

/-- The ids the request names and the index does not list. -/
def notFound (input : ArtifactSelectionInput) (index : List ArtifactSummary) : List ExcludedArtifact :=
  (input.named.filter fun artifactId => (byId index artifactId).isNone).map fun artifactId =>
    ⟨artifactId, .notFound⟩

def selectionWarnings (input : ArtifactSelectionInput) (snapshot : Option RunSnapshot) :
    List String :=
  (match input.run with
    | some runId => if snapshot.isNone then ["run_snapshot_missing:" ++ runId] else []
    | none => []) ++
    (if input.run = none ∧ input.plan = none ∧ input.named = [] then
      ["no_run_plan_or_artifacts_provided"] else [])

/-! ### The order of the candidates -/

def score (artifact : ArtifactSummary) : Nat :=
  if artifact.artifactRole = some .primaryOutput then 100
  else if artifact.kind = .finalPatchArtifact ∨ artifact.kind = .researchBrief then 90
  else if artifact.kind = .reviewReport ∨ artifact.kind = .markdownExport ∨
      artifact.kind = .htmlExport then 80
  else if artifact.kind = .citationIndex ∨ artifact.kind = .sourceSet ∨
      artifact.kind = .verificationReport then 70
  else if artifact.kind = .planfile then 50
  else 10

def compareArtifacts (localeCompare : String → String → Ordering) (left right : ArtifactSummary) :
    Ordering :=
  (compare (score right) (score left)).then
    ((localeCompare left.createdAt right.createdAt).then
      (localeCompare left.artifactId right.artifactId))

def sortedCandidates (localeCompare : String → String → Ordering) (input : ArtifactSelectionInput)
    (index : List ArtifactSummary) (snapshot : Option RunSnapshot) : List ArtifactSummary :=
  (candidateMap input index snapshot).rows.insertionSort fun a b =>
    compareArtifacts localeCompare a b ≠ .gt

/-! ### The judgement -/

namespace ArtifactSelectionInput

variable (input : ArtifactSelectionInput)

/-- The kinds to include: the given ones, or those of the preset. -/
def included : List String :=
  if (input.includeKinds.getD []).length > 0 then input.includeKinds.getD []
  else presetKinds input.preset

def allowNoisyKind (kind : ArtifactKind) : Bool :=
  if kind = .rawLog then input.includeRawLogs
  else if kind = .modelCall then input.includeModelCalls
  else input.preset = .debugPacket

/-- Why an artifact is not selected, how many there may be aside. -/
def barred (artifact : ArtifactSummary) : Option ExcludedArtifactReason :=
  if (input.excludeKinds.getD []).contains artifact.kind.text then some .kindExcluded
  else if input.included.length > 0 ∧ ¬ input.included.contains artifact.kind.text then
    some .kindExcluded
  else if input.included.length = 0 ∧ defaultExcludedKinds.contains artifact.kind ∧
      ¬ input.allowNoisyKind artifact.kind then
    some (if artifact.kind = .rawLog then .rawLogExcluded
      else if artifact.kind = .modelCall then .modelCallExcluded
      else .kindExcluded)
  else
    artifactAllowedForOutput artifact input.includeModelCalls input.includeRawLogs
      input.includeRedactedOnly

/-- Why an artifact is not selected, when those before it are. -/
def judged (selected : List ArtifactSummary) (artifact : ArtifactSummary) :
    Option ExcludedArtifactReason :=
  (input.barred artifact).or
    (if selected.length ≥ input.maxArtifacts then some .limitExceeded else none)

end ArtifactSelectionInput

/-- The selection from an index, when `snapshot` is what the run of the request is built to. -/
def selectArtifacts (localeCompare : String → String → Ordering) (input : ArtifactSelectionInput)
    (index : List ArtifactSummary) (snapshot : Option RunSnapshot) : ArtifactSelectionResult :=
  let trail := Triage.run input.judged (sortedCandidates localeCompare input index snapshot)
  { selectedArtifacts := Triage.kept trail
    excludedArtifacts := notFound input index ++
      (Triage.aside trail).map fun entry => ⟨entry.1.artifactId, entry.2⟩
    warnings := selectionWarnings input snapshot }

end OpenLagrange.Output
