/-
Choosing the sources of a source set.

The sources are gone through in the order they come.  A source is rejected when there are enough
already, and, where domains must differ, when its domain is represented; the others are selected.
Every source leaves a reason behind.
-/
import OpenLagrange.Research.Schemas

namespace OpenLagrange.Research

structure SourceSelectionPolicy where
  minSources : Option Nat
  maxSources : Option Nat
  preferOfficial : Option Bool
  requireDiverseDomains : Option Bool
  deriving DecidableEq, Repr

/-- An input the schema has accepted. -/
structure CreateSourceSetInput (P : ResearchPlatform) where
  topic : String
  sources : List ExtractedSource
  selectionPolicy : Option SourceSelectionPolicy
  topic_nonempty : topic ≠ ""
  sources_nonempty : sources ≠ []
  sources_accepted : sources.all (·.accepted P) = true
  min_bound : ∀ policy ∈ selectionPolicy, ∀ min ∈ policy.minSources, 1 ≤ min
  max_bound : ∀ policy ∈ selectionPolicy, ∀ max ∈ policy.maxSources, 1 ≤ max ∧ max ≤ 25

structure SourceSummary where
  sourceId : String
  title : String
  url : String
  domain : String
  citationId : String
  deriving DecidableEq, Repr

structure SourceRejection where
  sourceId : String
  reason : String
  deriving DecidableEq, Repr

inductive SourceSelectionReasonKind where
  | highRank | officialSource | diverseDomain | recent | duplicate | lowRelevance
  | unsupportedContentType | fetchFailed | domainDenied | limitExceeded
  deriving DecidableEq, Repr

def SourceSelectionReasonKind.text : SourceSelectionReasonKind → String
  | .highRank => "high_rank"
  | .officialSource => "official_source"
  | .diverseDomain => "diverse_domain"
  | .recent => "recent"
  | .duplicate => "duplicate"
  | .lowRelevance => "low_relevance"
  | .unsupportedContentType => "unsupported_content_type"
  | .fetchFailed => "fetch_failed"
  | .domainDenied => "domain_denied"
  | .limitExceeded => "limit_exceeded"

structure SourceSelectionReason where
  sourceId : String
  selected : Bool
  reason : SourceSelectionReasonKind
  detail : String
  deriving DecidableEq, Repr

structure CreateSourceSetOutput where
  sourceSetId : String
  topic : String
  selectedSources : List SourceSummary
  rejectedSources : List SourceRejection
  selectionReasons : List SourceSelectionReason
  artifactId : String
  warnings : List String
  deriving DecidableEq, Repr

/-- `CreateSourceSetOutput.parse`. -/
def CreateSourceSetOutput.parse (P : ResearchPlatform) (output : CreateSourceSetOutput) :
    Except String CreateSourceSetOutput :=
  if output.selectedSources.all (fun source => P.isUrl source.url) &&
      output.selectionReasons.all (fun reason => nonempty reason.sourceId) then .ok output
  else .error "CreateSourceSetOutput"

/-! ### The pass over the sources -/

/-- What the pass has collected. -/
structure Selection where
  selected : List SourceSummary
  rejected : List SourceRejection
  selectionReasons : List SourceSelectionReason
  domains : List String

def Selection.empty : Selection := ⟨[], [], [], []⟩

def summaryOf (source : ExtractedSource) : SourceSummary :=
  ⟨source.sourceId, source.title.getD source.url, source.url, source.domain,
    source.citation.citationId⟩

def Selection.reject (state : Selection) (source : ExtractedSource)
    (reason : SourceSelectionReasonKind) (detail : String) : Selection :=
  { state with
    rejected := state.rejected ++ [⟨source.sourceId, reason.text⟩]
    selectionReasons := state.selectionReasons ++ [⟨source.sourceId, false, reason, detail⟩] }

def Selection.select (state : Selection) (requireDiverse : Bool) (source : ExtractedSource) :
    Selection :=
  { state with
    domains := state.domains.insert source.domain
    selectionReasons := state.selectionReasons ++ [{
      sourceId := source.sourceId
      selected := true
      reason :=
        if (source.citation.publishedAt.getD "") ≠ "" then .recent
        else if requireDiverse then .diverseDomain
        else .highRank
      detail :=
        if requireDiverse then
          "Selected to preserve domain diversity for " ++ source.domain ++ "."
        else "Selected within the ranked source limit." }]
    selected := state.selected ++ [summaryOf source] }

/-- One turn of the loop. -/
def considerSource (max : Nat) (requireDiverse : Bool) (state : Selection)
    (source : ExtractedSource) : Selection :=
  if state.selected.length ≥ max then
    state.reject source .limitExceeded ("Maximum source count reached: " ++ toString max ++ ".")
  else if requireDiverse ∧ source.domain ∈ state.domains then
    state.reject source .duplicate ("Domain already represented: " ++ source.domain ++ ".")
  else state.select requireDiverse source

def selectSources (max : Nat) (requireDiverse : Bool) (sources : List ExtractedSource) : Selection :=
  sources.foldl (considerSource max requireDiverse) Selection.empty

/-! ### The set -/

section

variable {P : ResearchPlatform} (input : CreateSourceSetInput P)

def CreateSourceSetInput.max : Nat := (input.selectionPolicy.bind (·.maxSources)).getD 5

def CreateSourceSetInput.min : Nat := (input.selectionPolicy.bind (·.minSources)).getD 1

def CreateSourceSetInput.requireDiverse : Bool :=
  (input.selectionPolicy.bind (·.requireDiverseDomains)).getD true

def summaryValue (source : SourceSummary) : Value :=
  .obj [("source_id", .str source.sourceId), ("title", .str source.title), ("url", .str source.url),
    ("domain", .str source.domain), ("citation_id", .str source.citationId)]

/-- What is put through the schema of the output. -/
def sourceSetDraft : CreateSourceSetOutput :=
  let pass := selectSources input.max input.requireDiverse input.sources
  let sourceSetId := "source_set_" ++ firstChars 16 (stableHash P.sha256 (.obj
    [("topic", .str input.topic), ("selected", .arr (pass.selected.map summaryValue))]))
  { sourceSetId
    topic := input.topic
    selectedSources := pass.selected
    rejectedSources := pass.rejected
    selectionReasons := pass.selectionReasons
    artifactId := sourceSetId ++ "_artifact"
    warnings :=
      if pass.selected.length < input.min then ["selected_sources_below_minimum"] else [] }

def sourceSetArtifact (output : CreateSourceSetOutput) : ArtifactWrite CreateSourceSetOutput where
  artifactId := output.artifactId
  kind := "source_set"
  title := "Source set for " ++ input.topic
  summary := toString output.selectedSources.length ++ " selected source(s), " ++
    toString output.rejectedSources.length ++ " rejected."
  content := output
  inputArtifactRefs := input.sources.map (·.artifactId)
  validationStatus := if output.warnings.length = 0 then .pass else .pending

def createSourceSet (store : ArtifactStore CreateSourceSetOutput) :
    Except String CreateSourceSetOutput := do
  let output ← CreateSourceSetOutput.parse P (sourceSetDraft input)
  writeArtifact store (sourceSetArtifact input output)
  return output

end

end OpenLagrange.Research
