/-
The research brief.

A model synthesises findings and viewpoints and names, for each, the sources it rests on by id.
The brief prints each of them with the labels of the sources it names, as far as these are among
the supplied ones, and says of the supplied sources what they were used for.  It passes when it
comes with no warning.
-/
import OpenLagrange.Lib.Table
import OpenLagrange.Research.Schemas

namespace OpenLagrange.Research

inductive Confidence where
  | low | medium | high
  deriving DecidableEq, Repr

def Confidence.text : Confidence → String
  | .low => "low"
  | .medium => "medium"
  | .high => "high"

structure KeyFinding where
  finding : String
  sourceIds : List String
  confidence : Confidence
  deriving DecidableEq, Repr

structure Viewpoint where
  label : String
  summary : String
  sourceIds : List String
  deriving DecidableEq, Repr

/-- What the model, or a generator that stands in for it, hands over. -/
structure ModelResearchBrief where
  title : String
  overview : String
  keyFindings : List KeyFinding
  viewpoints : List Viewpoint
  uncertainties : List String
  recommendations : List String
  deriving DecidableEq, Repr

inductive BriefStyle where
  | concise | standard | technical | executive
  deriving DecidableEq, Repr

def BriefStyle.text : BriefStyle → String
  | .concise => "concise"
  | .standard => "standard"
  | .technical => "technical"
  | .executive => "executive"

/-- An input the schema has accepted. -/
structure CreateBriefInput (P : ResearchPlatform) where
  topic : String
  sources : List ExtractedSource
  briefStyle : BriefStyle
  includeRecommendations : Bool
  topic_nonempty : topic ≠ ""
  sources_nonempty : sources ≠ []
  sources_accepted : sources.all (·.accepted P) = true

structure SourceCoverage where
  sourceId : String
  citationId : String
  usedFor : List String
  deriving DecidableEq, Repr

structure CreateBriefOutput where
  briefId : String
  topic : String
  markdown : String
  citations : List Citation
  sourceCoverage : List SourceCoverage
  artifactId : String
  warnings : List String
  deriving DecidableEq, Repr

/-- `CreateBriefOutput.parse`. -/
def CreateBriefOutput.parse (P : ResearchPlatform) (output : CreateBriefOutput) :
    Except String CreateBriefOutput :=
  if nonempty output.markdown && output.citations ≠ [] &&
      output.citations.all (fun citation => nonempty citation.citationId &&
        nonempty citation.sourceId && nonempty citation.title && P.isUrl citation.url) then
    .ok output
  else .error "CreateBriefOutput"

def citationLabel (citation : Citation) : String :=
  "[" ++ citation.citationId ++ "](" ++ citation.url ++ ")"

/-! ### Coverage -/

/-- What each source is used for, in the order the sources are met. -/
abbrev Uses : Type := Table.Keyed fun row : String × List String => row.1

def Uses.of (used : Uses) (sourceId : String) : List String :=
  ((used.get sourceId).map (·.2)).getD []

/-- `uses.add(use)`. -/
def addUse (uses : List String) (use : String) : List String :=
  if use ∈ uses then uses else uses ++ [use]

def Uses.add (used : Uses) (use : String) (sourceId : String) : Uses :=
  used.upsert (sourceId, addUse (used.of sourceId) use)

section

variable {P : ResearchPlatform} (input : CreateBriefInput P) (synthesis : ModelResearchBrief)

/-- The citation of a source id; of several sources with the id, the last one's. -/
def CreateBriefInput.citationOf (sourceId : String) : Option Citation :=
  (input.sources.reverse.find? (·.sourceId = sourceId)).map (·.citation)

def addCoverage (target : Uses) (sourceIds : List String) (use : String) : Uses :=
  (sourceIds.filter fun sourceId => (input.citationOf sourceId).isSome).foldl (·.add use ·) target

def sourceUses : Uses :=
  let used := synthesis.keyFindings.foldl
    (fun used finding => addCoverage input used finding.sourceIds "finding") Table.Keyed.empty
  synthesis.viewpoints.foldl
    (fun used viewpoint => addCoverage input used viewpoint.sourceIds "viewpoint") used

def sourceCoverage : List SourceCoverage :=
  (sourceUses input synthesis).rows.map fun row =>
    ⟨row.1, ((input.citationOf row.1).map (·.citationId)).getD row.1, row.2⟩

/-! ### The text -/

/-- The label of a source id: that of the last citation that bears it. -/
def CreateBriefInput.labelOf (sourceId : String) : Option String :=
  ((input.sources.map (·.citation)).reverse.find? (·.sourceId = sourceId)).map citationLabel

/-- The labels a line is printed with. -/
def citedLabels (sourceIds : List String) : List String :=
  (sourceIds.filterMap input.labelOf).filter nonempty

def labelsForSourceIds (sourceIds : List String) : String :=
  " ".intercalate (citedLabels input sourceIds)

def findingLine (finding : KeyFinding) : String :=
  "- " ++ finding.finding ++ " " ++ labelsForSourceIds input finding.sourceIds ++
    " Confidence: " ++ finding.confidence.text ++ "."

def viewpointLine (viewpoint : Viewpoint) : String :=
  "- **" ++ viewpoint.label ++ ":** " ++ viewpoint.summary ++ " " ++
    labelsForSourceIds input viewpoint.sourceIds

def briefLines : List String :=
  let viewpointLines := synthesis.viewpoints.map (viewpointLine input)
  let uncertaintyLines :=
    if synthesis.uncertainties ≠ [] then synthesis.uncertainties.map ("- " ++ ·)
    else ["- The brief only uses the fetched source set; review source quality before external use."]
  let recommendationLines :=
    if input.includeRecommendations ∧ synthesis.recommendations ≠ [] then
      synthesis.recommendations.map ("- " ++ ·)
    else []
  (["# " ++ (if synthesis.title ≠ "" then synthesis.title else input.topic), "", "## Overview",
      synthesis.overview, "", "## Key Findings"] ++
    synthesis.keyFindings.map (findingLine input) ++ [""] ++
    (if viewpointLines ≠ [] then ["## Viewpoints"] ++ viewpointLines ++ [""] else []) ++
    ["## Uncertainty"] ++ uncertaintyLines ++ [""] ++
    (if recommendationLines ≠ [] then ["## Recommendations"] ++ recommendationLines ++ [""]
      else []) ++
    ["## Sources"] ++
    input.sources.map fun source => "- " ++ source.citation.citationId ++ ": " ++
      source.citation.title ++ " (" ++ source.citation.url ++ ")").filter nonempty

def renderModelBrief : String := "\n".intercalate (briefLines input synthesis)

/-! ### The brief -/

variable (warnings : List String)

/-- What is put through the schema of the output. -/
def briefDraft : CreateBriefOutput :=
  let coverage := sourceCoverage input synthesis
  let briefId := "research_brief_" ++ firstChars 16 (stableHash P.sha256 (.obj
    [("topic", .str input.topic), ("sources", strings (input.sources.map (·.sourceId)))]))
  { briefId
    topic := input.topic
    markdown := renderModelBrief input synthesis
    citations := input.sources.map (·.citation)
    sourceCoverage :=
      if coverage ≠ [] then coverage
      else input.sources.map fun source => ⟨source.sourceId, source.citation.citationId, ["context"]⟩
    artifactId := briefId ++ "_artifact"
    warnings := warnings ++
      if coverage = [] then ["model_brief_missing_valid_source_refs"] else [] }

/-- The artifact of a brief; its content is the text. -/
def briefArtifact (output : CreateBriefOutput) : ArtifactWrite String where
  artifactId := output.artifactId
  kind := "research_brief"
  title := "Research brief: " ++ input.topic
  summary := "Cited " ++ input.briefStyle.text ++ " brief with " ++
    toString output.citations.length ++ " source(s)."
  content := output.markdown
  inputArtifactRefs := input.sources.map (·.artifactId)
  validationStatus := if output.warnings.length = 0 then .pass else .fail

def createResearchBriefFromSynthesis (store : ArtifactStore String) :
    Except String CreateBriefOutput := do
  let output ← CreateBriefOutput.parse P (briefDraft input synthesis warnings)
  writeArtifact store (briefArtifact input output)
  return output

/-- The warnings a brief of the model comes with before its coverage is looked at. -/
def modelWarnings : List String :=
  if input.sources.map (·.citation) = [] then ["brief_requires_citations"] else []

/-- `createResearchBriefWithModel`, from the synthesis it got. -/
def createResearchBriefWithModel (store : ArtifactStore String) : Except String CreateBriefOutput :=
  createResearchBriefFromSynthesis input synthesis (modelWarnings input) store

end

end OpenLagrange.Research
