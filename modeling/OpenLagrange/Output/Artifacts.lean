/-
The artifacts that can be put out.

The index of artifacts says of each what it is, what it belongs to, where its content is, and
whether it may be shown.  An index is read as a whole; two entries may have one id, since
nothing but the way it is written keeps them apart.
-/
import OpenLagrange.Repository.PatchPlan

namespace OpenLagrange.Output

inductive ArtifactKind where
  | planfile | skillFrame | workflowSkill | packBuildPlan
  | generatedPack | packManifest | packValidationReport | packTestReport
  | packInstallReport | packSmokeReport | policyDecisionReport | evidenceBundle
  | patchPlanContext | patchPlan | patchValidationReport | patchArtifact
  | finalPatchArtifact | scopeExpansionRequest | repairPatchPlan | repairDecision
  | verificationReport | reviewReport | sourceSearchResults | sourceSnapshot
  | sourceText | sourceSet | researchBrief | citationIndex
  | markdownExport | capabilityStepResult | approvalRequest | executionTimeline
  | worktreeSession | modelCall | rawLog | editedPlanfileSnapshot
  | planfileUpdateReport | planfileDiff | regeneratedPlanfile | validationReport
  | simulationReport | planCheckReport | planLibraryManifest | planTemplate
  | savedPlanfile | artifactSelection | runDigest | runPacket
  | artifactManifest | htmlExport | pdfExport | artifactBundle
  | zipExport
  deriving DecidableEq, Repr

def ArtifactKind.text : ArtifactKind → String
  | .planfile => "planfile"
  | .skillFrame => "skill_frame"
  | .workflowSkill => "workflow_skill"
  | .packBuildPlan => "pack_build_plan"
  | .generatedPack => "generated_pack"
  | .packManifest => "pack_manifest"
  | .packValidationReport => "pack_validation_report"
  | .packTestReport => "pack_test_report"
  | .packInstallReport => "pack_install_report"
  | .packSmokeReport => "pack_smoke_report"
  | .policyDecisionReport => "policy_decision_report"
  | .evidenceBundle => "evidence_bundle"
  | .patchPlanContext => "patch_plan_context"
  | .patchPlan => "patch_plan"
  | .patchValidationReport => "patch_validation_report"
  | .patchArtifact => "patch_artifact"
  | .finalPatchArtifact => "final_patch_artifact"
  | .scopeExpansionRequest => "scope_expansion_request"
  | .repairPatchPlan => "repair_patch_plan"
  | .repairDecision => "repair_decision"
  | .verificationReport => "verification_report"
  | .reviewReport => "review_report"
  | .sourceSearchResults => "source_search_results"
  | .sourceSnapshot => "source_snapshot"
  | .sourceText => "source_text"
  | .sourceSet => "source_set"
  | .researchBrief => "research_brief"
  | .citationIndex => "citation_index"
  | .markdownExport => "markdown_export"
  | .capabilityStepResult => "capability_step_result"
  | .approvalRequest => "approval_request"
  | .executionTimeline => "execution_timeline"
  | .worktreeSession => "worktree_session"
  | .modelCall => "model_call"
  | .rawLog => "raw_log"
  | .editedPlanfileSnapshot => "edited_planfile_snapshot"
  | .planfileUpdateReport => "planfile_update_report"
  | .planfileDiff => "planfile_diff"
  | .regeneratedPlanfile => "regenerated_planfile"
  | .validationReport => "validation_report"
  | .simulationReport => "simulation_report"
  | .planCheckReport => "plan_check_report"
  | .planLibraryManifest => "plan_library_manifest"
  | .planTemplate => "plan_template"
  | .savedPlanfile => "saved_planfile"
  | .artifactSelection => "artifact_selection"
  | .runDigest => "run_digest"
  | .runPacket => "run_packet"
  | .artifactManifest => "artifact_manifest"
  | .htmlExport => "html_export"
  | .pdfExport => "pdf_export"
  | .artifactBundle => "artifact_bundle"
  | .zipExport => "zip_export"

inductive ArtifactRole where
  | primaryOutput | supportingEvidence | debugLog | intermediate | superseded
  deriving DecidableEq, Repr

inductive RedactionStatus where
  | redacted | notRedacted | unknown
  deriving DecidableEq, Repr

/-- An artifact as the index lists it. -/
structure ArtifactSummary where
  artifactId : String
  kind : ArtifactKind
  artifactRole : Option ArtifactRole
  title : String
  summary : String
  pathOrUri : String
  createdAt : String
  relatedRunId : Option String
  relatedPlanId : Option String
  producedByPackId : Option String
  producedByCapabilityId : Option String
  producedByPlanId : Option String
  inputArtifactRefs : Option (List String)
  outputArtifactRefs : Option (List String)
  redactionStatus : Option RedactionStatus
  redacted : Bool
  restricted : Option Bool
  outputFormat : Option String
  checksumSha256 : Option String
  contentType : Option String
  deriving DecidableEq, Repr

def listArtifactsForPlan (planId : String) (index : List ArtifactSummary) : List ArtifactSummary :=
  index.filter fun artifact =>
    artifact.relatedPlanId = some planId || artifact.producedByPlanId = some planId ||
      (artifact.inputArtifactRefs.getD []).contains planId ||
      (artifact.outputArtifactRefs.getD []).contains planId

inductive ExcludedArtifactReason where
  | kindExcluded | redactionRequired | restricted | rawLogExcluded | modelCallExcluded
  | limitExceeded | notFound
  deriving DecidableEq, Repr

/-- `artifactAllowedForOutput`: why an artifact may not be put out; `none` where it may. -/
def artifactAllowedForOutput (artifact : ArtifactSummary)
    (includeModelCalls includeRawLogs includeRedactedOnly : Bool) : Option ExcludedArtifactReason :=
  if artifact.restricted = some true then some .restricted
  else if artifact.kind = .rawLog ∧ includeRawLogs ≠ true then some .rawLogExcluded
  else if artifact.kind = .modelCall ∧ includeModelCalls ≠ true then some .modelCallExcluded
  else if includeRedactedOnly ≠ false ∧
      (artifact.redacted = false ∨ artifact.redactionStatus = some .notRedacted) then
    some .redactionRequired
  else none

end OpenLagrange.Output
