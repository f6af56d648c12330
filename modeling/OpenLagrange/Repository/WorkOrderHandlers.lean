/-
The work order handler for patch nodes.

The plan that the node is given is checked, translated to the patch language of the repository
pack and handed to `repo.apply_patch`.  What the capability reports is not looked at: the node is
completed, and its artifact says that the patch was applied.

The plan comes from a callback, or is the fallback that appends a note.  The digests that name
things, and what Git says of the worktree, are parameters.
-/
import OpenLagrange.Repository.FilePatch
import OpenLagrange.Repository.PatchApplier
import OpenLagrange.Storage.StateStore

namespace OpenLagrange.WorkOrderHandlers

/-- The part of an evidence bundle that patching reads. -/
structure EvidenceBundle where
  /-- The paths of the files that were read. -/
  fileExcerpts : List String
  fileHashes : List (String × String)
  hashes_hex : fileHashes.all (isSha256Hex ·.2) = true

structure DiffReport where
  diffText : String
  diffStat : String
  changedFiles : List String
  deriving DecidableEq, Repr

/-- What Git prints in the worktree for some paths. -/
structure GitOutput (B : Type) where
  diff : FileTree B → List String → String
  stat : FileTree B → List String → String
  names : FileTree B → List String → String

/-- The digests of a plan, and of a plan with a diff. -/
structure PlanDigests where
  ofPlan : RepositoryPatchPlan → String
  ofPlanAndDiff : RepositoryPatchPlan → DiffReport → String

inductive HandlerArtifact where
  | patchPlan (plan : RepositoryPatchPlan)
  | patchArtifact (artifact : RepositoryPatchArtifact)

/-! ### The translation -/

def PatchRiskLevel.riskLevel : PatchRiskLevel → RiskLevel
  | .read => .read
  | .write => .write
  | .destructive => .destructive

/-- The file was read as evidence. -/
def EvidenceBundle.read (evidence : EvidenceBundle) (operation : RepositoryPatchOperation) : Bool :=
  operation.relativePath ∈ evidence.fileExcerpts

/-- The text of the operation is appended, wherever its anchor stands. -/
def EvidenceBundle.appends (evidence : EvidenceBundle) (operation : RepositoryPatchOperation) : Bool :=
  operation.kind = .insertAfter ∧ evidence.read operation

def filePatchOf (evidence : EvidenceBundle) (operation : RepositoryPatchOperation) : FilePatch where
  relativePath := operation.relativePath
  operation := if evidence.read operation then .modify else .create
  expectedSha256 := truthy operation.expectedSha256
  unifiedDiff := none
  fullReplacement :=
    if evidence.appends operation then none else some (operation.content.getD "")
  appendText := if evidence.appends operation then some (operation.content.getD "") else none
  rationale := operation.rationale

def legacyPatchPlan (digests : PlanDigests) (plan : RepositoryPatchPlan) (evidence : EvidenceBundle) :
    FilePatchPlan where
  patchPlanId := plan.patchPlanId
  goal := plan.summary
  summary := plan.summary
  files := plan.operations.map (filePatchOf evidence)
  expectedPreconditions := plan.preconditions.map (·.summary)
  riskLevel := PatchRiskLevel.riskLevel plan.riskLevel
  requiresApproval := plan.approvalRequired
  idempotencyKey := "idem_" ++ firstChars 24 (digests.ofPlan plan)

def legacyPatchPlanFromRepositoryPlan (digests : PlanDigests) (plan : RepositoryPatchPlan)
    (evidence : EvidenceBundle) : Except String FilePatchPlan :=
  let legacy := legacyPatchPlan digests plan evidence
  if legacy.refined then .ok legacy else .error "Invalid PatchPlan"

/-! ### The handler -/

section Handler

variable {B : Type} (P : FilePlatform B) (workspace : RepositoryWorkspace) (git : GitOutput B)
  (digests : PlanDigests)

def getRepositoryDiff (tree : FileTree B) (paths : List String) : DiffReport where
  diffText := git.diff tree paths
  diffStat := git.stat tree paths
  changedFiles := ((splitLines (git.names tree paths).toList).map fun line =>
    String.ofList (trimChars line)).filter (· ≠ "")

/-- What the run of a handler leaves. -/
structure HandlerRun (B : Type) where
  /-- The result of the node, or what was thrown. -/
  result : Except String NodeResult
  artifacts : List HandlerArtifact
  /-- What `repo.apply_patch` reported, if it was called. -/
  report : Option (Except String AppliedPatchResult)
  tree : FileTree B

def HandlerRun.failed (errors : List String) (artifacts : List HandlerArtifact) (tree : FileTree B) :
    HandlerRun B :=
  ⟨.ok ⟨.failed, none, some errors⟩, artifacts, none, tree⟩

def handlerArtifact (plan : RepositoryPatchPlan) (evidence : EvidenceBundle) (diff : DiffReport)
    (now : String) : RepositoryPatchArtifact :=
  let artifactId := "patch_artifact_" ++ firstChars 18 (digests.ofPlanAndDiff plan diff)
  { patchArtifactId := artifactId
    patchPlanId := plan.patchPlanId
    planId := plan.planId
    nodeId := plan.nodeId
    changedFiles := diff.changedFiles
    unifiedDiff := diff.diffText
    beforeHashes := evidence.fileHashes
    afterHashes := []
    applyStatus := .applied
    errors := []
    artifactId
    createdAt := now }

def patchArtifactRef (artifact : RepositoryPatchArtifact) : PlanArtifactRef where
  artifactId := artifact.patchArtifactId
  kind := .patchArtifact
  pathOrUri := "memory://" ++ artifact.patchArtifactId
  summary := toString artifact.changedFiles.length ++ " changed file(s)"
  createdAt := artifact.createdAt

/-- A plan that was accepted is translated, applied and reported. -/
def applyTranslated (tree : FileTree B) (plan : RepositoryPatchPlan) (evidence : EvidenceBundle)
    (now : String) : HandlerRun B :=
  match legacyPatchPlanFromRepositoryPlan digests plan evidence with
  | .error message => ⟨.error message, [.patchPlan plan], none, tree⟩
  | .ok legacy =>
      let (report, tree') := executeApplyPatch P workspace tree legacy
      let artifact := handlerArtifact digests plan evidence
        (getRepositoryDiff git tree' plan.expectedChangedFiles) now
      match artifact.parse P with
      | .error message => ⟨.error message, [.patchPlan plan], some report, tree'⟩
      | .ok artifact =>
          ⟨.ok ⟨.completed, some [patchArtifactRef artifact], none⟩,
            [.patchPlan plan, .patchArtifact artifact], some report, tree'⟩

/-- `clock` is the time that the check reads by itself. -/
def patch (tree : FileTree B) (evidence : Option EvidenceBundle) (acceptanceRefs : List String)
    (plan : RepositoryPatchPlan) (now clock : String) : HandlerRun B :=
  match evidence with
  | none => .failed ["Patch node requires an EvidenceBundle."] [] tree
  | some evidence =>
      if acceptanceRefs.length = 0 then
        .failed ["Patch node must reference acceptance criteria."] [] tree
      else
        match validateRepositoryPatchPlan P workspace tree plan none clock with
        | .error message => ⟨.error message, [.patchPlan plan], none, tree⟩
        | .ok validation =>
            if !validation.ok then .failed validation.errors [.patchPlan plan] tree
            else applyTranslated P workspace git digests tree plan evidence now

end Handler

end OpenLagrange.WorkOrderHandlers
