/-
Patches that are lists of files.

The repository capability pack has a patch language of its own: for each file a whole new text,
a text to append, or its deletion.  A patch is checked against the workspace and then written
file by file; a file that throws leaves what was written before it.

The schema of what is reported asks for digests in hex, which digests are.
-/
import OpenLagrange.Repository.PatchPlan

namespace OpenLagrange

/-! ### The patch -/

inductive FilePatchOperation where
  | create | modify | delete
  deriving DecidableEq, Repr

structure FilePatch where
  relativePath : String
  operation : FilePatchOperation
  expectedSha256 : Option String
  unifiedDiff : Option String
  fullReplacement : Option String
  appendText : Option String
  rationale : String
  deriving DecidableEq, Repr

/-- How many bodies a patch has. -/
def FilePatch.bodies (file : FilePatch) : Nat :=
  ([file.unifiedDiff, file.fullReplacement, file.appendText].filter (·.isSome)).length

def FilePatch.refined (file : FilePatch) : Bool :=
  nonempty file.relativePath && file.expectedSha256.all isSha256Hex && nonempty file.rationale &&
    file.bodies == (if file.operation = .delete then 0 else 1)

/-- A patch plan of the pack. -/
structure FilePatchPlan where
  patchPlanId : String
  goal : String
  summary : String
  files : List FilePatch
  expectedPreconditions : List String
  riskLevel : RiskLevel
  requiresApproval : Bool
  idempotencyKey : String
  deriving DecidableEq, Repr

def FilePatchPlan.refined (plan : FilePatchPlan) : Bool :=
  nonempty plan.patchPlanId && nonempty plan.goal && nonempty plan.summary &&
    plan.files.all (·.refined) && !plan.files.isEmpty && nonempty plan.idempotencyKey

structure AppliedPatchFile where
  relativePath : String
  operation : FilePatchOperation
  beforeSha256 : Option String
  afterSha256 : Option String
  deriving DecidableEq, Repr

structure AppliedPatchResult where
  appliedFiles : List AppliedPatchFile
  changedFiles : List String
  diffSummary : String
  deriving DecidableEq, Repr

/-! ### Writing it -/

section Write

variable {B : Type} (P : FilePlatform B) (workspace : RepositoryWorkspace)

def FilePatch.check (tree : FileTree B) (file : FilePatch) : Except String Unit :=
  match assertWritableRepositoryPath P.cwd workspace tree file.relativePath with
  | .error message => .error message
  | .ok _ =>
      if (truthy file.unifiedDiff).isSome then
        .error "Unified diff execution is not supported in this slice"
      else if file.operation ≠ .delete ∧
          file.fullReplacement.any (workspace.maxFileBytes < ·.utf8ByteSize) then
        .error ("Full replacement exceeds file size limit: " ++ file.relativePath)
      else .ok ()

def validatePatchPlanForWorkspace (tree : FileTree B) : List FilePatch → Except String Unit
  | [] => .ok ()
  | file :: rest =>
      match file.check P workspace tree with
      | .error message => .error message
      | .ok () => validatePatchPlanForWorkspace tree rest

/-- The bytes of a file, where it exists. -/
def readBefore (tree : FileTree B) (path : TreePath) : Except FileError (Option B) :=
  if tree.existsAt path then (tree.readFile path).map some else .ok none

/-- The text that a file is given. -/
def FilePatch.next (file : FilePatch) (before : Option B) : String :=
  match file.appendText with
  | some text => before.elim "" P.decode ++ text
  | none => file.fullReplacement.getD ""

/-- The patch of one file, where the path may be written, and what it was before. -/
def writeFilePatch (tree : FileTree B) (file : FilePatch) (path : ResolvedPath) (before : Option B) :
    Except String AppliedPatchFile × FileTree B :=
  match tree.makeDirectories [] path.absolutePath.dropLast with
  | .error e => (.error e.message, tree)
  | .ok made =>
      let next := file.next P before
      if workspace.maxFileBytes < next.utf8ByteSize then
        (.error ("Patched file exceeds byte limit: " ++ file.relativePath), made)
      else
        match made.writeFile path.absolutePath (P.encode next) with
        | .error e => (.error e.message, made)
        | .ok written =>
            (.ok ⟨path.relativePath, file.operation, before.map P.sha256,
              some (P.sha256 (P.encode next))⟩, written)

def applyFilePatch (tree : FileTree B) (file : FilePatch) :
    Except String AppliedPatchFile × FileTree B :=
  match assertWritableRepositoryPath P.cwd workspace tree file.relativePath with
  | .error message => (.error message, tree)
  | .ok path =>
      match readBefore tree path.absolutePath with
      | .error e => (.error e.message, tree)
      | .ok before =>
          if file.operation ≠ .create ∧ (truthy file.expectedSha256).isSome ∧
              before.map P.sha256 ≠ file.expectedSha256 then
            (.error ("File hash changed before patch: " ++ file.relativePath), tree)
          else if file.operation = .delete then
            match tree.unlink path.absolutePath with
            | .error e => (.error e.message, tree)
            | .ok left => (.ok ⟨path.relativePath, .delete, before.map P.sha256, none⟩, left)
          else writeFilePatch P workspace tree file path before

def applyFilePatches (tree : FileTree B) :
    List FilePatch → Except String (List AppliedPatchFile) × FileTree B
  | [] => (.ok [], tree)
  | file :: rest =>
      match applyFilePatch P workspace tree file with
      | (.error message, tree') => (.error message, tree')
      | (.ok applied, tree') =>
          match applyFilePatches tree' rest with
          | (.error message, tree'') => (.error message, tree'')
          | (.ok others, tree'') => (.ok (applied :: others), tree'')

def appliedResult (files : List AppliedPatchFile) : AppliedPatchResult :=
  ⟨files, files.map (·.relativePath), toString files.length ++ " file(s) changed"⟩

def applyRepositoryPatch (tree : FileTree B) (plan : FilePatchPlan) :
    Except String AppliedPatchResult × FileTree B :=
  match validatePatchPlanForWorkspace P workspace tree plan.files with
  | .error message => (.error message, tree)
  | .ok () =>
      match applyFilePatches P workspace tree plan.files with
      | (.error message, tree') => (.error message, tree')
      | (.ok files, tree') => (.ok (appliedResult files), tree')

/-- The capability `repo.apply_patch`: what it reports, success with a result or the failure. -/
def executeApplyPatch (tree : FileTree B) (plan : FilePatchPlan) :
    Except String AppliedPatchResult × FileTree B :=
  if plan.refined then applyRepositoryPatch P workspace tree plan
  else (.error "SCHEMA_VALIDATION_FAILED", tree)

end Write

end OpenLagrange
