/-
What a patch would change.

Before a patch of the repository capability pack is written it is proposed: it is checked against
the workspace as it will be before it is written, and for each file the text it has now is shown
beside the text it is to have.  The text that is shown and the text that is written are computed
by two expressions.
-/
import OpenLagrange.Repository.FilePatch

namespace OpenLagrange

structure PatchPreview where
  patchPlan : FilePatchPlan
  touchedFiles : List String
  riskLevel : RiskLevel
  requiresApproval : Bool
  diffPreview : String
  deriving DecidableEq, Repr

/-- A platform that tells the size of what a file holds. -/
structure SizedPlatform (B : Type) extends FilePlatform B where
  size : B → Nat

section Propose

variable {B : Type} (P : SizedPlatform B) (workspace : RepositoryWorkspace) (tree : FileTree B)

/-- `assertReadableRepositoryPath`, and the file that is read. -/
def readRepositoryBytes (path : String) : Except String B :=
  match resolveRepositoryPath P.cwd workspace path with
  | .error reason => .error reason
  | .ok decision =>
      if !tree.existsAt (workspace.root P.cwd) then
        .error "ENOENT: no such file or directory, lstat"
      else if !tree.existsAt decision.absolutePath then .error "Repository path does not exist"
      else
        match assertRealRepositoryTarget P.cwd workspace tree decision.absolutePath with
        | .error reason => .error reason
        | .ok () =>
            -- a directory is refused for its size or as what it is
            match tree.readFile decision.absolutePath with
            | .error e => .error e.message
            | .ok bytes =>
                if workspace.maxFileBytes < P.size bytes then
                  .error "File exceeds repository policy byte limit"
                else .ok bytes

/-- `unifiedPreview`. -/
def unifiedPreview (path before after : String) : String :=
  if before = after then ""
  else
    String.ofList (joinLines ([("--- a/" ++ path).toList, ("+++ b/" ++ path).toList, "@@".toList] ++
      (splitLines before.toList).map ('-' :: ·) ++ (splitLines after.toList).map ('+' :: ·)))

/-- The text that a file is shown to have before. -/
def previewBefore (file : FilePatch) : Except String String :=
  match resolveRepositoryPath P.cwd workspace file.relativePath with
  | .error _ => .ok ""
  | .ok decision =>
      if tree.existsAt decision.absolutePath then
        (readRepositoryBytes P workspace tree file.relativePath).map P.decode
      else .ok ""

/-- The text that a file is shown to have after. -/
def FilePatch.after (file : FilePatch) (before : String) : String :=
  if file.operation = .delete then ""
  else
    match file.appendText with
    | some text => before ++ text
    | none => file.fullReplacement.getD before

def previewPatch : List FilePatch → Except String (List String)
  | [] => .ok []
  | file :: rest =>
      match previewBefore P workspace tree file with
      | .error message => .error message
      | .ok before =>
          (previewPatch rest).map (unifiedPreview file.relativePath before (file.after before) :: ·)

def proposeRepositoryPatch (plan : FilePatchPlan) : Except String PatchPreview :=
  match validatePatchPlanForWorkspace P.toFilePlatform workspace tree plan.files with
  | .error message => .error message
  | .ok () =>
      (previewPatch P workspace tree plan.files).map fun previews =>
        { patchPlan := plan
          touchedFiles := plan.files.map (·.relativePath)
          riskLevel := plan.riskLevel
          requiresApproval := plan.requiresApproval || workspace.requireApprovalForWrite ||
            plan.files.any (·.operation = .delete)
          diffPreview := "\n".intercalate previews }

end Propose

end OpenLagrange
