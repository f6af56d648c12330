/-
Applying a patch plan to the files of a worktree.

The plan is checked once more, and then its operations run one after another: each reads the
file as the operations before it left it, computes the new text, makes the directories on the
way and writes.  An operation that throws leaves what was written before it.

What changed is read off Git.  What Git answers in the worktree of a session, against the commit
the session is based on, is a parameter.
-/
import OpenLagrange.Lib.Table
import OpenLagrange.Repository.PatchPlan

namespace OpenLagrange

/-- The output of `git diff` and of `git diff --name-only` in the worktree of a session. -/
structure GitWorktree (B : Type) where
  diff : FileTree B → Except String String
  diffNames : FileTree B → Except String String

inductive PatchApplyStatus where
  | applied | failed | alreadyApplied
  deriving DecidableEq, Repr

structure RepositoryPatchArtifact where
  patchArtifactId : String
  patchPlanId : String
  planId : String
  nodeId : String
  changedFiles : List String
  unifiedDiff : String
  beforeHashes : List (String × String)
  afterHashes : List (String × String)
  applyStatus : PatchApplyStatus
  errors : List StructuredError
  artifactId : String
  createdAt : String
  deriving DecidableEq

def RepositoryPatchArtifact.refined (isDatetime : String → Bool) (a : RepositoryPatchArtifact) : Bool :=
  nonempty a.patchArtifactId && nonempty a.patchPlanId && nonempty a.planId && nonempty a.nodeId &&
    a.changedFiles.all nonempty && a.beforeHashes.all (isSha256Hex ·.2) &&
    a.afterHashes.all (isSha256Hex ·.2) && nonempty a.artifactId && isDatetime a.createdAt

/-! ### One operation on a text -/

/-- The one occurrence of an anchor. -/
def assertUniqueAnchor (current anchor : List Char) : Except String (List Char × List Char) :=
  match Occurrence.cutFirst anchor current with
  | none => .error "Patch anchor was not found."
  | some cut =>
      if Occurrence.occurs anchor cut.2 then .error "Patch anchor is ambiguous." else .ok cut

def insertByAnchor (current : List Char) (anchor : Option String) (content : List Char)
    (after : Bool) : Except String (List Char) :=
  match truthy anchor with
  | none => .ok (if after then current ++ content else content ++ current)
  | some anchor =>
      match assertUniqueAnchor current anchor.toList with
      | .error message => .error message
      | .ok (head, tail) =>
          .ok (if after then head ++ anchor.toList ++ content ++ tail
            else head ++ content ++ anchor.toList ++ tail)

def replaceByAnchors (current startAnchor endAnchor content : List Char) : Except String (List Char) :=
  match assertUniqueAnchor current startAnchor with
  | .error message => .error message
  | .ok (head, tail) =>
      match assertUniqueAnchor current endAnchor with
      | .error message => .error message
      | .ok _ =>
          match Occurrence.cutFirst endAnchor tail with
          | none => .error "Patch end anchor was not found after start anchor."
          | some (_, rest) => .ok (head ++ content ++ rest)

/-- `content.replace(/\n$/, "")`. -/
def dropLastNewline (content : List Char) : List Char :=
  if content.getLast? = some '\n' then content.dropLast else content

def replaceRange (current : List Char) (startLine endLine : Option Nat) (content : List Char) :
    Except String (List Char) :=
  match startLine.filter (· ≠ 0), endLine.filter (· ≠ 0) with
  | some first, some last =>
      if last < first then .error "replace_range requires a valid line range."
      else
        let lines := splitLines current
        .ok (joinLines (lines.take (first - 1) ++ splitLines (dropLastNewline content) ++
          lines.drop last))
  | _, _ => .error "replace_range requires a valid line range."

/-- The new text of a file; a file that is absent counts as empty. -/
def applyPatchOperation (operation : RepositoryPatchOperation) (currentContent : Option String) :
    Except String String :=
  let current := (currentContent.getD "").toList
  let content := operation.content.getD ""
  match operation.kind with
  | .createFile | .fullReplacement => .ok content
  | .insertAfter =>
      (insertByAnchor current operation.anchor content.toList true).map String.ofList
  | .insertBefore =>
      (insertByAnchor current operation.anchor content.toList false).map String.ofList
  | .replaceRange =>
      match truthy operation.startAnchor, truthy operation.endAnchor with
      | some first, some last =>
          (replaceByAnchors current first.toList last.toList content.toList).map String.ofList
      | _, _ =>
          (replaceRange current operation.startLine operation.endLine content.toList).map String.ofList
  | .unifiedDiff =>
      .error ("Unified diff operations are validated for final patch export but not applied by " ++
        "the text operation applier.")

/-! ### A plan on a tree -/

section Apply

variable {B : Type} (P : FilePlatform B) (workspace : RepositoryWorkspace)

def readCurrentContent (tree : FileTree B) (path : TreePath) : Except FileError (Option String) :=
  if tree.existsAt path then (tree.readFile path).map fun bytes => some (P.decode bytes)
  else .ok none

/-- One operation: the texts before and after it, and the tree it leaves. -/
def applyOperation (tree : FileTree B) (operation : RepositoryPatchOperation) :
    Except String (Option String × String) × FileTree B :=
  match resolveRepositoryPath P.cwd workspace operation.relativePath with
  | .error reason => (.error reason, tree)
  | .ok decision =>
      match readCurrentContent P tree decision.absolutePath with
      | .error e => (.error e.message, tree)
      | .ok before =>
          match applyPatchOperation operation before with
          | .error message => (.error message, tree)
          | .ok next =>
              match tree.makeDirectories [] decision.absolutePath.dropLast with
              | .error e => (.error e.message, tree)
              | .ok made =>
                  match made.writeFile decision.absolutePath (P.encode next) with
                  | .error e => (.error e.message, made)
                  | .ok written => (.ok (before, next), written)

/-- The hashes of the files before and after the operations, by the path of the operation. -/
structure PatchHashes where
  before : List (String × String)
  after : List (String × String)

def PatchHashes.record (hashes : PatchHashes) (path : String) (texts : Option String × String) :
    PatchHashes where
  before := texts.1.elim hashes.before fun text =>
    Table.upsert Prod.fst hashes.before (path, P.sha256 (P.encode text))
  after := Table.upsert Prod.fst hashes.after (path, P.sha256 (P.encode texts.2))

/-- The operations one after another. -/
def applyOperations (hashes : PatchHashes) (tree : FileTree B) :
    List RepositoryPatchOperation → Except String PatchHashes × FileTree B
  | [] => (.ok hashes, tree)
  | operation :: rest =>
      match applyOperation P workspace tree operation with
      | (.error message, tree') => (.error message, tree')
      | (.ok texts, tree') => applyOperations (hashes.record P operation.relativePath texts) tree' rest

/-- The files in the output of `git diff --name-only`. -/
def changedFilesOf (output : String) : List String :=
  (((splitLines (trimChars output.toList)).map fun line => String.ofList (trimChars line)).filter
    fun line => line ≠ "" ∧ ¬ startsWith line ".open-lagrange/")

/-- `stableHash`, on the platform of a file tree. -/
def FilePlatform.hash (value : Value) : String :=
  stableHash (fun text => P.sha256 (P.encode text)) value

def RepositoryPatchArtifact.parse (a : RepositoryPatchArtifact) : Except String RepositoryPatchArtifact :=
  if a.refined P.isDatetime then .ok a else .error "Invalid RepositoryPatchArtifact"

/-- The artifact of a plan that is not accepted. -/
def failedArtifact (plan : RepositoryPatchPlan) (violations : List StructuredError) (now : String) :
    RepositoryPatchArtifact where
  patchArtifactId := "patch_artifact_" ++ firstChars 18 (P.hash (.obj
    [("plan", .str plan.patchPlanId), ("now", .str now)]))
  patchPlanId := plan.patchPlanId
  planId := plan.planId
  nodeId := plan.nodeId
  changedFiles := []
  unifiedDiff := ""
  beforeHashes := []
  afterHashes := []
  applyStatus := .failed
  errors := violations
  artifactId := "patch_artifact_" ++ firstChars 18 (P.hash (.obj
    [("failed", .str plan.patchPlanId), ("now", .str now)]))
  createdAt := now

/-- The artifact of a plan whose operations were applied. -/
def appliedArtifact (plan : RepositoryPatchPlan) (hashes : PatchHashes) (unifiedDiff : String)
    (changedFiles : List String) (now : String) : RepositoryPatchArtifact :=
  let artifactId := "patch_artifact_" ++ firstChars 18 (P.hash (.obj
    [("patch", .str plan.patchPlanId), ("changedFiles", strings changedFiles), ("now", .str now)]))
  { patchArtifactId := artifactId
    patchPlanId := plan.patchPlanId
    planId := plan.planId
    nodeId := plan.nodeId
    changedFiles
    unifiedDiff
    beforeHashes := hashes.before
    afterHashes := hashes.after
    applyStatus := .applied
    errors := []
    artifactId
    createdAt := now }

/-- The artifact after the operations have run. -/
def finishPatch (git : GitWorktree B) (plan : RepositoryPatchPlan) (hashes : PatchHashes)
    (tree : FileTree B) (now : String) : Except String RepositoryPatchArtifact :=
  match git.diff tree with
  | .error message => .error message
  | .ok unifiedDiff =>
      match git.diffNames tree with
      | .error message => .error message
      | .ok names => (appliedArtifact P plan hashes unifiedDiff (changedFilesOf names) now).parse P

/-- `clock` is the time that the check reads by itself. -/
def applyRepositoryPatchPlan (git : GitWorktree B) (tree : FileTree B) (plan : RepositoryPatchPlan)
    (policy : Option PatchPolicy) (now clock : String) :
    Except String RepositoryPatchArtifact × FileTree B :=
  match validateRepositoryPatchPlan P workspace tree plan policy clock with
  | .error message => (.error message, tree)
  | .ok validation =>
      match validation.normalizedPatchPlan with
      | none => ((failedArtifact P plan validation.violations now).parse P, tree)
      | some normalized =>
          match applyOperations P workspace ⟨[], []⟩ tree normalized.operations with
          | (.error message, tree') => (.error message, tree')
          | (.ok hashes, tree') => (finishPatch P git plan hashes tree' now, tree')

end Apply

end OpenLagrange
