/-
A patch plan, and the check it has to pass.

A patch plan lists operations on files of a repository.  The check looks at each operation by
itself, against the files as they are before the first operation: its path and policy, the hash
it expects of the file, and the anchors it names.  What it finds wrong is a list of violations,
and a plan without violations is accepted.

The structures carry the shape of the schema, and `refined` the lengths and formats.
-/
import OpenLagrange.Planning.Planfile
import OpenLagrange.Reconciliation.Records
import OpenLagrange.Lib.Occurrence
import OpenLagrange.Repository.PathPolicy

namespace OpenLagrange

/-- What patching uses but does not define: where relative roots are resolved, the text encoding,
the digest of bytes in hex, and the datetime format. -/
structure FilePlatform (B : Type) where
  cwd : TreePath
  encode : String → B
  decode : B → String
  decode_encode : ∀ text, decode (encode text) = text
  sha256 : B → String
  isDatetime : String → Bool

theorem nonempty_append {start rest : String} (h : start ≠ "") : nonempty (start ++ rest) = true := by
  refine decide_eq_true ?_
  intro hempty
  rw [String.append_eq_empty_iff] at hempty
  exact h hempty.1

/-! ### Scope expansion requests -/

inductive ScopeExpansionRequestStatus where
  | pendingApproval | approved | rejected | expired | applied
  deriving DecidableEq, Repr

structure ScopeExpansionRequest where
  requestId : String
  planId : String
  nodeId : String
  workOrderId : Option String
  reason : String
  requestedFiles : Option (List String)
  requestedCapabilities : Option (List String)
  requestedVerificationCommands : Option (List String)
  requestedRiskLevel : Option RiskLevel
  evidenceRefs : List String
  latestFailureRefs : Option (List String)
  status : Option ScopeExpansionRequestStatus
  createdAt : Option String
  decidedAt : Option String
  approvalId : Option String
  deriving DecidableEq, Repr

def ScopeExpansionRequest.refined (isDatetime : String → Bool) (r : ScopeExpansionRequest) : Bool :=
  nonempty r.requestId && nonempty r.planId && nonempty r.nodeId && r.workOrderId.all nonempty &&
    nonempty r.reason && r.requestedFiles.all (·.all nonempty) &&
    r.requestedCapabilities.all (·.all nonempty) &&
    r.requestedVerificationCommands.all (·.all nonempty) && r.evidenceRefs.all nonempty &&
    r.latestFailureRefs.all (·.all nonempty) && r.createdAt.all isDatetime &&
    r.decidedAt.all isDatetime && r.approvalId.all nonempty

/-! ### The plan -/

inductive PatchPreconditionKind where
  | fileHash | fileExists | fileAbsent | textPresent
  deriving DecidableEq, Repr

structure PatchPrecondition where
  kind : PatchPreconditionKind
  path : Option String
  expectedSha256 : Option String
  text : Option String
  summary : String
  deriving DecidableEq, Repr

structure PatchPolicy where
  allowedFiles : List String
  deniedFiles : List String
  allowFullReplacement : Bool
  fullReplacementMaxBytes : Nat
  allowAmbiguousAnchors : Bool
  allowedVerificationCommandIds : List String
  deriving DecidableEq, Repr

inductive PatchOperationKind where
  | replaceRange | insertAfter | insertBefore | createFile | unifiedDiff | fullReplacement
  deriving DecidableEq, Repr

structure RepositoryPatchOperation where
  operationId : String
  kind : PatchOperationKind
  relativePath : String
  expectedSha256 : Option String
  startLine : Option Nat
  endLine : Option Nat
  startAnchor : Option String
  endAnchor : Option String
  anchor : Option String
  content : Option String
  unifiedDiff : Option String
  rationale : String
  deriving DecidableEq, Repr

inductive PatchRiskLevel where
  | read | write | destructive
  deriving DecidableEq, Repr

structure RepositoryPatchPlan where
  patchPlanId : String
  planId : String
  nodeId : String
  summary : String
  rationale : String
  evidenceRefs : List String
  operations : List RepositoryPatchOperation
  expectedChangedFiles : List String
  verificationCommandIds : List String
  preconditions : List PatchPrecondition
  riskLevel : PatchRiskLevel
  approvalRequired : Bool
  confidence : Option ℚ
  requiresScopeExpansion : Bool
  scopeExpansionRequest : Option ScopeExpansionRequest
  deriving DecidableEq

def PatchPrecondition.refined (p : PatchPrecondition) : Bool :=
  p.path.all nonempty && p.expectedSha256.all isSha256Hex && nonempty p.summary

def PatchPolicy.refined (p : PatchPolicy) : Bool :=
  p.allowedFiles.all nonempty && p.deniedFiles.all nonempty && 1 ≤ p.fullReplacementMaxBytes &&
    p.allowedVerificationCommandIds.all nonempty

def RepositoryPatchOperation.refined (o : RepositoryPatchOperation) : Bool :=
  nonempty o.operationId && nonempty o.relativePath && o.expectedSha256.all isSha256Hex &&
    o.startLine.all (1 ≤ ·) && o.endLine.all (1 ≤ ·) && nonempty o.rationale

def RepositoryPatchPlan.refined (isDatetime : String → Bool) (p : RepositoryPatchPlan) : Bool :=
  nonempty p.patchPlanId && nonempty p.planId && nonempty p.nodeId && nonempty p.summary &&
    nonempty p.rationale && p.evidenceRefs.all nonempty && !p.evidenceRefs.isEmpty &&
    p.operations.all (·.refined) && !p.operations.isEmpty && p.expectedChangedFiles.all nonempty &&
    !p.expectedChangedFiles.isEmpty && p.verificationCommandIds.all nonempty &&
    p.preconditions.all (·.refined) && p.confidence.all (fun c => 0 ≤ c ∧ c ≤ 1) &&
    p.scopeExpansionRequest.all (·.refined isDatetime)

/-! ### The check -/

structure RepositoryPatchValidationResult where
  valid : Bool
  ok : Bool
  normalizedPatchPlan : Option RepositoryPatchPlan
  violations : List StructuredError
  warnings : List String
  approvalRequired : Bool
  errors : List String

/-- A text that is not empty. -/
def truthy (text : Option String) : Option String := text.filter (· ≠ "")

def isLockfile (path : String) : Bool :=
  path = "package-lock.json" ∨ path = "pnpm-lock.yaml" ∨ path = "yarn.lock"

/-- `toLowerCase`, as far as ASCII letters come out of it. -/
def lowerCased (text : String) : String :=
  String.ofList (text.toList.map fun c => if c.toNat = 0x212A then 'k' else c.toLower)

/-- Some precondition speaks of the lockfile. -/
def RepositoryPatchPlan.namesLockfile (plan : RepositoryPatchPlan) : Bool :=
  plan.preconditions.any fun item => includes (lowerCased item.summary) "lockfile"

def PatchOperationKind.inserts : PatchOperationKind → Bool
  | .insertAfter | .insertBefore => true
  | _ => false

section Check

variable {B : Type} (P : FilePlatform B) (workspace : RepositoryWorkspace) (tree : FileTree B)
  (plan : RepositoryPatchPlan) (policy : Option PatchPolicy) (now : String)

def violation (code message : String) : StructuredError := structuredError code message now none none

def expectedFileViolations (file : String) : List StructuredError :=
  (if policy.any fun p => file ∉ p.allowedFiles then
    [violation now "POLICY_DENIED" (file ++ ": expected changed file is outside allowed files.")]
  else []) ++
  (if policy.any fun p => file ∈ p.deniedFiles then
    [violation now "POLICY_DENIED" (file ++ ": expected changed file is denied.")]
  else [])

def commandViolations (commandId : String) : List StructuredError :=
  if policy.any fun p => commandId ∉ p.allowedVerificationCommandIds then
    [violation now "POLICY_DENIED"
      (commandId ++ ": verification command is outside allowed commands.")]
  else []

/-- What is wrong with a plan before its operations are looked at. -/
def planViolations : List StructuredError :=
  (if plan.requiresScopeExpansion then
    [violation now "APPROVAL_REQUIRED"
      "PatchPlan requires approved scope expansion before patch application."]
  else []) ++
  (if plan.expectedChangedFiles.length = 0 then
    [violation now "PRECONDITION_FAILED" "PatchPlan must declare expected changed files."]
  else []) ++
  plan.expectedChangedFiles.flatMap (expectedFileViolations policy now) ++
  plan.verificationCommandIds.flatMap (commandViolations policy now)

def validateUniqueAnchor (path : String) (content anchor : List Char) (allowAmbiguous : Bool) :
    List StructuredError :=
  match Occurrence.cutFirst anchor content with
  | none => [violation now "PRECONDITION_FAILED" (path ++ ": anchor was not found.")]
  | some (_, after) =>
      if !allowAmbiguous && Occurrence.occurs anchor after then
        [violation now "PRECONDITION_FAILED" (path ++ ": anchor is ambiguous.")]
      else []

variable (operation : RepositoryPatchOperation)

/-- What the raw path is checked for. -/
def targetViolations : List StructuredError :=
  (if operation.relativePath ∉ plan.expectedChangedFiles then
    [violation now "PRECONDITION_FAILED"
      (operation.relativePath ++ ": operation target is outside expected_changed_files.")]
  else []) ++
  (if policy.any fun p => operation.relativePath ∉ p.allowedFiles then
    [violation now "POLICY_DENIED"
      (operation.relativePath ++ ": operation target is outside allowed files.")]
  else []) ++
  (if policy.any fun p => operation.relativePath ∈ p.deniedFiles then
    [violation now "POLICY_DENIED" (operation.relativePath ++ ": operation target is denied.")]
  else []) ++
  (if startsWith operation.relativePath ".open-lagrange/" ∨
      operation.relativePath = ".open-lagrange" then
    [violation now "POLICY_DENIED"
      (operation.relativePath ++ ": Open Lagrange internal files cannot be patched.")]
  else [])

/-- What the content of the file is checked for. -/
def contentViolations (path : TreePath) : Except FileError (List StructuredError) :=
  if !tree.existsAt path then .ok []
  else
    match operation.expectedSha256 with
    | none =>
        .ok (if operation.kind ≠ .createFile then
          [violation now "PRECONDITION_FAILED"
            (operation.relativePath ++ ": expected hash is required for modify operations.")]
        else [])
    | some expected =>
        match tree.readFile path with
        | .error e => .error e
        | .ok bytes =>
            .ok (if P.sha256 bytes ≠ expected then
              [violation now "PRECONDITION_FAILED"
                (operation.relativePath ++ ": expected hash does not match.")]
            else [])

/-- What a full replacement is checked for. -/
def replacementViolations : List StructuredError :=
  if operation.kind ≠ .fullReplacement then []
  else
    (if policy.any fun p => !p.allowFullReplacement then
      [violation now "PRECONDITION_FAILED"
        (operation.relativePath ++ ": full replacement is not allowed by patch policy.")]
    else []) ++
    (if (operation.content.getD "").utf8ByteSize >
        min workspace.maxFileBytes ((policy.map (·.fullReplacementMaxBytes)).getD 64000) then
      [violation now "PRECONDITION_FAILED"
        (operation.relativePath ++ ": full replacement exceeds configured limit.")]
    else [])

/-- The anchors that are looked for in the file. -/
def RepositoryPatchOperation.anchors (operation : RepositoryPatchOperation) : List String :=
  if operation.kind.inserts then (truthy operation.anchor).toList
  else if operation.kind = .replaceRange then
    match truthy operation.startAnchor, truthy operation.endAnchor with
    | some first, some last => [first, last]
    | _, _ => []
  else []

def anchorViolations (path : TreePath) : Except FileError (List StructuredError) :=
  if operation.anchors = [] ∨ !tree.existsAt path then .ok []
  else
    match tree.readFile path with
    | .error e => .error e
    | .ok bytes =>
        .ok (operation.anchors.flatMap fun anchor =>
          validateUniqueAnchor now operation.relativePath (P.decode bytes).toList anchor.toList
            ((policy.map (·.allowAmbiguousAnchors)).getD false))

def lockfileViolations : List StructuredError :=
  if isLockfile operation.relativePath && !plan.namesLockfile then
    [violation now "PRECONDITION_FAILED"
      (operation.relativePath ++ ": lockfile changes require an explicit precondition.")]
  else []

def writableViolations : List StructuredError :=
  match assertWritableRepositoryPath P.cwd workspace tree operation.relativePath with
  | .error message => [violation now "POLICY_DENIED" message]
  | .ok _ => []

/-- What is wrong with one operation, or the file that cannot be read for it. -/
def operationViolations : Except FileError (List StructuredError) :=
  match resolveRepositoryPath P.cwd workspace operation.relativePath with
  | .error reason =>
      .ok [violation now "POLICY_DENIED" (operation.relativePath ++ ": " ++ reason)]
  | .ok decision =>
      match contentViolations P tree now operation decision.absolutePath with
      | .error e => .error e
      | .ok content =>
          match anchorViolations P tree policy now operation decision.absolutePath with
          | .error e => .error e
          | .ok anchors =>
              .ok (writableViolations P workspace tree now operation ++
                targetViolations plan policy now operation ++ content ++
                replacementViolations workspace policy now operation ++ anchors ++
                lockfileViolations plan now operation)

/-- What is wrong with the operations, one after another. -/
def operationsViolations : List RepositoryPatchOperation → Except FileError (List StructuredError)
  | [] => .ok []
  | operation :: rest =>
      match operationViolations P workspace tree plan policy now operation with
      | .error e => .error e
      | .ok violations =>
          match operationsViolations rest with
          | .error e => .error e
          | .ok others => .ok (violations ++ others)

/-- The operations whose diff is not looked at. -/
def diffWarnings : List String :=
  (plan.operations.filter fun operation =>
      operation.kind = .unifiedDiff ∧
        (resolveRepositoryPath P.cwd workspace operation.relativePath).isOk).map fun operation =>
    operation.relativePath ++ ": unified diff operation will be validated through final patch export."

def approvalRequired : Bool :=
  plan.approvalRequired || plan.riskLevel = .destructive ||
    (workspace.requireApprovalForWrite && plan.riskLevel = .write)

/-- What the schemas refuse, and a file that cannot be read, are thrown. -/
def validateRepositoryPatchPlan : Except String RepositoryPatchValidationResult :=
  if !plan.refined P.isDatetime then .error "Invalid RepositoryPatchPlan"
  else if !policy.all (·.refined) then .error "Invalid PatchPolicy"
  else
    match operationsViolations P workspace tree plan policy now plan.operations with
    | .error e => .error e.message
    | .ok found =>
        let violations := planViolations plan policy now ++ found
        .ok
          { valid := violations.isEmpty
            ok := violations.isEmpty
            normalizedPatchPlan := if violations.isEmpty then some plan else none
            violations
            warnings := diffWarnings P workspace plan
            approvalRequired := approvalRequired workspace plan
            errors := violations.map (·.message) }

end Check

end OpenLagrange
