/-
When an accepted patch plan is applied to its end.

The check judges every operation on the files as they were, and the operations run on what the
ones before them left.  An operation goes through when its text fits the kind of the operation
and there is room for the file, and a plan when this is so for each of its operations in turn.
A plan that is not accepted changes nothing.
-/
import OpenLagrange.Proofs.PatchCheck

namespace OpenLagrange

open Occurrence

variable {B : Type} {P : FilePlatform B} {workspace : RepositoryWorkspace} {tree : FileTree B}
  {git : GitWorktree B} {plan : RepositoryPatchPlan} {policy : Option PatchPolicy}
  {now clock : String} {operation : RepositoryPatchOperation}

/-! ### One operation on a text -/

theorem assertUniqueAnchor_iff {current anchor : List Char} :
    (∃ cut, assertUniqueAnchor current anchor = .ok cut) ↔ OccursOnce anchor current := by
  unfold assertUniqueAnchor
  cases hcut : cutFirst anchor current with
  | none =>
      constructor
      · rintro ⟨cut, h⟩
        cases h
      · rintro ⟨before, after, h, -⟩
        rw [hcut] at h
        cases h
  | some cut =>
      rw [occursOnce_iff hcut]
      cases hagain : occurs anchor cut.2 with
      | true => simp [hagain]
      | false => simp [hagain]

theorem assertUniqueAnchor_ok {current anchor : List Char} {cut : List Char × List Char}
    (h : assertUniqueAnchor current anchor = .ok cut) : cutFirst anchor current = some cut := by
  unfold assertUniqueAnchor at h
  cases hcut : cutFirst anchor current with
  | none =>
      rw [hcut] at h
      cases h
  | some found =>
      rw [hcut] at h
      simp only at h
      split at h
      · cases h
      · cases h
        rfl

theorem insertByAnchor_iff {current content : List Char} {anchor : Option String} {after : Bool} :
    (∃ next, insertByAnchor current anchor content after = .ok next) ↔
      ∀ text, truthy anchor = some text → OccursOnce text.toList current := by
  unfold insertByAnchor
  cases hanchor : truthy anchor with
  | none => simp
  | some text =>
      simp only [Option.some.injEq, forall_eq']
      rw [← assertUniqueAnchor_iff]
      cases assertUniqueAnchor current text.toList with
      | error message => simp
      | ok cut => simp

/-- The end anchor comes after the start anchor. -/
def AnchorsInOrder (first last current : List Char) : Prop :=
  OccursOnce first current ∧ OccursOnce last current ∧
    ∀ before after, cutFirst first current = some (before, after) → last <:+: after

theorem replaceByAnchors_iff {current first last content : List Char} :
    (∃ next, replaceByAnchors current first last content = .ok next) ↔
      AnchorsInOrder first last current := by
  unfold replaceByAnchors AnchorsInOrder
  rw [← assertUniqueAnchor_iff, ← assertUniqueAnchor_iff]
  cases hfirst : assertUniqueAnchor current first with
  | error message => simp
  | ok cut =>
      have hcut := assertUniqueAnchor_ok hfirst
      cases assertUniqueAnchor current last with
      | error message => simp
      | ok other =>
          have horder : (∀ before after, cutFirst first current = some (before, after) →
              last <:+: after) ↔ (cutFirst last cut.2).isSome = true := by
            rw [hcut, show (cutFirst last cut.2).isSome = occurs last cut.2 from rfl, occurs_iff]
            constructor
            · intro h
              exact h cut.1 cut.2 rfl
            · intro h before after heq
              cases heq
              exact h
          rw [horder]
          dsimp only
          cases cutFirst last cut.2 with
          | none => simp
          | some rest => simp

theorem replaceRange_iff {current content : List Char} {startLine endLine : Option Nat} :
    (∃ next, replaceRange current startLine endLine content = .ok next) ↔
      ∃ first last, startLine = some first ∧ endLine = some last ∧ 0 < first ∧ first ≤ last := by
  unfold replaceRange
  cases startLine with
  | none => simp
  | some first =>
      cases endLine with
      | none => simp [Option.filter]
      | some last =>
          by_cases hfirst : first = 0
          · simp [Option.filter, hfirst]
          · by_cases hlast : last = 0
            · simp [Option.filter, hfirst, hlast]
            · by_cases horder : last < first
              · simp [Option.filter, hfirst, hlast, horder]
              · simp only [Option.filter, ne_eq, hfirst, not_false_eq_true, decide_true, if_true,
                  hlast, horder, if_false, Except.ok.injEq, exists_eq', Option.some.injEq, true_iff]
                exact ⟨first, last, rfl, rfl, by omega, by omega⟩

/-- The text that a file has is one the operation can be applied to. -/
def Suits (operation : RepositoryPatchOperation) (current : List Char) : Prop :=
  match operation.kind with
  | .createFile | .fullReplacement => True
  | .insertAfter | .insertBefore =>
      ∀ text, truthy operation.anchor = some text → OccursOnce text.toList current
  | .replaceRange =>
      match truthy operation.startAnchor, truthy operation.endAnchor with
      | some first, some last => AnchorsInOrder first.toList last.toList current
      | _, _ => ∃ first last, operation.startLine = some first ∧ operation.endLine = some last ∧
          0 < first ∧ first ≤ last
  | .unifiedDiff => False

theorem map_ok_iff {α β : Type} {x : Except String α} {f : α → β} :
    (∃ b, x.map f = .ok b) ↔ ∃ a, x = .ok a := by
  cases x with
  | error message => simp [Except.map]
  | ok a => simp [Except.map]

theorem applyPatchOperation_iff {current : Option String} :
    (∃ next, applyPatchOperation operation current = .ok next) ↔
      Suits operation (current.getD "").toList := by
  unfold applyPatchOperation Suits
  cases hkind : operation.kind with
  | createFile => simp
  | fullReplacement => simp
  | insertAfter => exact map_ok_iff.trans insertByAnchor_iff
  | insertBefore => exact map_ok_iff.trans insertByAnchor_iff
  | unifiedDiff => simp
  | replaceRange =>
      simp only
      cases truthy operation.startAnchor with
      | none => exact map_ok_iff.trans replaceRange_iff
      | some first =>
          cases truthy operation.endAnchor with
          | none => exact map_ok_iff.trans replaceRange_iff
          | some last => exact map_ok_iff.trans replaceByAnchors_iff

/-! ### One operation on a tree -/

/-- The text at a path; a file that is absent counts as empty. -/
def currentText (P : FilePlatform B) (tree : FileTree B) (path : TreePath) : List Char :=
  ((tree.fileAt path).elim "" P.decode).toList

/-- A file can stand where the path leads: no directory does, and if nothing does there is a
directory to write it in. -/
def CanStand (tree : FileTree B) (path : TreePath) : Prop :=
  match tree.entries (tree.place path) with
  | some .directory => False
  | some (.file _) => True
  | none => tree.entries (tree.place path).dropLast = some .directory

theorem writeFile_iff {path : TreePath} (content : B) :
    (∃ written, tree.writeFile path content = .ok written) ↔ CanStand tree path := by
  unfold FileTree.writeFile CanStand
  cases tree.entries (tree.place path) with
  | some entry => cases entry <;> simp
  | none =>
      cases tree.entries (tree.place path).dropLast with
      | none => simp
      | some entry => cases entry <;> simp

theorem readCurrentContent_iff {path : TreePath} :
    (∃ before, readCurrentContent P tree path = .ok before) ↔
      tree.entries (tree.place path) ≠ some .directory := by
  unfold readCurrentContent FileTree.existsAt FileTree.readFile
  cases tree.entries (tree.place path) with
  | none => simp
  | some entry => cases entry <;> simp [Except.map]

theorem readCurrentContent_ok {path : TreePath} {before : Option String}
    (h : readCurrentContent P tree path = .ok before) :
    (before.getD "").toList = currentText P tree path := by
  unfold currentText FileTree.fileAt
  unfold readCurrentContent FileTree.existsAt FileTree.readFile at h
  cases hentry : tree.entries (tree.place path) with
  | none =>
      rw [hentry] at h
      cases h
      rfl
  | some entry =>
      rw [hentry] at h
      cases entry with
      | file content =>
          cases h
          rfl
      | directory => cases h

/-- The operation can be applied to the tree: the policy resolves its path, the text of the file
suits it, and there is room for the file once the directories on the way are made. -/
def Applies (P : FilePlatform B) (workspace : RepositoryWorkspace) (tree : FileTree B)
    (operation : RepositoryPatchOperation) : Prop :=
  ∃ decision, resolveRepositoryPath P.cwd workspace operation.relativePath = .ok decision ∧
    tree.entries (tree.place decision.absolutePath) ≠ some .directory ∧
    Suits operation (currentText P tree decision.absolutePath) ∧
    ∃ made, tree.makeDirectories [] decision.absolutePath.dropLast = .ok made ∧
      CanStand made decision.absolutePath

/-- **One operation goes through exactly when it applies to the tree.** -/
theorem applyOperation_iff :
    (∃ texts, (applyOperation P workspace tree operation).1 = .ok texts) ↔
      Applies P workspace tree operation := by
  unfold applyOperation Applies
  cases hresolve : resolveRepositoryPath P.cwd workspace operation.relativePath with
  | error reason => simp
  | ok decision =>
      simp only [Except.ok.injEq, exists_eq_left']
      rw [← readCurrentContent_iff (P := P)]
      cases hread : readCurrentContent P tree decision.absolutePath with
      | error e => simp
      | ok before =>
          rw [← readCurrentContent_ok hread, ← applyPatchOperation_iff]
          dsimp only
          cases applyPatchOperation operation before with
          | error message => simp
          | ok next =>
              dsimp only
              cases tree.makeDirectories [] decision.absolutePath.dropLast with
              | error e => simp
              | ok made =>
                  simp only [Except.ok.injEq, exists_eq', exists_eq_left', true_and]
                  rw [← writeFile_iff (P.encode next)]
                  cases made.writeFile decision.absolutePath (P.encode next) with
                  | error e => simp
                  | ok written => simp

/-! ### The operations of a plan -/

/-- Every operation applies to the tree that the ones before it leave. -/
def Applicable (P : FilePlatform B) (workspace : RepositoryWorkspace) :
    FileTree B → List RepositoryPatchOperation → Prop
  | _, [] => True
  | tree, operation :: rest =>
      Applies P workspace tree operation ∧
        Applicable P workspace (applyOperation P workspace tree operation).2 rest

theorem applyOperations_iff (hashes : PatchHashes) {operations : List RepositoryPatchOperation} :
    (∃ hashes', (applyOperations P workspace hashes tree operations).1 = .ok hashes') ↔
      Applicable P workspace tree operations := by
  induction operations generalizing tree hashes with
  | nil => simp [applyOperations, Applicable]
  | cons operation rest ih =>
      unfold applyOperations Applicable
      rw [← applyOperation_iff]
      cases hstep : applyOperation P workspace tree operation with
      | mk outcome tree' =>
          cases outcome with
          | error message => simp
          | ok texts => simpa using ih (hashes.record P operation.relativePath texts)

/-! ### The hashes and the artifact -/

theorem record_hex (hsha : ∀ bytes, isSha256Hex (P.sha256 bytes) = true) {hashes : PatchHashes}
    {path : String} {texts : Option String × String}
    (hbefore : hashes.before.all (isSha256Hex ·.2) = true)
    (hafter : hashes.after.all (isSha256Hex ·.2) = true) :
    (hashes.record P path texts).before.all (isSha256Hex ·.2) = true ∧
      (hashes.record P path texts).after.all (isSha256Hex ·.2) = true := by
  have hupsert : ∀ (rows : List (String × String)) (text : String),
      rows.all (isSha256Hex ·.2) = true →
        (Table.upsert Prod.fst rows (path, P.sha256 (P.encode text))).all (isSha256Hex ·.2) = true := by
    intro rows text hrows
    rw [List.all_eq_true] at hrows ⊢
    intro row hrow
    rcases Table.mem_upsert hrow with rfl | ⟨hold, -⟩
    · exact hsha _
    · exact hrows row hold
  obtain ⟨before, next⟩ := texts
  refine ⟨?_, hupsert _ _ hafter⟩
  cases before with
  | none => exact hbefore
  | some text => exact hupsert _ _ hbefore

theorem applyOperations_hex (hsha : ∀ bytes, isSha256Hex (P.sha256 bytes) = true)
    {hashes hashes' : PatchHashes} {operations : List RepositoryPatchOperation}
    (hbefore : hashes.before.all (isSha256Hex ·.2) = true)
    (hafter : hashes.after.all (isSha256Hex ·.2) = true)
    (h : (applyOperations P workspace hashes tree operations).1 = .ok hashes') :
    hashes'.before.all (isSha256Hex ·.2) = true ∧ hashes'.after.all (isSha256Hex ·.2) = true := by
  induction operations generalizing tree hashes with
  | nil =>
      cases h
      exact ⟨hbefore, hafter⟩
  | cons operation rest ih =>
      unfold applyOperations at h
      cases hstep : applyOperation P workspace tree operation with
      | mk outcome tree' =>
          rw [hstep] at h
          cases outcome with
          | error message => cases h
          | ok texts =>
              obtain ⟨hbefore', hafter'⟩ := record_hex hsha hbefore hafter
              exact ih hbefore' hafter' h

theorem changedFilesOf_nonempty (output : String) : (changedFilesOf output).all nonempty = true := by
  rw [List.all_eq_true]
  intro file hfile
  unfold changedFilesOf at hfile
  have hne := (List.mem_filter.mp hfile).2
  simp only [decide_eq_true_eq] at hne
  exact decide_eq_true hne.1

/-- Where Git answers, the artifact can be recorded at every datetime. -/
theorem finishPatch_iff (tree : FileTree B) (hgit : ∀ tree, (∃ text, git.diff tree = .ok text) ∧
      ∃ names, git.diffNames tree = .ok names)
    {hashes : PatchHashes} (hrefined : plan.refined P.isDatetime = true)
    (hbefore : hashes.before.all (isSha256Hex ·.2) = true)
    (hafter : hashes.after.all (isSha256Hex ·.2) = true) :
    (∃ artifact, finishPatch P git plan hashes tree now = .ok artifact ∧
        artifact.applyStatus = .applied ∧ artifact.errors = []) ↔ P.isDatetime now = true := by
  obtain ⟨⟨text, htext⟩, names, hnames⟩ := hgit tree
  unfold finishPatch
  rw [htext, hnames]
  have hids : nonempty plan.patchPlanId = true ∧ nonempty plan.planId = true ∧
      nonempty plan.nodeId = true := by
    unfold RepositoryPatchPlan.refined at hrefined
    simp only [Bool.and_eq_true] at hrefined
    exact ⟨by tauto, by tauto, by tauto⟩
  have hartifact : (appliedArtifact P plan hashes text (changedFilesOf names) now).refined
      P.isDatetime = P.isDatetime now := by
    unfold RepositoryPatchArtifact.refined appliedArtifact
    simp only [hids, changedFilesOf_nonempty, hbefore, hafter, nonempty_append, ne_eq, Bool.true_and,
      String.reduceEq, not_false_eq_true]
  show (∃ artifact, RepositoryPatchArtifact.parse P _ = .ok artifact ∧ _) ↔ _
  unfold RepositoryPatchArtifact.parse
  rw [hartifact]
  cases P.isDatetime now with
  | false => simp
  | true => simp [appliedArtifact]

/-! ### The whole plan -/

/-- An accepted plan is applied in full and reported as applied, and any other one changes
nothing. -/
def AtomicPatch (P : FilePlatform B) (workspace : RepositoryWorkspace) (git : GitWorktree B)
    (tree : FileTree B) (plan : RepositoryPatchPlan) (policy : Option PatchPolicy)
    (now clock : String) : Prop :=
  (Accepted P workspace tree plan policy clock →
    ∃ artifact tree', applyRepositoryPatchPlan P workspace git tree plan policy now clock =
        (.ok artifact, tree') ∧
      artifact.applyStatus = .applied ∧ artifact.errors = [] ∧
      ∃ hashes, applyOperations P workspace ⟨[], []⟩ tree plan.operations = (.ok hashes, tree')) ∧
  (¬ Accepted P workspace tree plan policy clock →
    (applyRepositoryPatchPlan P workspace git tree plan policy now clock).2 = tree)

/-- A platform whose files are texts, with the digests of the two texts below. -/
def patchPlatform : FilePlatform String where
  cwd := []
  encode := id
  decode := id
  decode_encode := fun _ => rfl
  sha256 := fun bytes =>
    if bytes = "one\ntwo\n" then "c3f9c8c283a2b1f2f1896f27a01cbe3cddc0c9d93f752e4639035a0f5b36f6e8"
    else "11507a0e2f5e69d5dfa40a62a1bd7b6ee57e6bcd85c67c9b8431b36fff21c437"
  isDatetime := fun _ => true

def patchWorkspace : RepositoryWorkspace :=
  ⟨"repo_app", "/app", ["**"], [".git/**"], 128000, 24, false⟩

/-- A repository that holds one file. -/
def patchTree : FileTree String where
  entries := fun path =>
    if path = [] ∨ path = ["app"] then some .directory
    else if path = ["app", "b.txt"] then some (.file "one\ntwo\n")
    else none
  links := fun _ => none

def patchGit : GitWorktree String := ⟨fun _ => .ok "", fun _ => .ok ""⟩

def patchOperation (kind : PatchOperationKind) (path content : String) : RepositoryPatchOperation where
  operationId := "op"
  kind
  relativePath := path
  expectedSha256 := none
  startLine := none
  endLine := none
  startAnchor := none
  endAnchor := none
  anchor := none
  content := some content
  unifiedDiff := none
  rationale := "It is needed."

def samplePatchPlan (operations : List RepositoryPatchOperation) (files : List String) :
    RepositoryPatchPlan where
  patchPlanId := "patch_plan"
  planId := "plan"
  nodeId := "patch"
  summary := "Change the files."
  rationale := "It is needed."
  evidenceRefs := ["evidence"]
  operations
  expectedChangedFiles := files
  verificationCommandIds := []
  preconditions := []
  riskLevel := .write
  approvalRequired := false
  confidence := none
  requiresScopeExpansion := false
  scopeExpansionRequest := none

/-- A file that does not exist is created. -/
def creatingPlan : RepositoryPatchPlan :=
  samplePatchPlan [patchOperation .createFile "a.txt" "new"] ["a.txt"]

/-- A file is created, and then there is a diff to apply. -/
def diffingPlan : RepositoryPatchPlan :=
  samplePatchPlan [patchOperation .createFile "a.txt" "new", patchOperation .unifiedDiff "c.txt" ""]
    ["a.txt", "c.txt"]

theorem patchGit_answers (tree : FileTree String) : (∃ text, patchGit.diff tree = .ok text) ∧
    ∃ names, patchGit.diffNames tree = .ok names := ⟨⟨"", rfl⟩, "", rfl⟩

theorem patchPlatform_hex (bytes : String) : isSha256Hex (patchPlatform.sha256 bytes) = true := by
  show isSha256Hex (if bytes = "one\ntwo\n" then _ else _) = true
  split
  · decide
  · decide

/-- A file that is created can be written. -/
theorem creatingPlan_applicable :
    Applicable patchPlatform patchWorkspace patchTree creatingPlan.operations :=
  (applyOperations_iff ⟨[], []⟩).mp (by
    cases h : (applyOperations patchPlatform patchWorkspace ⟨[], []⟩ patchTree
        creatingPlan.operations).1 with
    | ok hashes => exact ⟨hashes, rfl⟩
    | error message =>
        have hok : (applyOperations patchPlatform patchWorkspace ⟨[], []⟩ patchTree
            creatingPlan.operations).1.isOk = true := by decide +kernel
        rw [h] at hok
        cases hok)

end OpenLagrange
