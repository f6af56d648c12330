/-
When a patch means the same after it is translated.

The patch language of the pack knows two things to do with a file: append a text, and replace
everything.  An operation of the plan is translated to one of these by its kind, and by whether
its file was read as evidence; where it stands in the file is lost.  In the language of the plan
this is an operation again, the plain one, so the translation can be compared with what it comes
from.

The pack also checks more than the plan was checked for, and nobody looks at what it reports.
-/
import OpenLagrange.Proofs.PatchAtomicity
import OpenLagrange.Repository.WorkOrderHandlers

namespace OpenLagrange

open WorkOrderHandlers

variable {B : Type} {P : FilePlatform B} {workspace : RepositoryWorkspace} {tree : FileTree B}
  {evidence : WorkOrderHandlers.EvidenceBundle} {digests : PlanDigests} {git : GitOutput B}
  {plan : RepositoryPatchPlan} {operation : RepositoryPatchOperation} {now clock : String}

/-! ### The plain operation -/

/-- What is left of an operation when it is translated. -/
def plain (evidence : WorkOrderHandlers.EvidenceBundle) (operation : RepositoryPatchOperation) :
    RepositoryPatchOperation :=
  { operation with
    kind := if evidence.appends operation then .insertAfter else .fullReplacement
    anchor := none }

/-- The text that a plain operation leaves. -/
def plainText (evidence : WorkOrderHandlers.EvidenceBundle) (operation : RepositoryPatchOperation)
    (before : Option String) : String :=
  if evidence.appends operation then before.getD "" ++ operation.content.getD ""
  else operation.content.getD ""

theorem applyPatchOperation_plain (before : Option String) :
    applyPatchOperation (plain evidence operation) before =
      .ok (plainText evidence operation before) := by
  unfold applyPatchOperation plain plainText
  by_cases happends : evidence.appends operation = true
  · simp only [happends, if_true, insertByAnchor, truthy, Option.filter_none, Except.map]
    rw [String.ofList_append, String.ofList_toList, String.ofList_toList]
  · simp only [happends, Bool.false_eq_true, if_false]

theorem filePatchOf_next (before : Option B) :
    (filePatchOf evidence operation).next P before =
      plainText evidence operation (before.map P.decode) := by
  unfold FilePatch.next filePatchOf plainText
  by_cases happends : evidence.appends operation = true
  · simp only [happends, if_true]
    cases before with
    | none => rfl
    | some bytes => rfl
  · simp only [happends, Bool.false_eq_true, if_false, Option.getD_some]

theorem readCurrentContent_eq (path : TreePath) :
    readCurrentContent P tree path = (readBefore tree path).map (·.map P.decode) := by
  unfold readCurrentContent readBefore
  split
  · cases tree.readFile path with
    | error e => rfl
    | ok bytes => rfl
  · rfl

/-! ### One file -/

/-- What the pack asks for beyond what the operation needs: the path may still be written, the hash
is still the expected one, and the file does not grow too large. -/
structure Fits (P : FilePlatform B) (workspace : RepositoryWorkspace)
    (evidence : WorkOrderHandlers.EvidenceBundle) (tree : FileTree B)
    (operation : RepositoryPatchOperation) (decision : ResolvedPath) : Prop where
  writable : assertWritableRepositoryPath P.cwd workspace tree operation.relativePath = .ok decision
  hash : evidence.read operation = true → ∀ expected, truthy operation.expectedSha256 = some expected →
    (tree.fileAt decision.absolutePath).map P.sha256 = some expected
  size : (plainText evidence operation ((tree.fileAt decision.absolutePath).map P.decode)).utf8ByteSize ≤
    workspace.maxFileBytes

theorem readBefore_ok {path : TreePath} {before : Option B} (h : readBefore tree path = .ok before) :
    before = tree.fileAt path ∧ tree.entries (tree.place path) ≠ some .directory := by
  unfold readBefore FileTree.existsAt FileTree.readFile at h
  unfold FileTree.fileAt
  cases hentry : tree.entries (tree.place path) with
  | none =>
      rw [hentry] at h
      cases h
      exact ⟨rfl, by simp⟩
  | some entry =>
      rw [hentry] at h
      cases entry with
      | file content =>
          cases h
          exact ⟨rfl, by simp⟩
      | directory => cases h

theorem writable_resolved {path : String} {decision : ResolvedPath}
    (h : assertWritableRepositoryPath P.cwd workspace tree path = .ok decision) :
    resolveRepositoryPath P.cwd workspace path = .ok decision := by
  unfold assertWritableRepositoryPath at h
  cases hresolve : resolveRepositoryPath P.cwd workspace path with
  | error reason =>
      rw [hresolve] at h
      cases h
  | ok found =>
      rw [hresolve] at h
      dsimp only at h
      cases hreal : assertRealRepositoryTarget P.cwd workspace tree found.absolutePath with
      | error reason =>
          rw [hreal] at h
          cases h
      | ok u =>
          rw [hreal] at h
          cases h
          rfl

theorem filePatchOf_not_delete : (filePatchOf evidence operation).operation ≠ .delete := by
  unfold filePatchOf
  by_cases hread : evidence.read operation = true
  · simp [hread]
  · simp [hread]

/-- The hash of the pack's patch is checked where the file was read. -/
theorem hash_guard {before : Option B} :
    ((filePatchOf evidence operation).operation ≠ .create ∧
        (truthy (filePatchOf evidence operation).expectedSha256).isSome = true ∧
        before.map P.sha256 ≠ (filePatchOf evidence operation).expectedSha256) ↔
      ¬ (evidence.read operation = true → ∀ expected, truthy operation.expectedSha256 = some expected →
        before.map P.sha256 = some expected) := by
  have htwice : truthy (truthy operation.expectedSha256) = truthy operation.expectedSha256 := by
    unfold truthy
    rw [Option.filter_filter]
    simp
  unfold filePatchOf
  dsimp only
  rw [htwice]
  by_cases hread : evidence.read operation = true
  · cases hexpected : truthy operation.expectedSha256 with
    | none => simp [hread]
    | some expected => simp [hread]
  · simp [hread]

/-- **One file is written as the plain operation writes it**, where it fits. -/
theorem applyFilePatch_fits {decision : ResolvedPath}
    (hfits : Fits P workspace evidence tree operation decision) :
    (applyFilePatch P workspace tree (filePatchOf evidence operation)).2 =
        (applyOperation P workspace tree (plain evidence operation)).2 ∧
      ((∃ applied,
          (applyFilePatch P workspace tree (filePatchOf evidence operation)).1 = .ok applied) ↔
        ∃ texts, (applyOperation P workspace tree (plain evidence operation)).1 = .ok texts) := by
  have hpath : (filePatchOf evidence operation).relativePath = operation.relativePath := rfl
  have hplain : (plain evidence operation).relativePath = operation.relativePath := rfl
  unfold applyFilePatch applyOperation
  rw [hpath, hplain, hfits.writable, writable_resolved hfits.writable]
  dsimp only
  rw [readCurrentContent_eq]
  cases hread : readBefore tree decision.absolutePath with
  | error e => exact ⟨rfl, by simp [Except.map]⟩
  | ok before =>
      obtain ⟨hbefore, -⟩ := readBefore_ok hread
      dsimp only [Except.map]
      rw [if_neg (by
        rw [hash_guard, hbefore, not_not]
        exact hfits.hash)]
      rw [if_neg filePatchOf_not_delete, applyPatchOperation_plain]
      unfold writeFilePatch
      dsimp only
      cases hmade : tree.makeDirectories [] decision.absolutePath.dropLast with
      | error e => exact ⟨rfl, by simp⟩
      | ok made =>
          dsimp only
          rw [filePatchOf_next, if_neg (by
            rw [hbefore]
            exact Nat.not_lt.mpr hfits.size)]
          cases made.writeFile decision.absolutePath
              (P.encode (plainText evidence operation (before.map P.decode))) with
          | error e => exact ⟨rfl, by simp⟩
          | ok written => exact ⟨rfl, by simp⟩

/-- A file that was written did fit. -/
theorem fits_of_applied {applied : AppliedPatchFile}
    (h : (applyFilePatch P workspace tree (filePatchOf evidence operation)).1 = .ok applied) :
    ∃ decision, Fits P workspace evidence tree operation decision := by
  unfold applyFilePatch at h
  rw [show (filePatchOf evidence operation).relativePath = operation.relativePath from rfl] at h
  cases hwritable : assertWritableRepositoryPath P.cwd workspace tree operation.relativePath with
  | error message =>
      rw [hwritable] at h
      cases h
  | ok decision =>
      rw [hwritable] at h
      dsimp only at h
      cases hread : readBefore tree decision.absolutePath with
      | error e =>
          rw [hread] at h
          cases h
      | ok before =>
          obtain ⟨hbefore, -⟩ := readBefore_ok hread
          rw [hread] at h
          dsimp only at h
          split at h
          · cases h
          · rename_i hhash
            rw [hash_guard, not_not, hbefore] at hhash
            rw [if_neg filePatchOf_not_delete] at h
            refine ⟨decision, hwritable, hhash, ?_⟩
            unfold writeFilePatch at h
            dsimp only at h
            cases hmade : tree.makeDirectories [] decision.absolutePath.dropLast with
            | error e =>
                rw [hmade] at h
                cases h
            | ok made =>
                rw [hmade] at h
                dsimp only at h
                split at h
                · cases h
                · rename_i hsize
                  rw [filePatchOf_next, hbefore] at hsize
                  exact Nat.not_lt.mp hsize

/-! ### All files -/

/-- Every operation fits, as a plain one, what the ones before it leave. -/
def FittingEdits (P : FilePlatform B) (workspace : RepositoryWorkspace)
    (evidence : WorkOrderHandlers.EvidenceBundle) :
    FileTree B → List RepositoryPatchOperation → Prop
  | _, [] => True
  | tree, operation :: rest =>
      (∃ decision, Fits P workspace evidence tree operation decision) ∧
        FittingEdits P workspace evidence (applyOperation P workspace tree (plain evidence operation)).2 rest

/-- The tree that the plain operations leave. -/
def plainTree (P : FilePlatform B) (workspace : RepositoryWorkspace)
    (evidence : WorkOrderHandlers.EvidenceBundle) (tree : FileTree B)
    (operations : List RepositoryPatchOperation) : FileTree B :=
  operations.foldl (fun tree operation =>
    (applyOperation P workspace tree (plain evidence operation)).2) tree

theorem applyFilePatches_iff {operations : List RepositoryPatchOperation} :
    (∃ applied, (applyFilePatches P workspace tree
        (operations.map (filePatchOf evidence))).1 = .ok applied) ↔
      FittingEdits P workspace evidence tree operations ∧
        Applicable P workspace tree (operations.map (plain evidence)) := by
  induction operations generalizing tree with
  | nil => simp [applyFilePatches, FittingEdits, Applicable]
  | cons operation rest ih =>
      unfold FittingEdits Applicable
      rw [List.map_cons, List.map_cons]
      unfold applyFilePatches
      constructor
      · rintro ⟨applied, h⟩
        cases hfirst : applyFilePatch P workspace tree (filePatchOf evidence operation) with
        | mk outcome tree' =>
            rw [hfirst] at h
            cases outcome with
            | error message => cases h
            | ok file =>
                obtain ⟨decision, hfits⟩ := fits_of_applied (congrArg Prod.fst hfirst)
                obtain ⟨htree, hok⟩ := applyFilePatch_fits hfits
                rw [hfirst] at htree hok
                dsimp only at htree h
                have hrest : ∃ others, (applyFilePatches P workspace tree'
                    (rest.map (filePatchOf evidence))).1 = .ok others := by
                  cases hothers : applyFilePatches P workspace tree' (rest.map (filePatchOf evidence)) with
                  | mk outcome tree'' =>
                      rw [hothers] at h
                      cases outcome with
                      | error message => cases h
                      | ok others => exact ⟨others, rfl⟩
                obtain ⟨hfitting, happlicable⟩ := ih.mp hrest
                rw [htree] at hfitting happlicable
                exact ⟨⟨⟨decision, hfits⟩, hfitting⟩,
                  applyOperation_iff.mp (hok.mp ⟨file, rfl⟩), happlicable⟩
      · rintro ⟨⟨⟨decision, hfits⟩, hfitting⟩, happlies, happlicable⟩
        obtain ⟨htree, hok⟩ := applyFilePatch_fits hfits
        obtain ⟨file, hfile⟩ := hok.mpr (applyOperation_iff.mpr happlies)
        rw [← htree] at hfitting happlicable
        obtain ⟨others, hothers⟩ := ih.mpr ⟨hfitting, happlicable⟩
        cases hfirst : applyFilePatch P workspace tree (filePatchOf evidence operation) with
        | mk outcome tree' =>
            rw [hfirst] at hfile hothers
            dsimp only at hfile hothers
            subst hfile
            dsimp only
            cases hrest : applyFilePatches P workspace tree' (rest.map (filePatchOf evidence)) with
            | mk outcome tree'' =>
                rw [hrest] at hothers
                dsimp only at hothers
                subst hothers
                exact ⟨file :: others, rfl⟩

/-- Where all files are written, the tree is the one that the plain operations leave. -/
theorem applyFilePatches_tree {operations : List RepositoryPatchOperation}
    (hfitting : FittingEdits P workspace evidence tree operations)
    (happlicable : Applicable P workspace tree (operations.map (plain evidence))) :
    (applyFilePatches P workspace tree (operations.map (filePatchOf evidence))).2 =
      plainTree P workspace evidence tree operations := by
  induction operations generalizing tree with
  | nil => rfl
  | cons operation rest ih =>
      obtain ⟨⟨decision, hfits⟩, hfitting⟩ := hfitting
      obtain ⟨happlies, happlicable⟩ := happlicable
      obtain ⟨htree, hok⟩ := applyFilePatch_fits hfits
      obtain ⟨file, hfile⟩ := hok.mpr (applyOperation_iff.mpr happlies)
      have hrest := ih hfitting happlicable
      rw [List.map_cons]
      unfold applyFilePatches plainTree
      rw [List.foldl_cons]
      unfold plainTree at hrest
      rw [← hrest, ← htree]
      cases hfirst : applyFilePatch P workspace tree (filePatchOf evidence operation) with
      | mk outcome tree' =>
          rw [hfirst] at hfile
          dsimp only at hfile
          subst hfile
          dsimp only
          cases applyFilePatches P workspace tree' (rest.map (filePatchOf evidence)) with
          | mk outcome tree'' =>
              cases outcome with
              | error message => rfl
              | ok others => rfl

/-! ### The capability -/

theorem check_iff :
    (filePatchOf evidence operation).check P workspace tree = .ok () ↔
      (∃ decision, assertWritableRepositoryPath P.cwd workspace tree operation.relativePath =
        .ok decision) ∧
      (evidence.appends operation = false →
        (operation.content.getD "").utf8ByteSize ≤ workspace.maxFileBytes) := by
  unfold FilePatch.check
  rw [show (filePatchOf evidence operation).relativePath = operation.relativePath from rfl]
  cases assertWritableRepositoryPath P.cwd workspace tree operation.relativePath with
  | error message => simp
  | ok decision =>
      dsimp only
      rw [show (filePatchOf evidence operation).unifiedDiff = none from rfl]
      rw [if_neg (by simp [truthy])]
      have hany : ((filePatchOf evidence operation).operation ≠ .delete ∧
          (filePatchOf evidence operation).fullReplacement.any
            (workspace.maxFileBytes < ·.utf8ByteSize) = true) ↔
          ¬ (evidence.appends operation = false →
            (operation.content.getD "").utf8ByteSize ≤ workspace.maxFileBytes) := by
        rw [and_iff_right filePatchOf_not_delete]
        unfold filePatchOf
        by_cases happends : evidence.appends operation = true
        · simp [happends]
        · simp [happends]
      by_cases hsize : evidence.appends operation = false →
          (operation.content.getD "").utf8ByteSize ≤ workspace.maxFileBytes
      · rw [if_neg (by rw [hany, not_not]; exact hsize)]
        exact iff_of_true rfl ⟨⟨decision, rfl⟩, hsize⟩
      · rw [if_pos (hany.mpr hsize)]
        refine iff_of_false ?_ fun h => hsize h.2
        intro h
        cases h

theorem validatePatchPlanForWorkspace_iff {operations : List RepositoryPatchOperation} :
    validatePatchPlanForWorkspace P workspace tree (operations.map (filePatchOf evidence)) = .ok () ↔
      ∀ operation ∈ operations, (filePatchOf evidence operation).check P workspace tree = .ok () := by
  induction operations with
  | nil => simp [validatePatchPlanForWorkspace]
  | cons operation rest ih =>
      rw [List.map_cons, List.forall_mem_cons, ← ih, validatePatchPlanForWorkspace]
      cases (filePatchOf evidence operation).check P workspace tree with
      | error message => simp
      | ok u => simp

theorem fitting_sizes {operations : List RepositoryPatchOperation}
    (h : FittingEdits P workspace evidence tree operations) :
    ∀ operation ∈ operations, evidence.appends operation = false →
      (operation.content.getD "").utf8ByteSize ≤ workspace.maxFileBytes := by
  induction operations generalizing tree with
  | nil => exact fun _ hmem => by cases hmem
  | cons first rest ih =>
      obtain ⟨⟨decision, hfits⟩, hrest⟩ := h
      intro operation hmem happends
      rcases List.mem_cons.mp hmem with rfl | hmem
      · have hsize := hfits.size
        unfold plainText at hsize
        rw [happends] at hsize
        exact hsize
      · exact ih hrest operation hmem happends

theorem filePatchOf_refined (hrefined : operation.refined = true) :
    (filePatchOf evidence operation).refined = true := by
  unfold RepositoryPatchOperation.refined at hrefined
  simp only [Bool.and_eq_true] at hrefined
  obtain ⟨⟨⟨⟨⟨-, hpath⟩, hexpected⟩, -⟩, -⟩, hrationale⟩ := hrefined
  have hhex : (truthy operation.expectedSha256).all isSha256Hex = true := by
    unfold truthy
    cases hsha : operation.expectedSha256 with
    | none => rfl
    | some expected =>
        rw [hsha] at hexpected
        by_cases hempty : expected = ""
        · simp [hempty]
        · simpa [Option.filter, hempty] using hexpected
  have hbodies : (filePatchOf evidence operation).bodies = 1 := by
    unfold FilePatch.bodies filePatchOf
    by_cases happends : evidence.appends operation = true
    · simp [happends]
    · simp [happends]
  unfold FilePatch.refined
  rw [hbodies, if_neg filePatchOf_not_delete]
  simp only [filePatchOf, hpath, hhex, hrationale, Bool.and_self, beq_self_eq_true]

theorem legacyPatchPlan_refined (hrefined : plan.refined P.isDatetime = true) :
    (legacyPatchPlan digests plan evidence).refined = true := by
  unfold RepositoryPatchPlan.refined at hrefined
  simp only [Bool.and_eq_true] at hrefined
  obtain ⟨⟨⟨⟨⟨⟨⟨⟨⟨⟨⟨⟨⟨⟨hid, -⟩, -⟩, hsummary⟩, -⟩, -⟩, -⟩, hoperations⟩, hsome⟩, -⟩, -⟩, -⟩, -⟩, -⟩,
    -⟩ := hrefined
  have hfiles : (plan.operations.map (filePatchOf evidence)).all (·.refined) = true := by
    rw [List.all_map, List.all_eq_true]
    intro operation hmem
    exact filePatchOf_refined (List.all_eq_true.mp hoperations operation hmem)
  have hnonempty : (plan.operations.map (filePatchOf evidence)).isEmpty = false := by
    rw [List.isEmpty_map]
    simpa using hsome
  unfold FilePatchPlan.refined legacyPatchPlan
  simp only [hid, hsummary, hfiles, hnonempty, Bool.not_false, Bool.and_self, Bool.true_and]
  exact nonempty_append (by decide)

variable (digests) in
/-- What the capability reports, and the tree it leaves. -/
theorem executeApplyPatch_iff (haccepted : Accepted P workspace tree plan none clock) :
    (∃ result, (executeApplyPatch P workspace tree (legacyPatchPlan digests plan evidence)).1 =
        .ok result) ↔
      FittingEdits P workspace evidence tree plan.operations ∧
        Applicable P workspace tree (plan.operations.map (plain evidence)) := by
  obtain ⟨hrefined, -, hoperations⟩ := accepted_spec haccepted
  unfold executeApplyPatch
  rw [if_pos (legacyPatchPlan_refined hrefined)]
  unfold applyRepositoryPatch
  rw [show (legacyPatchPlan digests plan evidence).files =
    plan.operations.map (filePatchOf evidence) from rfl, ← applyFilePatches_iff]
  constructor
  · rintro ⟨result, h⟩
    cases hvalidate : validatePatchPlanForWorkspace P workspace tree
        (plan.operations.map (filePatchOf evidence)) with
    | error message =>
        rw [hvalidate] at h
        cases h
    | ok u =>
        rw [hvalidate] at h
        dsimp only at h
        cases hfiles : applyFilePatches P workspace tree (plan.operations.map (filePatchOf evidence)) with
        | mk outcome tree' =>
            rw [hfiles] at h
            cases outcome with
            | error message => cases h
            | ok files => exact ⟨files, rfl⟩
  · rintro ⟨files, hfiles⟩
    have hvalidate : validatePatchPlanForWorkspace P workspace tree
        (plan.operations.map (filePatchOf evidence)) = .ok () := by
      refine validatePatchPlanForWorkspace_iff.mpr fun operation hmem => ?_
      obtain ⟨decision, hpassed⟩ := hoperations operation hmem
      exact check_iff.mpr ⟨⟨decision, hpassed.writable⟩,
        fitting_sizes (applyFilePatches_iff.mp ⟨files, hfiles⟩).1 operation hmem⟩
    rw [hvalidate]
    cases hwritten : applyFilePatches P workspace tree (plan.operations.map (filePatchOf evidence)) with
    | mk outcome tree' =>
        rw [hwritten] at hfiles
        dsimp only at hfiles
        subst hfiles
        exact ⟨appliedResult files, rfl⟩

theorem executeApplyPatch_tree {result : AppliedPatchResult}
    (haccepted : Accepted P workspace tree plan none clock)
    (h : (executeApplyPatch P workspace tree (legacyPatchPlan digests plan evidence)).1 = .ok result) :
    (executeApplyPatch P workspace tree (legacyPatchPlan digests plan evidence)).2 =
      plainTree P workspace evidence tree plan.operations := by
  obtain ⟨hfitting, happlicable⟩ := (executeApplyPatch_iff _ haccepted).mp ⟨result, h⟩
  rw [← applyFilePatches_tree hfitting happlicable]
  unfold executeApplyPatch at h ⊢
  rw [if_pos (legacyPatchPlan_refined (accepted_spec haccepted).1)] at h ⊢
  unfold applyRepositoryPatch at h ⊢
  cases hvalidate : validatePatchPlanForWorkspace P workspace tree
      (legacyPatchPlan digests plan evidence).files with
  | error message =>
      rw [hvalidate] at h
      cases h
  | ok u =>
      dsimp only
      rw [show (legacyPatchPlan digests plan evidence).files =
        plan.operations.map (filePatchOf evidence) from rfl]
      cases applyFilePatches P workspace tree (plan.operations.map (filePatchOf evidence)) with
      | mk outcome tree' =>
          cases outcome with
          | error message => rfl
          | ok files => rfl

/-! ### The handler -/

theorem validation_ok {validation : RepositoryPatchValidationResult} {policy : Option PatchPolicy}
    (h : validateRepositoryPatchPlan P workspace tree plan policy clock = .ok validation) :
    validation.ok = validation.valid := by
  unfold validateRepositoryPatchPlan at h
  split at h
  · cases h
  · split at h
    · cases h
    · cases hfound : operationsViolations P workspace tree plan policy clock plan.operations with
      | error e =>
          rw [hfound] at h
          cases h
      | ok found =>
          rw [hfound] at h
          cases h
          rfl

variable (tree evidence digests git) in
theorem handlerArtifact_refined (paths : List String) (hrefined : plan.refined P.isDatetime = true)
    (hnow : P.isDatetime now = true) :
    (handlerArtifact digests plan evidence (getRepositoryDiff git tree paths) now).refined
      P.isDatetime = true := by
  have hids : nonempty plan.patchPlanId = true ∧ nonempty plan.planId = true ∧
      nonempty plan.nodeId = true := by
    unfold RepositoryPatchPlan.refined at hrefined
    simp only [Bool.and_eq_true] at hrefined
    exact ⟨by tauto, by tauto, by tauto⟩
  have hfiles : (getRepositoryDiff git tree paths).changedFiles.all nonempty = true := by
    rw [List.all_eq_true]
    intro file hfile
    have hne := (List.mem_filter.mp hfile).2
    exact decide_eq_true (of_decide_eq_true hne)
  unfold RepositoryPatchArtifact.refined handlerArtifact
  simp only [hids, hfiles, hnow, evidence.hashes_hex, nonempty_append, ne_eq, Bool.true_and,
    String.reduceEq, not_false_eq_true, List.all_nil]

variable (evidence digests git) in
/-- An accepted plan is translated and applied, and whatever the capability reports, the node is
completed. -/
theorem patch_accepted {acceptanceRefs : List String}
    (haccepted : Accepted P workspace tree plan none clock) (hnow : P.isDatetime now = true)
    (hrefs : acceptanceRefs ≠ []) :
    ∃ artifact, artifact.applyStatus = .applied ∧
      WorkOrderHandlers.patch P workspace git digests tree (some evidence) acceptanceRefs plan now
          clock =
        ⟨.ok ⟨.completed, some [patchArtifactRef artifact], none⟩,
          [.patchPlan plan, .patchArtifact artifact],
          some (executeApplyPatch P workspace tree (legacyPatchPlan digests plan evidence)).1,
          (executeApplyPatch P workspace tree (legacyPatchPlan digests plan evidence)).2⟩ := by
  obtain ⟨hrefined, -, -⟩ := accepted_spec haccepted
  obtain ⟨validation, hvalidate, hvalid⟩ := haccepted
  have hok : validation.ok = true := (validation_ok hvalidate).trans hvalid
  have hartifact := handlerArtifact_refined
    (executeApplyPatch P workspace tree (legacyPatchPlan digests plan evidence)).2 evidence digests git
    plan.expectedChangedFiles hrefined hnow
  refine ⟨handlerArtifact digests plan evidence (getRepositoryDiff git
    (executeApplyPatch P workspace tree (legacyPatchPlan digests plan evidence)).2
    plan.expectedChangedFiles) now, rfl, ?_⟩
  unfold WorkOrderHandlers.patch
  dsimp only
  rw [if_neg (by simpa using hrefs), hvalidate]
  dsimp only
  rw [hok, if_neg (by simp)]
  unfold applyTranslated legacyPatchPlanFromRepositoryPlan
  rw [if_pos (legacyPatchPlan_refined hrefined)]
  dsimp only
  unfold RepositoryPatchArtifact.parse
  rw [if_pos hartifact]

/-- The node is completed, or there is an artifact that says the patch was applied. -/
def WorkOrderHandlers.HandlerRun.ClaimsApplied (run : HandlerRun B) : Prop :=
  (∃ artifacts errors, run.result = .ok ⟨.completed, artifacts, errors⟩) ∨
    ∃ artifact, HandlerArtifact.patchArtifact artifact ∈ run.artifacts ∧
      artifact.applyStatus = .applied

/-- The files are as the operations of the plan leave them, one after another, and the node says
that the patch was applied only where the capability does. -/
structure MeaningKept (P : FilePlatform B) (workspace : RepositoryWorkspace) (tree : FileTree B)
    (plan : RepositoryPatchPlan) (run : HandlerRun B) : Prop where
  reported : run.ClaimsApplied → ∃ result, run.report = some (.ok result)
  failed : (¬ ∃ result, run.report = some (.ok result)) →
    ∃ artifacts errors, run.result = .ok ⟨.failed, artifacts, errors⟩
  contents : (∃ result, run.report = some (.ok result)) →
    ∃ hashes after, applyOperations P workspace ⟨[], []⟩ tree plan.operations = (.ok hashes, after) ∧
      ∀ path, run.tree.fileAt path = after.fileAt path

/-- The operations of the plan can be applied, their plain ones too and within what the pack asks
for, and both give every file the same content. -/
structure Translatable (P : FilePlatform B) (workspace : RepositoryWorkspace) (tree : FileTree B)
    (evidence : WorkOrderHandlers.EvidenceBundle) (plan : RepositoryPatchPlan) : Prop where
  applicable : Applicable P workspace tree plan.operations
  plainly : Applicable P workspace tree (plan.operations.map (plain evidence))
  fitting : FittingEdits P workspace evidence tree plan.operations
  same : ∀ path, (plainTree P workspace evidence tree plan.operations).fileAt path =
    (applyOperations P workspace ⟨[], []⟩ tree plan.operations).2.fileAt path

/-- The operation is what it is translated to: a whole text, or one appended to a file that was
read. -/
def IsPlain (evidence : WorkOrderHandlers.EvidenceBundle) (operation : RepositoryPatchOperation) :
    Prop :=
  operation.kind = .createFile ∨ operation.kind = .fullReplacement ∨
    operation.kind = .insertAfter ∧ truthy operation.anchor = none ∧ evidence.read operation = true

theorem applyPatchOperation_of_plain (hplain : IsPlain evidence operation) (before : Option String) :
    applyPatchOperation operation before = .ok (plainText evidence operation before) := by
  unfold applyPatchOperation plainText WorkOrderHandlers.EvidenceBundle.appends
  rcases hplain with hkind | hkind | ⟨hkind, hanchor, hread⟩
  · simp [hkind]
  · simp [hkind]
  · simp only [hkind, hread, and_self, decide_true, if_true, insertByAnchor, hanchor, Except.map]
    rw [String.ofList_append, String.ofList_toList, String.ofList_toList]

variable (P workspace tree) in
theorem applyOperation_of_plain (hplain : IsPlain evidence operation) :
    applyOperation P workspace tree (plain evidence operation) =
      applyOperation P workspace tree operation := by
  unfold applyOperation
  rw [show (plain evidence operation).relativePath = operation.relativePath from rfl]
  cases resolveRepositoryPath P.cwd workspace operation.relativePath with
  | error reason => rfl
  | ok decision =>
      dsimp only
      cases readCurrentContent P tree decision.absolutePath with
      | error e => rfl
      | ok before =>
          dsimp only
          rw [applyPatchOperation_plain, applyPatchOperation_of_plain hplain]

/-- **A plan of plain operations keeps its meaning**, as far as the pack accepts it. -/
theorem translatable_of_plain (hplain : ∀ operation ∈ plan.operations, IsPlain evidence operation)
    (happlicable : Applicable P workspace tree plan.operations)
    (hfitting : FittingEdits P workspace evidence tree plan.operations) :
    Translatable P workspace tree evidence plan := by
  have hall : ∀ (operations : List RepositoryPatchOperation) (tree : FileTree B) (hashes : PatchHashes),
      (∀ operation ∈ operations, IsPlain evidence operation) →
      Applicable P workspace tree operations →
      Applicable P workspace tree (operations.map (plain evidence)) ∧
        (applyOperations P workspace hashes tree operations).2 =
          plainTree P workspace evidence tree operations := by
    intro operations
    induction operations with
    | nil => exact fun _ _ _ _ => ⟨trivial, rfl⟩
    | cons operation rest ih =>
        intro tree hashes hoperations happlies
        obtain ⟨hfirst, hrest⟩ := happlies
        have hstep := applyOperation_of_plain P workspace tree
          (hoperations operation List.mem_cons_self)
        obtain ⟨texts, hok⟩ := applyOperation_iff.mpr hfirst
        obtain ⟨hplainly, htree⟩ := ih (applyOperation P workspace tree operation).2
          (hashes.record P operation.relativePath texts)
          (fun other hmem => hoperations other (List.mem_cons_of_mem _ hmem)) hrest
        refine ⟨⟨applyOperation_iff.mp ⟨texts, by rw [hstep, hok]⟩, by rw [hstep]; exact hplainly⟩, ?_⟩
        unfold plainTree at htree ⊢
        rw [List.foldl_cons, hstep, ← htree, applyOperations]
        cases hoperation : applyOperation P workspace tree operation with
        | mk outcome tree' =>
            rw [hoperation] at hok
            dsimp only at hok
            subst hok
            rfl
  obtain ⟨hplainly, htree⟩ := hall plan.operations tree ⟨[], []⟩ hplain happlicable
  exact ⟨happlicable, hplainly, hfitting, fun path => by rw [htree]⟩

/-! ### A patch that loses its place -/

/-- The one file of the repository was read. -/
def patchEvidence : WorkOrderHandlers.EvidenceBundle := ⟨["b.txt"], [], rfl⟩

def patchDigests : PlanDigests := ⟨fun _ => "plan", fun _ _ => "plan and diff"⟩

def patchOutput : GitOutput String := ⟨fun _ _ => "", fun _ _ => "", fun _ _ => ""⟩

/-- A line is inserted between the two lines of the file. -/
def insertingPlan : RepositoryPatchPlan :=
  samplePatchPlan
    [{ patchOperation .insertAfter "b.txt" "half\n" with
      anchor := some "one\n"
      expectedSha256 := some "c3f9c8c283a2b1f2f1896f27a01cbe3cddc0c9d93f752e4639035a0f5b36f6e8" }]
    ["b.txt"]

/-- What the handler makes of a plan in the repository with one file. -/
def handledPlan (plan : RepositoryPatchPlan) : HandlerRun String :=
  WorkOrderHandlers.patch patchPlatform patchWorkspace patchOutput patchDigests patchTree
    (some patchEvidence) ["accepted"] plan "2026-01-01T00:00:00Z" "2026-01-01T00:00:00Z"

end OpenLagrange
