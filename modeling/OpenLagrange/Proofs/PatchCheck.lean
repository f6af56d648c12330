/-
What the check of a patch plan says about a plan it accepts.

A plan is accepted when no violation was found, and every violation has one place it comes from.
So acceptance is a conjunction over the operations, each part of it about the tree as it was
before the first operation.
-/
import OpenLagrange.Repository.PatchApplier

namespace OpenLagrange

variable {B : Type} {P : FilePlatform B} {workspace : RepositoryWorkspace} {tree : FileTree B}
  {plan : RepositoryPatchPlan} {policy : Option PatchPolicy} {now : String}
  {operation : RepositoryPatchOperation} {decision : ResolvedPath}

/-- The check accepts the plan. -/
def Accepted (P : FilePlatform B) (workspace : RepositoryWorkspace) (tree : FileTree B)
    (plan : RepositoryPatchPlan) (policy : Option PatchPolicy) (now : String) : Prop :=
  ∃ validation, validateRepositoryPatchPlan P workspace tree plan policy now = .ok validation ∧
    validation.valid = true

/-- Acceptance, as a test. -/
def accepts (P : FilePlatform B) (workspace : RepositoryWorkspace) (tree : FileTree B)
    (plan : RepositoryPatchPlan) (policy : Option PatchPolicy) (now : String) : Bool :=
  match validateRepositoryPatchPlan P workspace tree plan policy now with
  | .ok validation => validation.valid
  | .error _ => false

theorem accepts_iff :
    accepts P workspace tree plan policy now = true ↔ Accepted P workspace tree plan policy now := by
  unfold accepts Accepted
  cases validateRepositoryPatchPlan P workspace tree plan policy now with
  | error message => simp
  | ok validation => simp

/-- What an operation of an accepted plan has passed. -/
structure AcceptedOperation (P : FilePlatform B) (workspace : RepositoryWorkspace) (tree : FileTree B)
    (plan : RepositoryPatchPlan) (policy : Option PatchPolicy) (operation : RepositoryPatchOperation)
    (decision : ResolvedPath) : Prop where
  resolved : resolveRepositoryPath P.cwd workspace operation.relativePath = .ok decision
  writable : assertWritableRepositoryPath P.cwd workspace tree operation.relativePath = .ok decision
  expected : operation.relativePath ∈ plan.expectedChangedFiles
  allowed : ∀ p, policy = some p → operation.relativePath ∈ p.allowedFiles
  notDenied : ∀ p, policy = some p → operation.relativePath ∉ p.deniedFiles
  notInternal : startsWith operation.relativePath ".open-lagrange/" = false ∧
    operation.relativePath ≠ ".open-lagrange"
  /-- A file that exists is guarded by its hash, or it is to be created. -/
  guarded : tree.existsAt decision.absolutePath = true →
    match operation.expectedSha256 with
    | none => operation.kind = .createFile
    | some expected => ∃ bytes, tree.readFile decision.absolutePath = .ok bytes ∧
        P.sha256 bytes = expected
  lockfile : isLockfile operation.relativePath = true → plan.namesLockfile = true

/-! ### Violations that were not found -/

theorem ite_nil_iff {α : Type} {c : Prop} [Decidable c] {v : α} :
    (if c then [v] else []) = [] ↔ ¬ c := by
  by_cases hc : c
  · simp [hc]
  · simp [hc]

theorem any_policy_false {test : PatchPolicy → Bool} :
    policy.any test = false ↔ ∀ p, policy = some p → test p = false := by
  cases policy with
  | none => simp
  | some p => simp

theorem targetViolations_nil (h : targetViolations plan policy now operation = []) :
    operation.relativePath ∈ plan.expectedChangedFiles ∧
      (∀ p, policy = some p → operation.relativePath ∈ p.allowedFiles) ∧
      (∀ p, policy = some p → operation.relativePath ∉ p.deniedFiles) ∧
      startsWith operation.relativePath ".open-lagrange/" = false ∧
        operation.relativePath ≠ ".open-lagrange" := by
  unfold targetViolations at h
  simp only [List.append_eq_nil_iff, ite_nil_iff, not_not, not_or, Bool.not_eq_true,
    any_policy_false] at h
  obtain ⟨⟨⟨hexpected, hallowed⟩, hdenied⟩, hinternal⟩ := h
  refine ⟨hexpected, ?_, ?_, hinternal⟩
  · intro p hp
    exact not_not.mp (of_decide_eq_false (hallowed p hp))
  · intro p hp
    exact of_decide_eq_false (hdenied p hp)

theorem contentViolations_nil {path : TreePath}
    (h : contentViolations P tree now operation path = .ok [])
    (hexists : tree.existsAt path = true) :
    match operation.expectedSha256 with
    | none => operation.kind = .createFile
    | some expected => ∃ bytes, tree.readFile path = .ok bytes ∧ P.sha256 bytes = expected := by
  unfold contentViolations at h
  rw [hexists] at h
  cases hhash : operation.expectedSha256 with
  | none =>
      rw [hhash] at h
      simp only [Bool.not_true, Bool.false_eq_true, if_false, Except.ok.injEq, ite_nil_iff,
        not_not] at h
      exact h
  | some expected =>
      rw [hhash] at h
      cases hread : tree.readFile path with
      | error e =>
          rw [hread] at h
          cases h
      | ok bytes =>
          rw [hread] at h
          simp only [Bool.not_true, Bool.false_eq_true, if_false, Except.ok.injEq, ite_nil_iff,
            not_not] at h
          exact ⟨bytes, rfl, h⟩

theorem lockfileViolations_nil (h : lockfileViolations plan now operation = [])
    (hlock : isLockfile operation.relativePath = true) : plan.namesLockfile = true := by
  unfold lockfileViolations at h
  rw [ite_nil_iff, hlock] at h
  simpa using h

/-- An operation without violations. -/
theorem operationViolations_nil
    (h : operationViolations P workspace tree plan policy now operation = .ok []) :
    ∃ decision, AcceptedOperation P workspace tree plan policy operation decision := by
  unfold operationViolations at h
  cases hresolve : resolveRepositoryPath P.cwd workspace operation.relativePath with
  | error reason =>
      rw [hresolve] at h
      cases h
  | ok decision =>
      rw [hresolve] at h
      cases hcontent : contentViolations P tree now operation decision.absolutePath with
      | error e =>
          simp only [hcontent] at h
          cases h
      | ok content =>
          cases hanchors : anchorViolations P tree policy now operation decision.absolutePath with
          | error e =>
              simp only [hcontent, hanchors] at h
              cases h
          | ok anchors =>
              simp only [hcontent, hanchors, Except.ok.injEq, List.append_eq_nil_iff] at h
              obtain ⟨⟨⟨⟨⟨hwritable, htarget⟩, rfl⟩, -⟩, -⟩, hlock⟩ := h
              obtain ⟨hexpected, hallowed, hdenied, hinternal⟩ := targetViolations_nil htarget
              have hok : assertWritableRepositoryPath P.cwd workspace tree operation.relativePath =
                  .ok decision := by
                unfold writableViolations at hwritable
                unfold assertWritableRepositoryPath at hwritable ⊢
                simp only [hresolve] at hwritable ⊢
                cases hreal : assertRealRepositoryTarget P.cwd workspace tree
                    decision.absolutePath with
                | error message =>
                    simp only [hreal] at hwritable
                    cases hwritable
                | ok u => rfl
              exact ⟨decision, hresolve, hok, hexpected, hallowed, hdenied, hinternal,
                contentViolations_nil hcontent, lockfileViolations_nil hlock⟩

theorem operationsViolations_nil {operations : List RepositoryPatchOperation}
    (h : operationsViolations P workspace tree plan policy now operations = .ok []) :
    ∀ operation ∈ operations,
      ∃ decision, AcceptedOperation P workspace tree plan policy operation decision := by
  induction operations with
  | nil =>
      intro operation hmem
      cases hmem
  | cons first rest ih =>
      unfold operationsViolations at h
      cases hfirst : operationViolations P workspace tree plan policy now first with
      | error e =>
          rw [hfirst] at h
          cases h
      | ok violations =>
          rw [hfirst] at h
          cases hrest : operationsViolations P workspace tree plan policy now rest with
          | error e =>
              simp only [hrest] at h
              cases h
          | ok others =>
              simp only [hrest, Except.ok.injEq, List.append_eq_nil_iff] at h
              obtain ⟨rfl, rfl⟩ := h
              intro operation hmem
              rcases List.mem_cons.mp hmem with rfl | hmem
              · exact operationViolations_nil hfirst
              · exact ih hrest operation hmem

/-! ### Acceptance -/

/-- **What acceptance says.**  The plan has the shape of its schema, and each of its operations has
passed every part of the check. -/
theorem accepted_spec (h : Accepted P workspace tree plan policy now) :
    plan.refined P.isDatetime = true ∧
      (∃ validation, validateRepositoryPatchPlan P workspace tree plan policy now = .ok validation ∧
        validation.normalizedPatchPlan = some plan) ∧
      ∀ operation ∈ plan.operations,
        ∃ decision, AcceptedOperation P workspace tree plan policy operation decision := by
  obtain ⟨validation, hvalidate, hvalid⟩ := h
  have hresult := hvalidate
  unfold validateRepositoryPatchPlan at hvalidate
  split at hvalidate
  · cases hvalidate
  · rename_i hrefined
    split at hvalidate
    · cases hvalidate
    · cases hfound : operationsViolations P workspace tree plan policy now plan.operations with
      | error e =>
          simp only [hfound] at hvalidate
          cases hvalidate
      | ok found =>
          simp only [hfound, Except.ok.injEq] at hvalidate
          subst hvalidate
          have hempty : planViolations plan policy now ++ found = [] := List.isEmpty_iff.mp hvalid
          have hnone := (List.append_eq_nil_iff.mp hempty).2
          subst hnone
          refine ⟨by simpa using hrefined, ⟨_, hresult, ?_⟩, operationsViolations_nil hfound⟩
          show (if (planViolations plan policy now ++ []).isEmpty then some plan else none) = _
          rw [hempty]
          rfl

/-- A plan that is not accepted is applied to nothing. -/
theorem apply_not_accepted {git : GitWorktree B} {clock : String}
    (h : ¬ Accepted P workspace tree plan policy clock) :
    (applyRepositoryPatchPlan P workspace git tree plan policy now clock).2 = tree := by
  unfold applyRepositoryPatchPlan
  cases hvalidate : validateRepositoryPatchPlan P workspace tree plan policy clock with
  | error message => rfl
  | ok validation =>
      cases hplan : validation.normalizedPatchPlan with
      | none => simp only [hplan]
      | some normalized =>
          exfalso
          refine h ⟨validation, hvalidate, ?_⟩
          unfold validateRepositoryPatchPlan at hvalidate
          split at hvalidate
          · cases hvalidate
          · split at hvalidate
            · cases hvalidate
            · cases hfound : operationsViolations P workspace tree plan policy clock
                  plan.operations with
              | error e =>
                  simp only [hfound] at hvalidate
                  cases hvalidate
              | ok found =>
                  simp only [hfound, Except.ok.injEq] at hvalidate
                  subst hvalidate
                  show (planViolations plan policy clock ++ found).isEmpty = true
                  by_contra hne
                  simp only [hne] at hplan
                  cases hplan

/-- An accepted plan is applied operation by operation. -/
theorem apply_accepted {git : GitWorktree B} {clock : String}
    (h : Accepted P workspace tree plan policy clock) :
    applyRepositoryPatchPlan P workspace git tree plan policy now clock =
      match applyOperations P workspace ⟨[], []⟩ tree plan.operations with
      | (.error message, tree') => (.error message, tree')
      | (.ok hashes, tree') => (finishPatch P git plan hashes tree' now, tree') := by
  obtain ⟨-, ⟨validation, hvalidate, hplan⟩, -⟩ := accepted_spec h
  unfold applyRepositoryPatchPlan
  simp only [hvalidate, hplan] <;> rfl

end OpenLagrange
