/-
What guards the files that a patch plan overwrites.

One operation writes at one place; elsewhere it makes directories where nothing stood.  So a
file changes only where an operation stands, and a file appears only where one was applied.
What an operation has to expect of the file there is checked before the first operation runs,
and only if the file exists then.  The preconditions of a plan are not looked at.
-/
import OpenLagrange.Proofs.PatchAtomicity

namespace OpenLagrange

open FileTree

variable {B : Type} {P : FilePlatform B} {workspace : RepositoryWorkspace} {tree tree' : FileTree B}
  {git : GitWorktree B} {plan : RepositoryPatchPlan} {policy : Option PatchPolicy}
  {now clock : String} {operation : RepositoryPatchOperation}
  {operations : List RepositoryPatchOperation} {hashes : PatchHashes} {place : TreePath}

/-! ### One operation -/

/-- What an operation leaves: the directories it made, and the file if it went through. -/
inductive OperationStep (P : FilePlatform B) (workspace : RepositoryWorkspace) (tree : FileTree B)
    (operation : RepositoryPatchOperation) :
    Except String (Option String × String) × FileTree B → Prop where
  | stopped (message : String) (tree' : FileTree B) (hgrown : Grown tree tree') :
      OperationStep P workspace tree operation (.error message, tree')
  | written (decision : ResolvedPath) (before : Option String) (next : String) (made : FileTree B)
      (hresolved : resolveRepositoryPath P.cwd workspace operation.relativePath = .ok decision)
      (hread : readCurrentContent P tree decision.absolutePath = .ok before)
      (hnext : applyPatchOperation operation before = .ok next) (hgrown : Grown tree made) :
      OperationStep P workspace tree operation
        (.ok (before, next), made.set (tree.place decision.absolutePath) (.file (P.encode next)))

theorem applyOperation_step : OperationStep P workspace tree operation
    (applyOperation P workspace tree operation) := by
  unfold applyOperation
  cases hresolve : resolveRepositoryPath P.cwd workspace operation.relativePath with
  | error reason => exact .stopped _ _ .refl
  | ok decision =>
      dsimp only
      cases hread : readCurrentContent P tree decision.absolutePath with
      | error e => exact .stopped _ _ .refl
      | ok before =>
          dsimp only
          cases hnext : applyPatchOperation operation before with
          | error message => exact .stopped _ _ .refl
          | ok next =>
              dsimp only
              cases hmade : tree.makeDirectories [] decision.absolutePath.dropLast with
              | error e => exact .stopped _ _ .refl
              | ok made =>
                  have hgrown := makeDirectories_grown hmade
                  dsimp only
                  cases hwritten : made.writeFile decision.absolutePath (P.encode next) with
                  | error e => exact .stopped _ _ hgrown
                  | ok written =>
                      rw [writeFile_eq hwritten, place_of_links hgrown.links]
                      exact .written decision before next made hresolve hread hnext hgrown

/-- The tree after one operation. -/
def stepTree (P : FilePlatform B) (workspace : RepositoryWorkspace) (tree : FileTree B)
    (operation : RepositoryPatchOperation) : FileTree B :=
  (applyOperation P workspace tree operation).2

/-- The operation writes at the place. -/
def standsAt (P : FilePlatform B) (workspace : RepositoryWorkspace) (tree : FileTree B)
    (place : TreePath) (operation : RepositoryPatchOperation) : Bool :=
  match resolveRepositoryPath P.cwd workspace operation.relativePath with
  | .ok decision => tree.place decision.absolutePath = place
  | .error _ => false

theorem standsAt_of_resolved {decision : ResolvedPath}
    (hresolved : resolveRepositoryPath P.cwd workspace operation.relativePath = .ok decision) :
    standsAt P workspace tree place operation = true ↔
      tree.place decision.absolutePath = place := by
  unfold standsAt
  rw [hresolved]
  exact decide_eq_true_iff

theorem stepTree_links : (stepTree P workspace tree operation).links = tree.links := by
  have hstep := @applyOperation_step B P workspace tree operation
  unfold stepTree
  generalize applyOperation P workspace tree operation = result at hstep ⊢
  cases hstep with
  | stopped message tree' hgrown => exact hgrown.links
  | written decision before next made hresolved hread hnext hgrown => exact hgrown.links

/-- What stands somewhere is never taken away. -/
theorem stepTree_keeps {entry : TreeEntry B} (h : tree.entries place = some entry) :
    ∃ entry', (stepTree P workspace tree operation).entries place = some entry' := by
  have hstep := @applyOperation_step B P workspace tree operation
  unfold stepTree
  generalize applyOperation P workspace tree operation = result at hstep ⊢
  cases hstep with
  | stopped message tree' hgrown => exact ⟨entry, hgrown.keeps h⟩
  | written decision before next made hresolved hread hnext hgrown =>
      by_cases hplace : place = tree.place decision.absolutePath
      · exact ⟨_, by rw [hplace]; exact set_self ..⟩
      · exact ⟨entry, (set_other _ hplace).trans (hgrown.keeps h)⟩

/-- A file changes, and a file appears, only where the operation stands. -/
theorem stepTree_elsewhere (h : standsAt P workspace tree place operation = false) {content : B} :
    (stepTree P workspace tree operation).entries place = some (.file content) ↔
      tree.entries place = some (.file content) := by
  have hstep := @applyOperation_step B P workspace tree operation
  unfold stepTree
  generalize applyOperation P workspace tree operation = result at hstep ⊢
  cases hstep with
  | stopped message tree' hgrown => exact ⟨hgrown.file, hgrown.keeps⟩
  | written decision before next made hresolved hread hnext hgrown =>
      have hplace : place ≠ tree.place decision.absolutePath := by
        intro heq
        rw [(standsAt_of_resolved hresolved).mpr heq.symm] at h
        cases h
      show (made.set _ _).entries place = _ ↔ _
      rw [set_other _ hplace]
      exact ⟨hgrown.file, hgrown.keeps⟩

/-- An operation that goes through leaves its text where it stands. -/
theorem stepTree_written {texts : Option String × String}
    (hok : (applyOperation P workspace tree operation).1 = .ok texts)
    (h : standsAt P workspace tree place operation = true) :
    applyPatchOperation operation texts.1 = .ok texts.2 ∧
      (stepTree P workspace tree operation).entries place = some (.file (P.encode texts.2)) := by
  have hstep := @applyOperation_step B P workspace tree operation
  unfold stepTree
  generalize applyOperation P workspace tree operation = result at hstep hok ⊢
  cases hstep with
  | stopped message tree' hgrown => cases hok
  | written decision before next made hresolved hread hnext hgrown =>
      cases hok
      refine ⟨hnext, ?_⟩
      rw [← (standsAt_of_resolved hresolved).mp h]
      exact set_self ..

/-- An operation that does not go through only makes directories. -/
theorem stepTree_error {message : String}
    (herror : (applyOperation P workspace tree operation).1 = .error message) :
    Grown tree (stepTree P workspace tree operation) := by
  have hstep := @applyOperation_step B P workspace tree operation
  unfold stepTree
  generalize applyOperation P workspace tree operation = result at hstep herror ⊢
  cases hstep with
  | stopped message tree' hgrown => exact hgrown
  | written decision before next made hresolved hread hnext hgrown => cases herror

/-- Where an operation that goes through stands there is no directory. -/
theorem not_directory_of_ok {texts : Option String × String}
    (hok : (applyOperation P workspace tree operation).1 = .ok texts) :
    ∃ decision, resolveRepositoryPath P.cwd workspace operation.relativePath = .ok decision ∧
      tree.entries (tree.place decision.absolutePath) ≠ some .directory := by
  obtain ⟨decision, hresolved, hdirectory, -⟩ := applyOperation_iff.mp ⟨texts, hok⟩
  exact ⟨decision, hresolved, hdirectory⟩

theorem standsAt_links (h : tree'.links = tree.links) :
    standsAt P workspace tree' place operation = standsAt P workspace tree place operation := by
  unfold standsAt
  simp only [place_of_links h]

/-! ### The operations that are applied -/

/-- The operations up to the first that does not go through. -/
def applied (P : FilePlatform B) (workspace : RepositoryWorkspace) :
    FileTree B → List RepositoryPatchOperation → List RepositoryPatchOperation
  | _, [] => []
  | tree, operation :: rest =>
      match applyOperation P workspace tree operation with
      | (.ok _, tree') => operation :: applied P workspace tree' rest
      | (.error _, _) => []

/-- The tree after some operations. -/
def treeAfter (P : FilePlatform B) (workspace : RepositoryWorkspace) (tree : FileTree B)
    (operations : List RepositoryPatchOperation) : FileTree B :=
  operations.foldl (stepTree P workspace) tree

theorem treeAfter_links : (treeAfter P workspace tree operations).links = tree.links := by
  induction operations generalizing tree with
  | nil => rfl
  | cons operation rest ih => exact (@ih (stepTree P workspace tree operation)).trans stepTree_links

theorem applied_cons_ok {rest : List RepositoryPatchOperation} {texts : Option String × String}
    (hok : (applyOperation P workspace tree operation).1 = .ok texts) :
    applied P workspace tree (operation :: rest) =
      operation :: applied P workspace (stepTree P workspace tree operation) rest := by
  unfold stepTree
  rw [applied]
  cases h : applyOperation P workspace tree operation with
  | mk outcome tree' =>
      rw [h] at hok
      cases hok
      rfl

theorem applyOperations_cons_ok {rest : List RepositoryPatchOperation}
    {texts : Option String × String} (hok : (applyOperation P workspace tree operation).1 = .ok texts) :
    applyOperations P workspace hashes tree (operation :: rest) =
      applyOperations P workspace (hashes.record P operation.relativePath texts)
        (stepTree P workspace tree operation) rest := by
  unfold stepTree
  rw [applyOperations]
  cases h : applyOperation P workspace tree operation with
  | mk outcome tree' =>
      rw [h] at hok
      cases hok
      rfl

theorem applyOperations_cons_error {rest : List RepositoryPatchOperation} {message : String}
    (herror : (applyOperation P workspace tree operation).1 = .error message) :
    applyOperations P workspace hashes tree (operation :: rest) =
      (.error message, stepTree P workspace tree operation) := by
  unfold stepTree
  rw [applyOperations]
  cases h : applyOperation P workspace tree operation with
  | mk outcome tree' =>
      rw [h] at herror
      cases herror
      rfl

theorem applied_cons_error {rest : List RepositoryPatchOperation} {message : String}
    (herror : (applyOperation P workspace tree operation).1 = .error message) :
    applied P workspace tree (operation :: rest) = [] := by
  rw [applied]
  cases h : applyOperation P workspace tree operation with
  | mk outcome tree' =>
      rw [h] at herror
      cases herror
      rfl

/-- An applied operation went through on the tree that the ones before it left. -/
theorem applied_ok {before after : List RepositoryPatchOperation}
    (h : applied P workspace tree operations = before ++ operation :: after) :
    ∃ texts, (applyOperation P workspace (treeAfter P workspace tree before) operation).1 = .ok texts := by
  induction operations generalizing tree before with
  | nil =>
      rw [applied] at h
      cases before <;> cases h
  | cons first rest ih =>
      cases hfirst : (applyOperation P workspace tree first).1 with
      | error message =>
          rw [applied_cons_error hfirst] at h
          cases before <;> cases h
      | ok texts =>
          rw [applied_cons_ok hfirst] at h
          cases before with
          | nil =>
              cases h
              exact ⟨texts, hfirst⟩
          | cons head before =>
              obtain ⟨rfl, hrest⟩ := List.cons_eq_cons.mp h
              have hlater := ih hrest
              exact hlater

theorem applied_sublist : ∃ rest, operations = applied P workspace tree operations ++ rest := by
  induction operations generalizing tree with
  | nil => exact ⟨[], by rw [applied]; rfl⟩
  | cons first rest ih =>
      cases hfirst : (applyOperation P workspace tree first).1 with
      | error message => exact ⟨first :: rest, by rw [applied_cons_error hfirst]; rfl⟩
      | ok texts =>
          obtain ⟨more, hmore⟩ := @ih (stepTree P workspace tree first)
          refine ⟨more, ?_⟩
          rw [applied_cons_ok hfirst, List.cons_append, ← hmore]

theorem treeAfter_keeps {entry : TreeEntry B} (h : tree.entries place = some entry) :
    ∃ entry', (treeAfter P workspace tree operations).entries place = some entry' := by
  induction operations generalizing tree entry with
  | nil => exact ⟨entry, h⟩
  | cons first rest ih =>
      obtain ⟨entry', h'⟩ := @stepTree_keeps B P workspace tree first place entry h
      exact ih h'

/-- A file that was not there was written by an operation that stands there. -/
theorem treeAfter_file {content : B}
    (h : (treeAfter P workspace tree operations).entries place = some (.file content)) :
    (∃ old, tree.entries place = some (.file old)) ∨
      ∃ operation ∈ operations, standsAt P workspace tree place operation = true := by
  induction operations generalizing tree with
  | nil => exact Or.inl ⟨content, h⟩
  | cons first rest ih =>
      cases hstands : standsAt P workspace tree place first with
      | true => exact Or.inr ⟨first, List.mem_cons_self, hstands⟩
      | false =>
        rcases @ih (stepTree P workspace tree first) h with ⟨old, hold⟩ | ⟨operation, hmem, hlater⟩
        · exact Or.inl ⟨old, (stepTree_elsewhere hstands).mp hold⟩
        · exact Or.inr ⟨operation, List.mem_cons_of_mem _ hmem,
            (standsAt_links stepTree_links).symm.trans hlater⟩

/-- Where an applied operation stands there is something afterwards. -/
theorem treeAfter_standing {before after : List RepositoryPatchOperation}
    (h : applied P workspace tree operations = before ++ operation :: after)
    {earlier : RepositoryPatchOperation} (hmem : earlier ∈ before)
    (hstands : standsAt P workspace tree place earlier = true) :
    ∃ entry, (treeAfter P workspace tree before).entries place = some entry := by
  induction operations generalizing tree before with
  | nil =>
      rw [applied] at h
      cases before <;> cases h
  | cons first rest ih =>
      cases hfirst : (applyOperation P workspace tree first).1 with
      | error message =>
          rw [applied_cons_error hfirst] at h
          cases before <;> cases h
      | ok texts =>
          rw [applied_cons_ok hfirst] at h
          cases before with
          | nil => cases hmem
          | cons head before =>
              obtain ⟨rfl, hrest⟩ := List.cons_eq_cons.mp h
              rcases List.mem_cons.mp hmem with rfl | hmem
              · have hthere := (stepTree_written hfirst hstands).2
                exact @treeAfter_keeps B P workspace _ before place _ hthere
              · have hlater := ih hrest hmem ((standsAt_links stepTree_links).trans hstands)
                exact hlater

/-- **An applied operation finds a file exactly where one was, or where an earlier operation of the
plan stands.** -/
theorem found_iff {before after : List RepositoryPatchOperation}
    (h : applied P workspace tree operations = before ++ operation :: after)
    {decision : ResolvedPath}
    (hresolved : resolveRepositoryPath P.cwd workspace operation.relativePath = .ok decision) :
    (treeAfter P workspace tree before).existsAt decision.absolutePath = true ↔
      tree.existsAt decision.absolutePath = true ∨ ∃ earlier ∈ before,
        standsAt P workspace tree (tree.place decision.absolutePath) earlier = true := by
  obtain ⟨texts, hok⟩ := applied_ok h
  obtain ⟨decision', hresolved', hdirectory⟩ := not_directory_of_ok hok
  rw [hresolved] at hresolved'
  cases hresolved'
  rw [place_of_links treeAfter_links] at hdirectory
  unfold FileTree.existsAt
  rw [place_of_links treeAfter_links]
  constructor
  · intro hfound
    obtain ⟨entry, hentry⟩ := Option.isSome_iff_exists.mp hfound
    cases entry with
    | directory => exact absurd hentry hdirectory
    | file content =>
        rcases treeAfter_file hentry with ⟨old, hold⟩ | hearlier
        · exact Or.inl (by rw [hold]; rfl)
        · exact Or.inr hearlier
  · rintro (hthere | ⟨earlier, hmem, hstands⟩)
    · obtain ⟨entry, hentry⟩ := Option.isSome_iff_exists.mp hthere
      obtain ⟨entry', hentry'⟩ := @treeAfter_keeps B P workspace tree before _ entry hentry
      rw [hentry']
      rfl
    · obtain ⟨entry, hentry⟩ := treeAfter_standing h hmem hstands
      rw [hentry]
      rfl

/-! ### Files that only create operations stand on -/

/-- The content of the last of some operations that stand at a place. -/
def lastContent (P : FilePlatform B) (workspace : RepositoryWorkspace) (tree : FileTree B)
    (place : TreePath) : List RepositoryPatchOperation → Option String
  | [] => none
  | operation :: rest =>
      (lastContent P workspace tree place rest).or
        (if standsAt P workspace tree place operation then some (operation.content.getD "") else none)

theorem lastContent_links (h : tree'.links = tree.links) :
    lastContent P workspace tree' place operations = lastContent P workspace tree place operations := by
  induction operations with
  | nil => rfl
  | cons operation rest ih =>
      unfold lastContent
      rw [ih]
      simp only [standsAt_links h]

/-- A file on which only create operations stand ends up with the last content. -/
theorem created_content {bytes : B} (h : tree.entries place = some (.file bytes))
    (hcreate : ∀ operation ∈ operations, standsAt P workspace tree place operation = true →
      operation.kind = .createFile) :
    (applyOperations P workspace hashes tree operations).2.entries place =
      some (.file ((lastContent P workspace tree place (applied P workspace tree operations)).elim bytes
        P.encode)) := by
  induction operations generalizing tree bytes hashes with
  | nil =>
      rw [applied]
      exact h
  | cons first rest ih =>
      cases hfirst : (applyOperation P workspace tree first).1 with
      | error message =>
          rw [applied_cons_error hfirst, applyOperations_cons_error hfirst]
          exact (stepTree_error hfirst).keeps h
      | ok texts =>
          rw [applied_cons_ok hfirst, applyOperations_cons_ok hfirst]
          have hrest : ∀ operation ∈ rest,
              standsAt P workspace (stepTree P workspace tree first) place operation = true →
                operation.kind = .createFile := by
            intro operation hmem hstands
            rw [standsAt_links stepTree_links] at hstands
            exact hcreate operation (List.mem_cons_of_mem _ hmem) hstands
          unfold lastContent
          rw [← lastContent_links (@stepTree_links B P workspace tree first)]
          cases hstands : standsAt P workspace tree place first with
          | true =>
              have hkind := hcreate first List.mem_cons_self hstands
              obtain ⟨hnext, hwritten⟩ := stepTree_written hfirst hstands
              unfold applyPatchOperation at hnext
              rw [hkind] at hnext
              rw [← Except.ok.inj hnext] at hwritten
              rw [ih hwritten hrest]
              cases lastContent P workspace (stepTree P workspace tree first) place
                (applied P workspace (stepTree P workspace tree first) rest) <;> rfl
          | false =>
              rw [ih ((stepTree_elsewhere hstands).mpr h) hrest]
              cases lastContent P workspace (stepTree P workspace tree first) place
                (applied P workspace (stepTree P workspace tree first) rest) <;> rfl

/-! ### What a plan changes -/

/-- A precondition is true of the files of a workspace. -/
def PatchPrecondition.Holds (P : FilePlatform B) (workspace : RepositoryWorkspace) (tree : FileTree B)
    (precondition : PatchPrecondition) : Prop :=
  ∀ path, precondition.path = some path →
    let absolutePath := resolvePath (workspace.root P.cwd) path
    match precondition.kind with
    | .fileHash => ∀ expected, precondition.expectedSha256 = some expected →
        ∃ bytes, tree.fileAt absolutePath = some bytes ∧ P.sha256 bytes = expected
    | .fileExists => tree.existsAt absolutePath = true
    | .fileAbsent => tree.existsAt absolutePath = false
    | .textPresent => ∀ text, precondition.text = some text →
        ∃ bytes, tree.fileAt absolutePath = some bytes ∧ text.toList <:+: (P.decode bytes).toList

/-- Files change under a hash that was expected of them, a hash is expected of files that exist, and
the preconditions are true when the first operation is applied. -/
structure GuardedPatch (P : FilePlatform B) (workspace : RepositoryWorkspace) (git : GitWorktree B)
    (tree : FileTree B) (plan : RepositoryPatchPlan) (policy : Option PatchPolicy)
    (now clock : String) : Prop where
  expected : ∀ place bytes, tree.entries place = some (.file bytes) →
    (applyRepositoryPatchPlan P workspace git tree plan policy now clock).2.entries place ≠
        some (.file bytes) →
      ∃ operation ∈ plan.operations, standsAt P workspace tree place operation = true ∧
        operation.expectedSha256 = some (P.sha256 bytes)
  present : ∀ before operation after decision,
    applied P workspace tree plan.operations = before ++ operation :: after →
    operation.expectedSha256 ≠ none →
    resolveRepositoryPath P.cwd workspace operation.relativePath = .ok decision →
      (treeAfter P workspace tree before).existsAt decision.absolutePath = true
  preconditions : applied P workspace tree plan.operations ≠ [] →
    ∀ precondition ∈ plan.preconditions, precondition.Holds P workspace tree

/-- What the check leaves to the plan. -/
structure HarmlessPatch (P : FilePlatform B) (workspace : RepositoryWorkspace) (tree : FileTree B)
    (plan : RepositoryPatchPlan) : Prop where
  /-- Create operations without a hash leave an existing file with the content it has. -/
  recreated : ∀ place bytes content, tree.entries place = some (.file bytes) →
    (∀ operation ∈ plan.operations, standsAt P workspace tree place operation = true →
      operation.expectedSha256 = none) →
    lastContent P workspace tree place (applied P workspace tree plan.operations) = some content →
      P.encode content = bytes
  /-- A hash is expected of a file of the workspace, or of one that the plan wrote before. -/
  known : ∀ before operation after decision,
    applied P workspace tree plan.operations = before ++ operation :: after →
    operation.expectedSha256 ≠ none →
    resolveRepositoryPath P.cwd workspace operation.relativePath = .ok decision →
      tree.existsAt decision.absolutePath = true ∨ ∃ earlier ∈ before,
        standsAt P workspace tree (tree.place decision.absolutePath) earlier = true
  /-- The preconditions happen to be true, or not even the first operation applies. -/
  met : ∀ first rest, plan.operations = first :: rest → Applies P workspace tree first →
    ∀ precondition ∈ plan.preconditions, precondition.Holds P workspace tree

/-- An operation of an accepted plan that stands on a file expects its hash, or creates it. -/
theorem accepted_guard (h : Accepted P workspace tree plan policy clock)
    (hmem : operation ∈ plan.operations) {bytes : B} (hfile : tree.entries place = some (.file bytes))
    (hstands : standsAt P workspace tree place operation = true) :
    operation.expectedSha256 = some (P.sha256 bytes) ∨
      (operation.expectedSha256 = none ∧ operation.kind = .createFile) := by
  obtain ⟨decision, haccepted⟩ := (accepted_spec h).2.2 operation hmem
  have hplace := (standsAt_of_resolved haccepted.resolved).mp hstands
  have hexists : tree.existsAt decision.absolutePath = true := by
    unfold FileTree.existsAt
    rw [hplace, hfile]
    rfl
  have hguard := haccepted.guarded hexists
  cases hhash : operation.expectedSha256 with
  | none =>
      rw [hhash] at hguard
      exact Or.inr ⟨rfl, hguard⟩
  | some expected =>
      rw [hhash] at hguard
      obtain ⟨content, hread, hequal⟩ := hguard
      unfold FileTree.readFile at hread
      rw [hplace, hfile] at hread
      cases hread
      exact Or.inl (by rw [hequal])

theorem apply_accepted_tree (h : Accepted P workspace tree plan policy clock) :
    (applyRepositoryPatchPlan P workspace git tree plan policy now clock).2 =
      (applyOperations P workspace ⟨[], []⟩ tree plan.operations).2 := by
  rw [apply_accepted h]
  cases hrun : applyOperations P workspace ⟨[], []⟩ tree plan.operations with
  | mk outcome tree' => cases outcome <;> rfl

/-- The file that unguarded operations of an accepted plan leave. -/
theorem unguarded_content (git : GitWorktree B) (now : String)
    (h : Accepted P workspace tree plan policy clock) {bytes : B}
    (hfile : tree.entries place = some (.file bytes))
    (hnone : ∀ operation ∈ plan.operations, standsAt P workspace tree place operation = true →
      operation.expectedSha256 = none) :
    (applyRepositoryPatchPlan P workspace git tree plan policy now clock).2.entries place =
      some (.file ((lastContent P workspace tree place
        (applied P workspace tree plan.operations)).elim bytes P.encode)) := by
  rw [apply_accepted_tree h]
  refine created_content hfile ?_
  intro operation hmem hstands
  rcases accepted_guard h hmem hfile hstands with hhash | ⟨-, hkind⟩
  · rw [hnone operation hmem hstands] at hhash
    cases hhash
  · exact hkind

theorem expected_iff (h : Accepted P workspace tree plan policy clock) {bytes : B}
    (hfile : tree.entries place = some (.file bytes)) :
    ((applyRepositoryPatchPlan P workspace git tree plan policy now clock).2.entries place ≠
        some (.file bytes) →
      ∃ operation ∈ plan.operations, standsAt P workspace tree place operation = true ∧
        operation.expectedSha256 = some (P.sha256 bytes)) ↔
    ∀ content, (∀ operation ∈ plan.operations, standsAt P workspace tree place operation = true →
        operation.expectedSha256 = none) →
      lastContent P workspace tree place (applied P workspace tree plan.operations) = some content →
        P.encode content = bytes := by
  constructor
  · intro hexpected content hnone hlast
    have hleft := unguarded_content git now h hfile hnone
    rw [hlast] at hleft
    by_contra hne
    obtain ⟨operation, hmem, hstands, hhash⟩ := hexpected (by
      rw [hleft]
      intro heq
      exact hne (by simpa using heq))
    rw [hnone operation hmem hstands] at hhash
    cases hhash
  · intro hcontent hchanged
    by_contra hno
    have hnone : ∀ operation ∈ plan.operations, standsAt P workspace tree place operation = true →
        operation.expectedSha256 = none := by
      intro operation hmem hstands
      rcases accepted_guard h hmem hfile hstands with hhash | ⟨hnone, -⟩
      · exact absurd ⟨operation, hmem, hstands, hhash⟩ hno
      · exact hnone
    have hleft := unguarded_content git now h hfile hnone
    rw [hleft] at hchanged
    cases hlast : lastContent P workspace tree place (applied P workspace tree plan.operations) with
    | none =>
        rw [hlast] at hchanged
        exact hchanged rfl
    | some content =>
        rw [hlast] at hchanged
        exact hchanged (congrArg (fun c => some (TreeEntry.file c)) (hcontent content hnone hlast))

theorem applied_nonempty_iff :
    applied P workspace tree operations ≠ [] ↔
      ∃ first rest, operations = first :: rest ∧ Applies P workspace tree first := by
  cases operations with
  | nil => simp [applied]
  | cons first rest =>
      cases hfirst : (applyOperation P workspace tree first).1 with
      | error message =>
          rw [applied_cons_error hfirst]
          simp only [ne_eq, not_true, false_iff]
          rintro ⟨first', rest', heq, happlies⟩
          cases heq
          obtain ⟨texts, hok⟩ := applyOperation_iff.mpr happlies
          rw [hfirst] at hok
          cases hok
      | ok texts =>
          rw [applied_cons_ok hfirst]
          simp only [ne_eq, reduceCtorEq, not_false_eq_true, true_iff]
          exact ⟨first, rest, rfl, applyOperation_iff.mp ⟨texts, hfirst⟩⟩

/-- **What an accepted plan overwrites is guarded exactly when the plan is harmless.** -/
theorem guarded_iff :
    (Accepted P workspace tree plan policy clock →
      GuardedPatch P workspace git tree plan policy now clock) ↔
    (Accepted P workspace tree plan policy clock → HarmlessPatch P workspace tree plan) := by
  refine forall_congr' fun haccepted => ?_
  constructor
  · rintro ⟨hexpected, hpresent, hmet⟩
    refine ⟨?_, ?_, ?_⟩
    · intro place bytes content hfile
      exact (expected_iff haccepted hfile).mp (hexpected place bytes hfile) content
    · intro before operation after decision hsplit hhash hresolved
      exact (found_iff hsplit hresolved).mp
        (hpresent before operation after decision hsplit hhash hresolved)
    · intro first rest heq happlies
      exact hmet (applied_nonempty_iff.mpr ⟨first, rest, heq, happlies⟩)
  · rintro ⟨hrecreated, hknown, hmet⟩
    refine ⟨?_, ?_, ?_⟩
    · intro place bytes hfile
      exact (expected_iff haccepted hfile).mpr fun content =>
        hrecreated place bytes content hfile
    · intro before operation after decision hsplit hhash hresolved
      exact (found_iff hsplit hresolved).mpr
        (hknown before operation after decision hsplit hhash hresolved)
    · intro hne
      obtain ⟨first, rest, heq, happlies⟩ := applied_nonempty_iff.mp hne
      exact hmet first rest heq happlies

/-! ### A file that is created over another -/

/-- A file that exists is created, with no hash expected of it. -/
def overwritingPlan : RepositoryPatchPlan :=
  samplePatchPlan [patchOperation .createFile "b.txt" "new"] ["b.txt"]

/-- The plan is accepted, and the file is overwritten. -/
theorem overwritingPlan_not_guarded :
    ¬ ∀ (B : Type) (P : FilePlatform B) (workspace : RepositoryWorkspace) (git : GitWorktree B)
      (tree : FileTree B) (plan : RepositoryPatchPlan) (policy : Option PatchPolicy)
      (now clock : String), Accepted P workspace tree plan policy clock →
      GuardedPatch P workspace git tree plan policy now clock := by
  intro hall
  have hguarded := hall String patchPlatform patchWorkspace patchGit patchTree overwritingPlan none
    "2026-01-01T00:00:00Z" "2026-01-01T00:00:00Z" (accepts_iff.mp (by decide +kernel))
  obtain ⟨operation, hmem, -, hhash⟩ :=
    hguarded.expected ["app", "b.txt"] "one\ntwo\n" rfl (by decide +kernel)
  rw [List.mem_singleton.mp hmem] at hhash
  cases hhash

/-! ### Where a plan writes -/

/-- The path, as it is below the root, is one the plan may write at. -/
structure Permitted (plan : RepositoryPatchPlan) (policy : Option PatchPolicy) (rel : String) : Prop where
  allowed : ∀ p, policy = some p → rel ∈ p.allowedFiles
  expected : rel ∈ plan.expectedChangedFiles
  notDenied : ∀ p, policy = some p → rel ∉ p.deniedFiles
  notInternal : startsWith rel ".open-lagrange/" = false ∧ rel ≠ ".open-lagrange"
  lockfile : isLockfile rel = true → plan.namesLockfile = true

/-- Every file that is written is one the plan may write at, outside of Git's own directory. -/
def ConfinedPatch (P : FilePlatform B) (workspace : RepositoryWorkspace) (tree : FileTree B)
    (plan : RepositoryPatchPlan) (policy : Option PatchPolicy) : Prop :=
  ∀ operation ∈ applied P workspace tree plan.operations, ∀ decision,
    resolveRepositoryPath P.cwd workspace operation.relativePath = .ok decision →
      Permitted plan policy decision.relativePath ∧
        decision.relativePath ≠ ".git" ∧ startsWith decision.relativePath ".git/" = false

/-- A path that is spelled in another way than it resolves, resolves to one that is permitted. -/
def PermittedAliases (P : FilePlatform B) (workspace : RepositoryWorkspace) (tree : FileTree B)
    (plan : RepositoryPatchPlan) (policy : Option PatchPolicy) : Prop :=
  ∀ operation ∈ applied P workspace tree plan.operations, ∀ decision,
    resolveRepositoryPath P.cwd workspace operation.relativePath = .ok decision →
      decision.relativePath ≠ operation.relativePath → Permitted plan policy decision.relativePath

theorem resolved_not_git {cwd : TreePath} {path : String} {decision : ResolvedPath}
    (h : resolveRepositoryPath cwd workspace path = .ok decision) :
    decision.relativePath ≠ ".git" ∧ startsWith decision.relativePath ".git/" = false := by
  unfold resolveRepositoryPath at h
  dsimp only at h
  split at h
  · cases h
  · split at h
    · cases h
    · rename_i hgit
      rw [not_or, Bool.not_eq_true] at hgit
      split at h
      · cases h
      · split at h
        · cases h
        · split at h
          · cases h
          · cases h
            exact hgit

/-- A path that is spelled as it resolves has passed the checks of the plan. -/
theorem accepted_permitted (h : Accepted P workspace tree plan policy clock)
    (hmem : operation ∈ plan.operations) : Permitted plan policy operation.relativePath := by
  obtain ⟨decision, haccepted⟩ := (accepted_spec h).2.2 operation hmem
  exact ⟨haccepted.allowed, haccepted.expected, haccepted.notDenied, haccepted.notInternal,
    haccepted.lockfile⟩

/-- A file of the control plane is created under another spelling of its path. -/
def aliasingPlan : RepositoryPatchPlan :=
  samplePatchPlan [patchOperation .createFile "./.open-lagrange/policy.json" "new"]
    ["./.open-lagrange/policy.json"]

def aliasingPolicy : PatchPolicy := ⟨["./.open-lagrange/policy.json"], [], true, 32000, false, []⟩

end OpenLagrange
