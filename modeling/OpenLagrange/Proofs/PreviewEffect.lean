/-
What a preview of a patch is worth.

An entry of a patch either goes through, and then changes the one file it names, or it throws and
changes none.  A patch that stops at an entry has therefore changed what the entries before it
changed, and a patch that goes through leaves at each file what the last entry for it wrote, from
what that entry found there.  The preview shows for each entry what it would write from the start;
so it tells the truth where these are the same.
-/
import OpenLagrange.Proofs.PatchAtomicity
import OpenLagrange.Repository.PatchPreview

namespace OpenLagrange

open FileTree (Sound SameFiles)

variable {B : Type} {F : FilePlatform B} {workspace : RepositoryWorkspace} {tree : FileTree B}
  {file : FilePatch}

/-! ### One entry -/

/-- What an entry makes of what its file holds. -/
def FilePatch.effect (F : FilePlatform B) (file : FilePatch) (before : Option B) : Option B :=
  if file.operation = .delete then none else some (F.encode (file.next F before))

/-- What the preview shows that an entry makes of a file with the given text. -/
def FilePatch.shown (F : FilePlatform B) (file : FilePatch) (before : String) : Option B :=
  if file.operation = .delete then none else some (F.encode (file.after before))

/-- A file is what the entry expects it to be. -/
def FilePatch.Expects (F : FilePlatform B) (file : FilePatch) (before : Option B) : Prop :=
  file.operation ≠ .create → (truthy file.expectedSha256).isSome = true →
    before.map F.sha256 = file.expectedSha256

/-- There is something to delete, or the new content is not too large and has room. -/
def FilePatch.HasRoom (F : FilePlatform B) (workspace : RepositoryWorkspace) (tree : FileTree B)
    (file : FilePatch) (path : TreePath) : Prop :=
  if file.operation = .delete then
    tree.isSymbolicLink path = true ∨ (tree.fileAt path).isSome = true
  else
    (file.next F (tree.fileAt path)).utf8ByteSize ≤ workspace.maxFileBytes ∧
      ∃ made, tree.makeDirectories [] path.dropLast = .ok made ∧ CanStand made path

/-- An entry can be applied to the tree. -/
def FilePatch.FitsAt (F : FilePlatform B) (workspace : RepositoryWorkspace) (tree : FileTree B)
    (file : FilePatch) : Prop :=
  ∃ path, assertWritableRepositoryPath F.cwd workspace tree file.relativePath = .ok path ∧
    tree.entries (tree.place path.absolutePath) ≠ some .directory ∧
    file.Expects F (tree.fileAt path.absolutePath) ∧ file.HasRoom F workspace tree path.absolutePath

theorem writable_parts {path : String} {decision : ResolvedPath}
    (h : assertWritableRepositoryPath F.cwd workspace tree path = .ok decision) :
    resolveRepositoryPath F.cwd workspace path = .ok decision ∧
      assertRealRepositoryTarget F.cwd workspace tree decision.absolutePath = .ok () := by
  unfold assertWritableRepositoryPath at h
  cases hresolve : resolveRepositoryPath F.cwd workspace path with
  | error reason =>
      rw [hresolve] at h
      cases h
  | ok resolved =>
      rw [hresolve] at h
      dsimp only at h
      cases hreal : assertRealRepositoryTarget F.cwd workspace tree resolved.absolutePath with
      | error reason =>
          rw [hreal] at h
          cases h
      | ok _ =>
          rw [hreal] at h
          cases h
          exact ⟨rfl, hreal⟩

/-- A link that may be written leads nowhere. -/
theorem dangling_of_writable {path : TreePath}
    (h : assertRealRepositoryTarget F.cwd workspace tree path = .ok ())
    (hlink : tree.isSymbolicLink path = true) : tree.entries (tree.place path) = none := by
  unfold assertRealRepositoryTarget at h
  split at h
  · cases h
  · dsimp only at h
    by_cases hexists : tree.existsAt path = true
    · rw [if_pos hexists] at h
      cases h
    · unfold FileTree.existsAt at hexists
      exact Option.not_isSome_iff_eq_none.mp hexists

theorem readBefore_cases (tree : FileTree B) (path : TreePath) :
    (tree.entries (tree.place path) = some .directory ∧ ∃ e, readBefore tree path = .error e) ∨
      (tree.entries (tree.place path) ≠ some .directory ∧
        readBefore tree path = .ok (tree.fileAt path)) := by
  unfold readBefore FileTree.existsAt FileTree.readFile FileTree.fileAt
  cases tree.entries (tree.place path) with
  | none => exact Or.inr ⟨(fun h => by cases h), rfl⟩
  | some entry =>
      cases entry with
      | file content => exact Or.inr ⟨(fun h => by cases h), rfl⟩
      | directory => exact Or.inl ⟨rfl, _, rfl⟩

/-- How an entry ends: it throws and changes no file, or it goes through and changes its own. -/
inductive EntryStep (F : FilePlatform B) (workspace : RepositoryWorkspace) (tree : FileTree B)
    (file : FilePatch) : Except String AppliedPatchFile × FileTree B → Prop where
  | refused {message : String} {tree' : FileTree B} (hunfit : ¬ file.FitsAt F workspace tree)
      (hsame : SameFiles tree tree') (hsound : Sound tree') :
      EntryStep F workspace tree file (.error message, tree')
  | done {applied : AppliedPatchFile} {tree' : FileTree B} (path : ResolvedPath)
      (hfits : file.FitsAt F workspace tree)
      (hpath : resolveRepositoryPath F.cwd workspace file.relativePath = .ok path)
      (hsound : Sound tree')
      (heffect : ∀ other, tree'.fileAt other =
        if tree.place other = tree.place path.absolutePath then
          file.effect F (tree.fileAt path.absolutePath)
        else tree.fileAt other) :
      EntryStep F workspace tree file (.ok applied, tree')

theorem sameFiles_refl : SameFiles tree tree := fun _ => rfl

/-- The path of the entry can be taken for the one it fits at. -/
theorem FilePatch.FitsAt.at_path {path : ResolvedPath} (hfits : file.FitsAt F workspace tree)
    (hpath : assertWritableRepositoryPath F.cwd workspace tree file.relativePath = .ok path) :
    tree.entries (tree.place path.absolutePath) ≠ some .directory ∧
      file.Expects F (tree.fileAt path.absolutePath) ∧
      file.HasRoom F workspace tree path.absolutePath := by
  obtain ⟨path', hpath', hfits⟩ := hfits
  rw [hpath] at hpath'
  cases hpath'
  exact hfits

/-- An entry that deletes its file, once it is let through. -/
theorem unlink_step {path : ResolvedPath} (hsound : Sound tree)
    (hpath : assertWritableRepositoryPath F.cwd workspace tree file.relativePath = .ok path)
    (hfile : tree.entries (tree.place path.absolutePath) ≠ some .directory)
    (hexpects : file.Expects F (tree.fileAt path.absolutePath)) (hdelete : file.operation = .delete)
    (applied : AppliedPatchFile) :
    EntryStep F workspace tree file
      (match tree.unlink path.absolutePath with
        | .error e => (.error e.message, tree)
        | .ok left => (.ok applied, left)) := by
  obtain ⟨hresolved, hreal⟩ := writable_parts hpath
  have hroom : file.HasRoom F workspace tree path.absolutePath ↔
      ∃ left, tree.unlink path.absolutePath = .ok left := by
    unfold FilePatch.HasRoom
    rw [if_pos hdelete, FileTree.unlink_ok_iff]
  cases hleft : tree.unlink path.absolutePath with
  | error e =>
      refine .refused (fun hfits => ?_) sameFiles_refl hsound
      obtain ⟨left, hleft'⟩ := hroom.mp (hfits.at_path hpath).2.2
      rw [hleft] at hleft'
      cases hleft'
  | ok left =>
      obtain ⟨hsound', hfiles⟩ := hsound.unlink (dangling_of_writable hreal) hleft
      refine .done path ⟨path, hpath, hfile, hexpects, hroom.mpr ⟨left, hleft⟩⟩ hresolved hsound' ?_
      intro other
      rw [hfiles other]
      unfold FilePatch.effect
      rw [if_pos hdelete]

/-- An entry that writes its file, once it is let through. -/
theorem write_step {path : ResolvedPath} (hsound : Sound tree)
    (hpath : assertWritableRepositoryPath F.cwd workspace tree file.relativePath = .ok path)
    (hfile : tree.entries (tree.place path.absolutePath) ≠ some .directory)
    (hexpects : file.Expects F (tree.fileAt path.absolutePath)) (hkept : file.operation ≠ .delete) :
    EntryStep F workspace tree file
      (writeFilePatch F workspace tree file path (tree.fileAt path.absolutePath)) := by
  obtain ⟨hresolved, -⟩ := writable_parts hpath
  have hroom : file.HasRoom F workspace tree path.absolutePath ↔
      (file.next F (tree.fileAt path.absolutePath)).utf8ByteSize ≤ workspace.maxFileBytes ∧
        ∃ made, tree.makeDirectories [] path.absolutePath.dropLast = .ok made ∧
          CanStand made path.absolutePath := by
    unfold FilePatch.HasRoom
    rw [if_neg hkept]
  unfold writeFilePatch
  cases hmake : tree.makeDirectories [] path.absolutePath.dropLast with
  | error e =>
      refine .refused (fun hfits => ?_) sameFiles_refl hsound
      obtain ⟨-, made, hmade, -⟩ := hroom.mp (hfits.at_path hpath).2.2
      rw [hmake] at hmade
      cases hmade
  | ok made =>
      have hgrown := FileTree.makeDirectories_grown hmake
      have hsound' := Sound.makeDirectories hsound hsound.root hmake
      dsimp only
      by_cases hsize : workspace.maxFileBytes <
          (file.next F (tree.fileAt path.absolutePath)).utf8ByteSize
      · rw [if_pos hsize]
        refine .refused (fun hfits => ?_) hgrown.sameFiles hsound'
        have hle := (hroom.mp (hfits.at_path hpath).2.2).1
        omega
      · rw [if_neg hsize]
        cases hwrite : made.writeFile path.absolutePath
            (F.encode (file.next F (tree.fileAt path.absolutePath))) with
        | error e =>
            refine .refused (fun hfits => ?_) hgrown.sameFiles hsound'
            obtain ⟨-, made', hmade, hstands⟩ := hroom.mp (hfits.at_path hpath).2.2
            rw [hmake] at hmade
            cases hmade
            obtain ⟨written, hwritten⟩ := (writeFile_iff
              (F.encode (file.next F (tree.fileAt path.absolutePath)))).mpr hstands
            rw [hwrite] at hwritten
            cases hwritten
        | ok written =>
            have hstands := (writeFile_iff _).mp ⟨written, hwrite⟩
            refine .done path ⟨path, hpath, hfile, hexpects,
              hroom.mpr ⟨Nat.not_lt.mp hsize, made, hmake, hstands⟩⟩ hresolved
              (hsound'.writeFile hwrite) fun other => ?_
            rw [FileTree.writeFile_fileAt hwrite, FileTree.place_of_links hgrown.links,
              FileTree.place_of_links hgrown.links, hgrown.sameFiles other]
            unfold FilePatch.effect
            rw [if_neg hkept]

variable (F workspace file) in
/-- **An entry goes through exactly when it fits, and then it changes its own file only.** -/
theorem applyFilePatch_step (hsound : Sound tree) :
    EntryStep F workspace tree file (applyFilePatch F workspace tree file) := by
  unfold applyFilePatch
  cases hpath : assertWritableRepositoryPath F.cwd workspace tree file.relativePath with
  | error message =>
      refine .refused ?_ sameFiles_refl hsound
      rintro ⟨path, hpath', -⟩
      rw [hpath] at hpath'
      cases hpath'
  | ok path =>
      dsimp only
      rcases readBefore_cases tree path.absolutePath with ⟨hdirectory, e, hread⟩ | ⟨hfile, hread⟩
      · rw [hread]
        exact .refused (fun hfits => (hfits.at_path hpath).1 hdirectory) sameFiles_refl hsound
      · rw [hread]
        dsimp only
        by_cases hexpects : file.Expects F (tree.fileAt path.absolutePath)
        · rw [if_neg fun h => h.2.2 (hexpects h.1 h.2.1)]
          by_cases hdelete : file.operation = .delete
          · rw [if_pos hdelete]
            exact unlink_step hsound hpath hfile hexpects hdelete _
          · rw [if_neg hdelete]
            exact write_step hsound hpath hfile hexpects hdelete
        · rw [if_pos]
          · exact .refused (fun hfits => hexpects (hfits.at_path hpath).2.1) sameFiles_refl hsound
          · unfold FilePatch.Expects at hexpects
            push Not at hexpects
            exact hexpects

/-! ### A whole patch -/

section Runs

variable (F workspace)

/-- The tree after an entry. -/
def entryTree (tree : FileTree B) (file : FilePatch) : FileTree B :=
  (applyFilePatch F workspace tree file).2

/-- The tree after some entries. -/
def entriesTree (tree : FileTree B) (files : List FilePatch) : FileTree B :=
  files.foldl (entryTree F workspace) tree

/-- Each entry fits at the tree that the entries before it leave. -/
def AllFit : FileTree B → List FilePatch → Prop
  | _, [] => True
  | tree, file :: rest => file.FitsAt F workspace tree ∧ AllFit (entryTree F workspace tree file) rest

/-- Whether an entry names the file at a path. -/
def names (tree : FileTree B) (file : FilePatch) (path : TreePath) : Bool :=
  match resolveRepositoryPath F.cwd workspace file.relativePath with
  | .error _ => false
  | .ok decision => tree.place path = tree.place decision.absolutePath

/-- The last entry for the file at a path, and the tree it finds. -/
def lastFor (path : TreePath) : FileTree B → List FilePatch → Option (FileTree B × FilePatch)
  | _, [] => none
  | tree, file :: rest =>
      (lastFor path (entryTree F workspace tree file) rest).or
        (if names F workspace tree file path then some (tree, file) else none)

variable {F workspace}

theorem lastFor_cons {path : TreePath} {rest : List FilePatch} :
    lastFor F workspace path tree (file :: rest) =
      (lastFor F workspace path (entryTree F workspace tree file) rest).or
        (if names F workspace tree file path then some (tree, file) else none) := rfl

/-- What an entry leaves at a path. -/
theorem entryTree_fileAt (hsound : Sound tree) (hfits : file.FitsAt F workspace tree) (path : TreePath) :
    (entryTree F workspace tree file).fileAt path =
      if names F workspace tree file path then file.effect F (tree.fileAt path) else tree.fileAt path := by
  unfold entryTree names
  have hstep := applyFilePatch_step F workspace file hsound
  generalize applyFilePatch F workspace tree file = result at hstep
  cases hstep with
  | refused hunfit _ _ => exact (hunfit hfits).elim
  | done decision _ hresolved _ heffect =>
      rw [heffect path, hresolved]
      dsimp only
      by_cases hplace : tree.place path = tree.place decision.absolutePath
      · rw [if_pos hplace, if_pos (decide_eq_true hplace), FileTree.fileAt_of_place hplace]
      · rw [if_neg hplace, if_neg (by simpa using hplace)]

theorem entryTree_sound (hsound : Sound tree) : Sound (entryTree F workspace tree file) := by
  unfold entryTree
  have hstep := applyFilePatch_step F workspace file hsound
  generalize applyFilePatch F workspace tree file = result at hstep
  cases hstep with
  | refused _ _ hsound' => exact hsound'
  | done _ _ _ hsound' _ => exact hsound'

theorem entriesTree_sound {files : List FilePatch} (hsound : Sound tree) :
    Sound (entriesTree F workspace tree files) := by
  induction files generalizing tree with
  | nil => exact hsound
  | cons file rest ih => exact ih (entryTree_sound hsound)

theorem entriesTree_append (before after : List FilePatch) :
    entriesTree F workspace tree (before ++ after) =
      entriesTree F workspace (entriesTree F workspace tree before) after :=
  List.foldl_append

theorem allFit_append {before after : List FilePatch} : AllFit F workspace tree (before ++ after) ↔
    AllFit F workspace tree before ∧ AllFit F workspace (entriesTree F workspace tree before) after := by
  induction before generalizing tree with
  | nil => exact (true_and _ ▸ Iff.rfl)
  | cons file rest ih =>
      show _ ∧ AllFit F workspace _ (rest ++ after) ↔ (_ ∧ _) ∧ _
      rw [ih, and_assoc]
      rfl

/-- **What a patch leaves at a path is what the last entry for it makes of what it finds.** -/
theorem entriesTree_fileAt {files : List FilePatch} (hsound : Sound tree)
    (hfit : AllFit F workspace tree files) (path : TreePath) :
    (entriesTree F workspace tree files).fileAt path =
      match lastFor F workspace path tree files with
      | some (found, last) => last.effect F (found.fileAt path)
      | none => tree.fileAt path := by
  induction files generalizing tree with
  | nil => rfl
  | cons file rest ih =>
      have hrest := ih (entryTree_sound hsound) hfit.2
      show (entriesTree F workspace (entryTree F workspace tree file) rest).fileAt path = _
      rw [hrest, lastFor_cons]
      cases lastFor F workspace path (entryTree F workspace tree file) rest with
      | some found => rfl
      | none =>
          rw [Option.none_or]
          dsimp only
          rw [entryTree_fileAt hsound hfit.1]
          split <;> rfl

/-- An entry is for its own file. -/
theorem lastFor_isSome {files : List FilePatch} {decision : ResolvedPath} (hfile : file ∈ files)
    (hresolved : resolveRepositoryPath F.cwd workspace file.relativePath = .ok decision) :
    ∃ found last, lastFor F workspace decision.absolutePath tree files = some (found, last) := by
  induction files generalizing tree with
  | nil => cases hfile
  | cons head rest ih =>
      rw [lastFor_cons]
      rcases List.mem_cons.mp hfile with rfl | hfile
      · cases lastFor F workspace decision.absolutePath (entryTree F workspace tree file) rest with
        | some found => exact ⟨_, _, rfl⟩
        | none =>
            have hnames : names F workspace tree file decision.absolutePath = true := by
              unfold names
              rw [hresolved]
              exact decide_eq_true rfl
            rw [Option.none_or, if_pos hnames]
            exact ⟨_, _, rfl⟩
      · obtain ⟨found, last, h⟩ := @ih (entryTree F workspace tree head) hfile
        rw [h]
        exact ⟨found, last, rfl⟩

/-- **A patch goes through when all its entries fit, or stops at the first that does not, with the files
as the entries before it leave them.** -/
theorem applyFilePatches_cases (hsound : Sound tree) (files : List FilePatch) :
    (AllFit F workspace tree files ∧ (∃ applied, (applyFilePatches F workspace tree files).1 = .ok applied) ∧
      (applyFilePatches F workspace tree files).2 = entriesTree F workspace tree files) ∨
    (∃ before entry after message, files = before ++ entry :: after ∧ AllFit F workspace tree before ∧
      ¬ entry.FitsAt F workspace (entriesTree F workspace tree before) ∧
      (applyFilePatches F workspace tree files).1 = .error message ∧
      SameFiles (entriesTree F workspace tree before) (applyFilePatches F workspace tree files).2) := by
  induction files generalizing tree with
  | nil => exact Or.inl ⟨trivial, ⟨[], rfl⟩, rfl⟩
  | cons file rest ih =>
      have hstep := applyFilePatch_step F workspace file hsound
      have htree : entryTree F workspace tree file = (applyFilePatch F workspace tree file).2 := rfl
      unfold applyFilePatches
      cases hresult : applyFilePatch F workspace tree file with
      | mk outcome tree' =>
      rw [hresult] at hstep htree
      cases hstep with
      | refused hunfit hsame _ => exact Or.inr ⟨[], file, rest, _, rfl, trivial, hunfit, rfl, hsame⟩
      | @done applied _ path hfits _ hsound' _ =>
          dsimp only at htree ⊢
          rcases @ih tree' hsound' with ⟨hfit, ⟨others, hothers⟩, hall⟩ |
              ⟨before, entry, after, message, rfl, hfit, hunfit, herror, hsame⟩
          · refine Or.inl ⟨⟨hfits, htree ▸ hfit⟩, ?_, ?_⟩
            · cases hrest : applyFilePatches F workspace tree' rest with
              | mk outcome tree'' =>
              rw [hrest] at hothers
              cases hothers
              exact ⟨_, rfl⟩
            · rw [show entriesTree F workspace tree (file :: rest) =
                entriesTree F workspace tree' rest by rw [← htree]; rfl, ← hall]
              cases applyFilePatches F workspace tree' rest with
              | mk outcome tree'' => cases outcome <;> rfl
          · have hbefore : entriesTree F workspace tree (file :: before) =
                entriesTree F workspace tree' before := by
              rw [← htree]
              rfl
            refine Or.inr ⟨file :: before, entry, after, message, rfl, ⟨hfits, htree ▸ hfit⟩,
              hbefore ▸ hunfit, ?_, ?_⟩
            · cases hrest : applyFilePatches F workspace tree' (before ++ entry :: after) with
              | mk outcome tree'' =>
              rw [hrest] at herror
              cases herror
              rfl
            · rw [hbefore]
              cases hrest : applyFilePatches F workspace tree' (before ++ entry :: after) with
              | mk outcome tree'' =>
              rw [hrest] at hsame
              cases outcome <;> exact hsame

/-- A patch stops at one place. -/
theorem stop_unique {before after before' after' : List FilePatch} {entry entry' : FilePatch}
    (hfit : AllFit F workspace tree before)
    (hunfit : ¬ entry.FitsAt F workspace (entriesTree F workspace tree before))
    (hfit' : AllFit F workspace tree before')
    (hunfit' : ¬ entry'.FitsAt F workspace (entriesTree F workspace tree before'))
    (h : before ++ entry :: after = before' ++ entry' :: after') : before = before' := by
  rcases List.append_eq_append_iff.mp h with ⟨front, rfl, hrest⟩ | ⟨front, rfl, hrest⟩
  · cases front with
    | nil => rw [List.append_nil]
    | cons head front =>
        obtain ⟨rfl, -⟩ := List.cons.inj hrest
        exact (hunfit (allFit_append.mp hfit').2.1).elim
  · cases front with
    | nil => rw [List.append_nil]
    | cons head front =>
        obtain ⟨rfl, -⟩ := List.cons.inj hrest
        exact (hunfit' (allFit_append.mp hfit).2.1).elim

end Runs

/-! ### The preview and the effect -/

section Preview

variable (P : SizedPlatform B) (workspace : RepositoryWorkspace) (tree : FileTree B)
  (plan : FilePatchPlan)

/-- The patch is applied as it was shown: a patch that throws leaves every file as it was, one that goes
through leaves at each file what the preview shows there, and no entry changes a file that is not what
it expects. -/
structure PreviewKept : Prop where
  stopped : ∀ message,
    (applyRepositoryPatch P.toFilePlatform workspace tree plan).1 = .error message →
    SameFiles tree (applyRepositoryPatch P.toFilePlatform workspace tree plan).2
  shown : ∀ result, (applyRepositoryPatch P.toFilePlatform workspace tree plan).1 = .ok result →
    ∀ file ∈ plan.files, ∀ decision before,
      resolveRepositoryPath P.cwd workspace file.relativePath = .ok decision →
      previewBefore P workspace tree file = .ok before →
      (applyRepositoryPatch P.toFilePlatform workspace tree plan).2.fileAt decision.absolutePath =
        file.shown P.toFilePlatform before
  guarded : ∀ before entry after decision, plan.files = before ++ entry :: after →
    resolveRepositoryPath P.cwd workspace entry.relativePath = .ok decision →
    (entriesTree P.toFilePlatform workspace tree (before ++ [entry])).fileAt decision.absolutePath ≠
      (entriesTree P.toFilePlatform workspace tree before).fileAt decision.absolutePath →
    entry.Expects P.toFilePlatform
      ((entriesTree P.toFilePlatform workspace tree before).fileAt decision.absolutePath)

/-- The text of a file; one that is absent counts as empty. -/
def textAt (tree : FileTree B) (path : TreePath) : String := (tree.fileAt path).elim "" P.decode

/-- What the patch must be to be applied as it is shown. -/
structure Foreseen : Prop where
  /-- An entry that does not fit is reached before a file has changed. -/
  stops : ∀ before entry after, plan.files = before ++ entry :: after →
    AllFit P.toFilePlatform workspace tree before →
    ¬ entry.FitsAt P.toFilePlatform workspace (entriesTree P.toFilePlatform workspace tree before) →
    SameFiles tree (entriesTree P.toFilePlatform workspace tree before)
  /-- The last entry for a file makes, of what it finds, what each entry for it makes of the text at the
  start. -/
  shows : AllFit P.toFilePlatform workspace tree plan.files → ∀ file ∈ plan.files,
    ∀ decision found last, resolveRepositoryPath P.cwd workspace file.relativePath = .ok decision →
    lastFor P.toFilePlatform workspace decision.absolutePath tree plan.files = some (found, last) →
    (last.operation = .delete ↔ file.operation = .delete) ∧
      (last.operation ≠ .delete →
        last.next P.toFilePlatform (found.fileAt decision.absolutePath) =
          file.after (textAt P tree decision.absolutePath))

variable {P workspace tree plan}

theorem previewBefore_eq {decision : ResolvedPath} {before : String}
    (hresolved : resolveRepositoryPath P.cwd workspace file.relativePath = .ok decision)
    (h : previewBefore P workspace tree file = .ok before) :
    before = textAt P tree decision.absolutePath := by
  unfold textAt FileTree.fileAt
  unfold previewBefore at h
  rw [hresolved] at h
  dsimp only at h
  unfold FileTree.existsAt at h
  cases hentry : tree.entries (tree.place decision.absolutePath) with
  | none =>
      rw [hentry] at h
      cases h
      rfl
  | some entry =>
      rw [hentry, if_pos Option.isSome_some] at h
      unfold readRepositoryBytes at h
      rw [hresolved] at h
      dsimp only at h
      split at h
      · cases h
      · split at h
        · cases h
        · cases hreal : assertRealRepositoryTarget P.cwd workspace tree decision.absolutePath with
          | error reason =>
              rw [hreal] at h
              cases h
          | ok _ =>
              rw [hreal] at h
              dsimp only at h
              unfold FileTree.readFile at h
              rw [hentry] at h
              cases entry with
              | directory => cases h
              | file content =>
                  dsimp only at h
                  split at h
                  · cases h
                  · cases h
                    rfl

/-- A preview that is made has read each file. -/
theorem previewBefore_ok {files : List FilePatch} {previews : List String}
    (h : previewPatch P workspace tree files = .ok previews) (hfile : file ∈ files) :
    ∃ before, previewBefore P workspace tree file = .ok before := by
  induction files generalizing previews with
  | nil => cases hfile
  | cons head rest ih =>
      unfold previewPatch at h
      cases hbefore : previewBefore P workspace tree head with
      | error message =>
          rw [hbefore] at h
          cases h
      | ok before =>
          rcases List.mem_cons.mp hfile with rfl | hfile
          · exact ⟨before, hbefore⟩
          · rw [hbefore] at h
            cases hrest : previewPatch P workspace tree rest with
            | error message =>
                dsimp only at h
                rw [hrest] at h
                cases h
            | ok others => exact ih hrest hfile

theorem propose_ok {preview : PatchPreview}
    (h : proposeRepositoryPatch P workspace tree plan = .ok preview) :
    validatePatchPlanForWorkspace P.toFilePlatform workspace tree plan.files = .ok () ∧
      ∃ previews, previewPatch P workspace tree plan.files = .ok previews := by
  unfold proposeRepositoryPatch at h
  cases hvalid : validatePatchPlanForWorkspace P.toFilePlatform workspace tree plan.files with
  | error message =>
      rw [hvalid] at h
      cases h
  | ok _ =>
      rw [hvalid] at h
      cases hpreviews : previewPatch P workspace tree plan.files with
      | error message =>
          dsimp only at h
          rw [hpreviews] at h
          cases h
      | ok previews => exact ⟨rfl, previews, rfl⟩

/-- A patch that the checks let through is its entries. -/
theorem applyRepositoryPatch_valid
    (hvalid : validatePatchPlanForWorkspace P.toFilePlatform workspace tree plan.files = .ok ()) :
    applyRepositoryPatch P.toFilePlatform workspace tree plan =
      ((applyFilePatches P.toFilePlatform workspace tree plan.files).1.map appliedResult,
        (applyFilePatches P.toFilePlatform workspace tree plan.files).2) := by
  unfold applyRepositoryPatch
  rw [hvalid]
  dsimp only
  cases applyFilePatches P.toFilePlatform workspace tree plan.files with
  | mk outcome tree' => cases outcome <;> rfl

theorem encode_inj {text text' : String} : P.encode text = P.encode text' ↔ text = text' := by
  refine ⟨fun h => ?_, congrArg P.encode⟩
  have hdecode := congrArg P.decode h
  rwa [P.decode_encode, P.decode_encode] at hdecode

theorem effect_eq_shown {last : FilePatch} {found : Option B} {before : String} :
    last.effect P.toFilePlatform found = file.shown P.toFilePlatform before ↔
      (last.operation = .delete ↔ file.operation = .delete) ∧
        (last.operation ≠ .delete → last.next P.toFilePlatform found = file.after before) := by
  unfold FilePatch.effect FilePatch.shown
  by_cases hlast : last.operation = .delete <;> by_cases hfile : file.operation = .delete
  · simp [hlast, hfile]
  · simp [hlast, hfile]
  · simp [hlast, hfile]
  · rw [if_neg hlast, if_neg hfile, Option.some.injEq, encode_inj]
    simp [hlast, hfile]

/-- An entry that changes its file finds there what it expects. -/
theorem expects_of_changed (hsound : Sound tree) {decision : ResolvedPath}
    (hresolved : resolveRepositoryPath P.cwd workspace file.relativePath = .ok decision)
    (hchanged : (entryTree P.toFilePlatform workspace tree file).fileAt decision.absolutePath ≠
      tree.fileAt decision.absolutePath) :
    file.Expects P.toFilePlatform (tree.fileAt decision.absolutePath) := by
  unfold entryTree at hchanged
  have hstep := applyFilePatch_step P.toFilePlatform workspace file hsound
  generalize applyFilePatch P.toFilePlatform workspace tree file = result at hstep hchanged
  cases hstep with
  | refused _ hsame _ => exact (hchanged (hsame _)).elim
  | done _ hfits _ _ _ =>
      obtain ⟨path, hpath, -, hexpects, -⟩ := hfits
      rw [(writable_parts hpath).1] at hresolved
      cases hresolved
      exact hexpects

end Preview

/-- An entry alone for its file is foreseen but for a body that is neither a text to append nor a new
one: such a body empties the file, and the preview shows it unchanged. -/
theorem next_eq_after_iff {P : SizedPlatform B} {before : Option B}
    (hkept : file.operation ≠ .delete) :
    file.next P.toFilePlatform before = file.after (before.elim "" P.decode) ↔
      file.appendText ≠ none ∨ file.fullReplacement ≠ none ∨ before.elim "" P.decode = "" := by
  unfold FilePatch.next FilePatch.after
  rw [if_neg hkept]
  cases file.appendText with
  | some text => simp
  | none =>
      cases file.fullReplacement with
      | some text => simp
      | none =>
          simp only [Option.getD_none, ne_eq, not_true_eq_false, false_or]
          exact eq_comm

/-! ### A patch that stops, and a body that is lost -/

def sizedPlatform : SizedPlatform String := { patchPlatform with size := String.utf8ByteSize }

def filePatch (operation : FilePatchOperation) (path : String) : FilePatch where
  relativePath := path
  operation
  expectedSha256 := none
  unifiedDiff := none
  fullReplacement := none
  appendText := none
  rationale := "It is needed."

def sampleFilePatchPlan (files : List FilePatch) : FilePatchPlan where
  patchPlanId := "patch_plan"
  goal := "Change the files."
  summary := "The files are changed."
  files
  expectedPreconditions := []
  riskLevel := .write
  requiresApproval := false
  idempotencyKey := "key"

/-- A file is created, and then another one is expected to be what it is not. -/
def stoppingPlan : FilePatchPlan :=
  sampleFilePatchPlan [{ filePatch .create "a.txt" with fullReplacement := some "new" },
    { filePatch .modify "b.txt" with
      appendText := some "three\n"
      expectedSha256 := some "11507a0e2f5e69d5dfa40a62a1bd7b6ee57e6bcd85c67c9b8431b36fff21c437" }]

/-- The body of the entry is an empty diff. -/
def emptyDiffPlan : FilePatchPlan :=
  sampleFilePatchPlan [{ filePatch .modify "b.txt" with unifiedDiff := some "" }]

/-- A line is appended. -/
def appendingPlan : FilePatchPlan :=
  sampleFilePatchPlan [{ filePatch .modify "b.txt" with appendText := some "three\n" }]

theorem patchTree_sound : Sound patchTree where
  root := rfl
  parents := by
    intro at' segment h
    have hentry : patchTree.entries (at' ++ [segment]) ≠ none := by
      rcases h with h | h
      · exact h
      · exact (h rfl).elim
    rcases at' with _ | ⟨first, _ | ⟨second, rest⟩⟩
    · rfl
    · simp only [patchTree] at hentry ⊢
      by_cases hfirst : first = "app"
      · rw [if_pos (Or.inr (by rw [hfirst]))]
      · simp [hfirst] at hentry
    · simp [patchTree] at hentry
  apart := fun _ h => (h rfl).elim
  targets := fun _ _ h => by cases h

theorem isOk_iff {α : Type} {x : Except String α} : x.isOk = true ↔ ∃ a, x = .ok a := by
  cases x with
  | ok a => exact iff_of_true rfl ⟨a, rfl⟩
  | error message => exact iff_of_false (fun h => by cases h) (fun ⟨_, h⟩ => by cases h)

end OpenLagrange
