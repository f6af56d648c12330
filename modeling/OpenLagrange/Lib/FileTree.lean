/-
A file tree with symbolic links.

What stands in the tree stands at a place: a path none of whose directories is a link.
A path is followed to its place one segment at a time, and a link on the way is replaced by
the place it leads to.  Two paths are the same file when they have the same place.

Operations on files fail where the system call does.  A tree is changed by making the
missing directories on the way to a file and by writing the file.
-/
import Mathlib.Logic.Function.Basic
import Mathlib.Data.List.Induction

/-- What stands at a place; the bytes of a file are of any type. -/
inductive TreeEntry (B : Type) where
  | file (content : B)
  | directory
  deriving DecidableEq, Repr

/-- The segments of a path from the root. -/
abbrev TreePath := List String

structure FileTree (B : Type) where
  entries : TreePath → Option (TreeEntry B)
  /-- A link, and the place it leads to. -/
  links : TreePath → Option TreePath

inductive FileError where
  | isDirectory | notFound | notDirectory | exists
  deriving DecidableEq, Repr

/-- What a system call says, without the path. -/
def FileError.message : FileError → String
  | .isDirectory => "EISDIR: illegal operation on a directory"
  | .notFound => "ENOENT: no such file or directory"
  | .notDirectory => "ENOTDIR: not a directory"
  | .exists => "EEXIST: file already exists"

namespace FileTree

variable {B : Type} (tree : FileTree B)

/-- One segment further. -/
def enter (place : TreePath) (segment : String) : TreePath :=
  (tree.links (place ++ [segment])).getD (place ++ [segment])

/-- The place that a path leads to. -/
def place (path : TreePath) : TreePath := path.foldl tree.enter []

def existsAt (path : TreePath) : Bool := (tree.entries (tree.place path)).isSome

/-- The last segment of the path is a link itself. -/
def isSymbolicLink (path : TreePath) : Bool :=
  match path.getLast? with
  | none => false
  | some last => (tree.links (tree.place path.dropLast ++ [last])).isSome

/-- The content of the file a path leads to. -/
def fileAt (path : TreePath) : Option B :=
  match tree.entries (tree.place path) with
  | some (.file content) => some content
  | _ => none

def readFile (path : TreePath) : Except FileError B :=
  match tree.entries (tree.place path) with
  | some (.file content) => .ok content
  | some .directory => .error .isDirectory
  | none => .error .notFound

/-- The tree with one more entry. -/
def set (place : TreePath) (entry : TreeEntry B) : FileTree B :=
  { tree with entries := Function.update tree.entries place (some entry) }

/-- One directory on the way is made where nothing stands; a link that leads nowhere stands in
the way, and so does a file. -/
def makeDirectory (directory : TreePath) (segment : String) : Except FileError (FileTree B) :=
  match tree.entries (tree.enter directory segment) with
  | some .directory => .ok tree
  | some (.file _) => .error .notDirectory
  | none =>
      if (tree.links (directory ++ [segment])).isSome then .error .exists
      else .ok (tree.set (directory ++ [segment]) .directory)

/-- The directories on the way from a place, the missing ones being made. -/
def makeDirectories (tree : FileTree B) (directory : TreePath) : TreePath → Except FileError (FileTree B)
  | [] => .ok tree
  | segment :: rest =>
      match tree.makeDirectory directory segment with
      | .error e => .error e
      | .ok tree' => makeDirectories tree' (tree.enter directory segment) rest

/-- A file is written in a directory that exists. -/
def writeFile (path : TreePath) (content : B) : Except FileError (FileTree B) :=
  match tree.entries (tree.place path) with
  | some .directory => .error .isDirectory
  | some (.file _) => .ok (tree.set (tree.place path) (.file content))
  | none =>
      match tree.entries (tree.place path).dropLast with
      | some .directory => .ok (tree.set (tree.place path) (.file content))
      | _ => .error .notFound

/-- A link is removed itself, and a file where the path leads to it. -/
def unlink (path : TreePath) : Except FileError (FileTree B) :=
  if tree.isSymbolicLink path then
    .ok { tree with
      links := Function.update tree.links (tree.place path.dropLast ++ path.getLast?.toList) none }
  else
    match tree.entries (tree.place path) with
    | some (.file _) => .ok { tree with entries := Function.update tree.entries (tree.place path) none }
    | some .directory => .error .isDirectory
    | none => .error .notFound

/-! ### What the operations change -/

/-- Nothing was written, and directories stand where nothing stood. -/
structure Grown (tree tree' : FileTree B) : Prop where
  links : tree'.links = tree.links
  entries : ∀ at', tree'.entries at' = tree.entries at' ∨
    (tree.entries at' = none ∧ tree'.entries at' = some .directory)

variable {tree} {tree' tree'' : FileTree B}

theorem Grown.refl : Grown tree tree := ⟨rfl, fun _ => Or.inl rfl⟩

theorem Grown.trans (h : Grown tree tree') (h' : Grown tree' tree'') : Grown tree tree'' where
  links := h'.links.trans h.links
  entries at' := by
    rcases h.entries at' with hsame | ⟨hnone, hmade⟩
    · rw [← hsame]
      exact h'.entries at'
    · rcases h'.entries at' with hsame' | ⟨hnone', -⟩
      · exact Or.inr ⟨hnone, hsame'.trans hmade⟩
      · rw [hmade] at hnone'
        cases hnone'

/-- What stands somewhere still stands there. -/
theorem Grown.keeps (h : Grown tree tree') {at' : TreePath} {entry : TreeEntry B}
    (hentry : tree.entries at' = some entry) : tree'.entries at' = some entry := by
  rcases h.entries at' with hsame | ⟨hnone, -⟩
  · rw [hsame, hentry]
  · rw [hentry] at hnone
    cases hnone

/-- A file that stands somewhere stood there. -/
theorem Grown.file (h : Grown tree tree') {at' : TreePath} {content : B}
    (hentry : tree'.entries at' = some (.file content)) : tree.entries at' = some (.file content) := by
  rcases h.entries at' with hsame | ⟨-, hmade⟩
  · rw [← hsame, hentry]
  · rw [hentry] at hmade
    cases hmade

theorem place_of_links (h : tree'.links = tree.links) (path : TreePath) :
    tree'.place path = tree.place path := by
  have henter : tree'.enter = tree.enter := by
    funext at' segment
    unfold enter
    rw [h]
  unfold place
  rw [henter]

theorem set_links (at' : TreePath) (entry : TreeEntry B) : (tree.set at' entry).links = tree.links := rfl

@[simp] theorem set_self (at' : TreePath) (entry : TreeEntry B) :
    (tree.set at' entry).entries at' = some entry := by
  unfold set
  exact Function.update_self ..

theorem set_other {at' other : TreePath} (entry : TreeEntry B) (h : other ≠ at') :
    (tree.set at' entry).entries other = tree.entries other := by
  unfold set
  exact Function.update_of_ne h ..

theorem makeDirectory_grown {directory : TreePath} {segment : String}
    (h : tree.makeDirectory directory segment = .ok tree') : Grown tree tree' := by
  unfold makeDirectory at h
  cases hentry : tree.entries (tree.enter directory segment) with
  | some entry =>
      rw [hentry] at h
      cases entry with
      | file content => cases h
      | directory =>
          cases h
          exact .refl
  | none =>
      rw [hentry] at h
      simp only at h
      split at h
      · cases h
      · rename_i hlink
        cases h
        refine ⟨rfl, ?_⟩
        intro at'
        by_cases hat : at' = directory ++ [segment]
        · subst hat
          have hplace : tree.enter directory segment = directory ++ [segment] := by
            unfold enter
            rw [Option.not_isSome_iff_eq_none.mp hlink]
            rfl
          rw [hplace] at hentry
          exact Or.inr ⟨hentry, set_self ..⟩
        · exact Or.inl (set_other _ hat)

theorem makeDirectories_grown {directory rest : TreePath}
    (h : makeDirectories tree directory rest = .ok tree') : Grown tree tree' := by
  induction rest generalizing tree directory with
  | nil =>
      cases h
      exact .refl
  | cons segment rest ih =>
      unfold makeDirectories at h
      cases hstep : tree.makeDirectory directory segment with
      | error e =>
          rw [hstep] at h
          cases h
      | ok made =>
          rw [hstep] at h
          exact (makeDirectory_grown hstep).trans (ih h)

theorem writeFile_eq {path : TreePath} {content : B} (h : tree.writeFile path content = .ok tree') :
    tree' = tree.set (tree.place path) (.file content) := by
  unfold writeFile at h
  split at h
  · cases h
  · cases h
    rfl
  · split at h
    · cases h
      rfl
    · cases h

/-! ### Trees of a file system

In the tree of a file system whatever stands somewhere stands in a directory, nothing stands where a
link is, and a link leads to a place.  So nothing stands behind a link that leads nowhere, and
removing it changes no file.
-/

structure Sound (tree : FileTree B) : Prop where
  root : tree.entries [] = some .directory
  parents : ∀ at' segment, tree.entries (at' ++ [segment]) ≠ none ∨ tree.links (at' ++ [segment]) ≠ none →
    tree.entries at' = some .directory
  apart : ∀ at', tree.links at' ≠ none → tree.entries at' = none
  targets : ∀ at' target, tree.links at' = some target → ∀ front, front ≠ [] → front <+: target →
    tree.links front = none

/-- The two trees have the same files. -/
def SameFiles (tree tree' : FileTree B) : Prop := ∀ path, tree'.fileAt path = tree.fileAt path

theorem SameFiles.trans (h : SameFiles tree tree') (h' : SameFiles tree' tree'') :
    SameFiles tree tree'' := fun path => (h' path).trans (h path)

theorem Grown.sameFiles (h : Grown tree tree') : SameFiles tree tree' := by
  intro path
  unfold fileAt
  rw [place_of_links h.links]
  rcases h.entries (tree.place path) with hsame | ⟨hnone, hmade⟩
  · rw [hsame]
  · rw [hnone, hmade]

theorem place_append (path : TreePath) (segment : String) :
    tree.place (path ++ [segment]) = tree.enter (tree.place path) segment := by
  unfold place
  rw [List.foldl_append]
  rfl

namespace Sound

variable (hsound : Sound tree)

include hsound

/-- A place is no link, and no directory of it is. -/
theorem place_unlinked (path : TreePath) :
    ∀ front, front ≠ [] → front <+: tree.place path → tree.links front = none := by
  induction path using List.reverseRecOn with
  | nil =>
      intro front hne hfront
      exact (hne (List.prefix_nil.mp hfront)).elim
  | append_singleton path segment ih =>
      intro front hne hfront
      rw [place_append] at hfront
      unfold enter at hfront
      cases hlink : tree.links (tree.place path ++ [segment]) with
      | some target =>
          rw [hlink] at hfront
          exact hsound.targets _ _ hlink front hne hfront
      | none =>
          rw [hlink, Option.getD_none, List.prefix_concat_iff] at hfront
          rcases hfront with rfl | hfront
          · exact hlink
          · exact ih front hne hfront

/-- Nothing stands below a place where nothing stands. -/
theorem below {at' : TreePath} (hnone : tree.entries at' = none) (rest : TreePath) :
    tree.entries (at' ++ rest) = none ∧ (rest ≠ [] → tree.links (at' ++ rest) = none) := by
  induction rest using List.reverseRecOn with
  | nil =>
      rw [List.append_nil]
      exact ⟨hnone, fun h => (h rfl).elim⟩
  | append_singleton rest segment ih =>
      have hparent : tree.entries (at' ++ rest) ≠ some .directory := by
        rw [ih.1]
        intro h
        cases h
      rw [← List.append_assoc]
      constructor
      · by_contra h
        exact hparent (hsound.parents _ _ (Or.inl h))
      · intro _
        by_contra h
        exact hparent (hsound.parents _ _ (Or.inr h))

/-- A file or a directory is put where a file can stand. -/
theorem set {at' : TreePath} {entry : TreeEntry B} (hne : at' ≠ [])
    (hlink : tree.links at' = none) (hparent : tree.entries at'.dropLast = some .directory)
    (hold : tree.entries at' ≠ some .directory ∨ entry = .directory) : Sound (tree.set at' entry) where
  root := by
    rw [set_other entry (Ne.symm hne)]
    exact hsound.root
  parents := by
    intro above segment h
    have hdirectory : tree.entries above = some .directory := by
      by_cases hat : above ++ [segment] = at'
      · rw [← hat, List.dropLast_concat] at hparent
        exact hparent
      · rw [set_other entry hat] at h
        exact hsound.parents above segment h
    by_cases habove : above = at'
    · subst habove
      rcases hold with hold | rfl
      · exact (hold hdirectory).elim
      · exact set_self ..
    · rw [set_other entry habove]
      exact hdirectory
  apart := by
    intro other hother
    by_cases hat : other = at'
    · subst hat
      exact (hother hlink).elim
    · rw [set_other entry hat]
      exact hsound.apart other hother
  targets := hsound.targets

theorem dropLast_directory {at' : TreePath} (hne : at' ≠ []) (hentry : tree.entries at' ≠ none) :
    tree.entries at'.dropLast = some .directory := by
  refine hsound.parents at'.dropLast (at'.getLast hne) (Or.inl ?_)
  rw [List.dropLast_concat_getLast hne]
  exact hentry

theorem writeFile {path : TreePath} {content : B} (h : tree.writeFile path content = .ok tree') :
    Sound tree' := by
  have hplace : tree.place path ≠ [] := by
    intro hnil
    unfold FileTree.writeFile at h
    rw [hnil, hsound.root] at h
    cases h
  have hlink := hsound.place_unlinked path _ hplace (List.prefix_refl _)
  rw [writeFile_eq h]
  unfold FileTree.writeFile at h
  split at h
  · cases h
  · rename_i old hold
    refine hsound.set hplace hlink (hsound.dropLast_directory hplace (by simp [hold])) (Or.inl ?_)
    simp [hold]
  · rename_i hnone
    split at h
    · rename_i hparent
      exact hsound.set hplace hlink hparent (Or.inl (by simp [hnone]))
    · cases h

theorem makeDirectory {directory : TreePath} {segment : String}
    (hdirectory : tree.entries directory = some .directory)
    (h : tree.makeDirectory directory segment = .ok tree') :
    Sound tree' ∧ tree'.entries (tree.enter directory segment) = some .directory := by
  unfold FileTree.makeDirectory at h
  cases hentry : tree.entries (tree.enter directory segment) with
  | some entry =>
      rw [hentry] at h
      cases entry with
      | file content => cases h
      | directory =>
          cases h
          exact ⟨hsound, hentry⟩
  | none =>
      rw [hentry] at h
      simp only at h
      split at h
      · cases h
      · rename_i hlink
        cases h
        have hnone := Option.not_isSome_iff_eq_none.mp hlink
        have henter : tree.enter directory segment = directory ++ [segment] := by
          unfold enter
          rw [hnone]
          rfl
        rw [henter]
        refine ⟨hsound.set (by simp) hnone ?_ (Or.inr rfl), set_self ..⟩
        rw [List.dropLast_concat]
        exact hdirectory

omit hsound in
theorem makeDirectories {directory rest : TreePath} (hsound : Sound tree)
    (hdirectory : tree.entries directory = some .directory)
    (h : FileTree.makeDirectories tree directory rest = .ok tree') : Sound tree' := by
  induction rest generalizing tree directory with
  | nil =>
      cases h
      exact hsound
  | cons segment rest ih =>
      unfold FileTree.makeDirectories at h
      cases hstep : tree.makeDirectory directory segment with
      | error e =>
          rw [hstep] at h
          cases h
      | ok made =>
          rw [hstep] at h
          obtain ⟨hmade, hentered⟩ := hsound.makeDirectory hdirectory hstep
          exact ih hmade hentered h

/-- What a tree is after a file is removed from it. -/
theorem without {at' : TreePath} {content : B} (hfile : tree.entries at' = some (.file content)) :
    Sound { tree with entries := Function.update tree.entries at' none } where
  root := by
    have hne : ([] : TreePath) ≠ at' := by
      rintro rfl
      rw [hsound.root] at hfile
      cases hfile
    show Function.update tree.entries at' none [] = _
    rw [Function.update_of_ne hne]
    exact hsound.root
  parents := by
    intro above segment h
    have hold : tree.entries (above ++ [segment]) ≠ none ∨ tree.links (above ++ [segment]) ≠ none := by
      rcases h with h | h
      · refine Or.inl fun hnone => h ?_
        show Function.update tree.entries at' none _ = _
        by_cases hat : above ++ [segment] = at'
        · rw [hat, Function.update_self]
        · rw [Function.update_of_ne hat]
          exact hnone
      · exact Or.inr h
    have hdirectory := hsound.parents above segment hold
    have hne : above ≠ at' := by
      rintro rfl
      rw [hdirectory] at hfile
      cases hfile
    show Function.update tree.entries at' none above = _
    rw [Function.update_of_ne hne]
    exact hdirectory
  apart := by
    intro other hother
    show Function.update tree.entries at' none other = none
    by_cases hat : other = at'
    · rw [hat, Function.update_self]
    · rw [Function.update_of_ne hat]
      exact hsound.apart other hother
  targets := hsound.targets

/-- What a tree is after a link is removed from it. -/
theorem withoutLink (at' : TreePath) :
    Sound { tree with links := Function.update tree.links at' none } := by
  have hfewer : ∀ other, Function.update tree.links at' none other ≠ none → tree.links other ≠ none := by
    intro other h
    by_cases hat : other = at'
    · rw [hat, Function.update_self] at h
      exact (h rfl).elim
    · rwa [Function.update_of_ne hat] at h
  refine ⟨hsound.root, ?_, fun other h => hsound.apart other (hfewer other h), ?_⟩
  · rintro above segment (h | h)
    · exact hsound.parents above segment (Or.inl h)
    · exact hsound.parents above segment (Or.inr (hfewer _ h))
  · intro other target h front hne hfront
    by_contra hlink
    refine hfewer front hlink (hsound.targets other target ?_ front hne hfront)
    have hother : other ≠ at' := by
      rintro rfl
      have hself : Function.update tree.links other none other = some target := h
      rw [Function.update_self] at hself
      cases hself
    have hlinked : Function.update tree.links at' none other = some target := h
    rwa [Function.update_of_ne hother] at hlinked

/-- Removing a link that leads nowhere changes no file. -/
theorem withoutLink_sameFiles {at' target : TreePath} (hlink : tree.links at' = some target)
    (hdangling : tree.entries target = none) :
    SameFiles tree { tree with links := Function.update tree.links at' none } := by
  have hwalk : ∀ (rest cur cur' : TreePath),
      (cur = cur' ∨ (tree.entries cur = none ∧ tree.entries cur' = none)) →
      (rest.foldl tree.enter cur = rest.foldl
          (enter { tree with links := Function.update tree.links at' none }) cur' ∨
        (tree.entries (rest.foldl tree.enter cur) = none ∧ tree.entries (rest.foldl
          (enter { tree with links := Function.update tree.links at' none }) cur') = none)) := by
    intro rest
    induction rest with
    | nil => exact fun _ _ h => h
    | cons segment rest ih =>
        intro cur cur' hcur
        refine ih _ _ ?_
        rcases hcur with rfl | ⟨hnone, hnone'⟩
        · by_cases hat : cur ++ [segment] = at'
          · refine Or.inr ⟨?_, ?_⟩
            · unfold enter
              rw [hat, hlink]
              exact hdangling
            · unfold enter
              dsimp only
              rw [hat, Function.update_self, Option.getD_none]
              exact hsound.apart _ (by simp [hlink])
          · refine Or.inl ?_
            unfold enter
            dsimp only
            rw [Function.update_of_ne hat]
        · obtain ⟨hentry, hlinks⟩ := hsound.below hnone [segment]
          obtain ⟨hentry', hlinks'⟩ := hsound.below hnone' [segment]
          refine Or.inr ⟨?_, ?_⟩
          · unfold enter
            rw [hlinks (by simp), Option.getD_none]
            exact hentry
          · have hgone : Function.update tree.links at' none (cur' ++ [segment]) = none := by
              by_cases hat : cur' ++ [segment] = at'
              · rw [hat, Function.update_self]
              · rw [Function.update_of_ne hat]
                exact hlinks' (by simp)
            unfold enter
            dsimp only
            rw [hgone, Option.getD_none]
            exact hentry'
  intro path
  unfold fileAt place
  rcases hwalk path [] [] (Or.inl rfl) with heq | ⟨hnone, hnone'⟩
  · rw [heq]
  · rw [hnone]
    dsimp only
    rw [hnone']

end Sound

/-! ### One file is written or removed -/

theorem isSymbolicLink_iff {path : TreePath} : tree.isSymbolicLink path = true ↔
    ∃ front last target, path = front ++ [last] ∧ tree.links (tree.place front ++ [last]) = some target := by
  rcases List.eq_nil_or_concat path with rfl | ⟨front, last, hpath⟩
  · refine iff_of_false (fun h => by cases h) ?_
    rintro ⟨front, last, target, h, -⟩
    cases front <;> cases h
  · rw [List.concat_eq_append] at hpath
    subst hpath
    unfold isSymbolicLink
    rw [List.getLast?_concat, List.dropLast_concat]
    dsimp only
    rw [Option.isSome_iff_exists]
    constructor
    · rintro ⟨target, htarget⟩
      exact ⟨front, last, target, rfl, htarget⟩
    · rintro ⟨front', last', target, h, htarget⟩
      obtain ⟨rfl, hlast⟩ := List.append_inj' h rfl
      obtain rfl := List.singleton_inj.mp hlast
      exact ⟨target, htarget⟩

theorem fileAt_of_place {path other : TreePath} (h : tree.place other = tree.place path) :
    tree.fileAt other = tree.fileAt path := by
  unfold fileAt
  rw [h]

theorem writeFile_fileAt {path other : TreePath} {content : B}
    (h : tree.writeFile path content = .ok tree') :
    tree'.fileAt other =
      if tree.place other = tree.place path then some content else tree.fileAt other := by
  rw [writeFile_eq h]
  unfold fileAt
  rw [place_of_links (set_links ..)]
  by_cases hplace : tree.place other = tree.place path
  · rw [if_pos hplace, hplace, set_self]
  · rw [if_neg hplace, set_other _ hplace]

theorem unlink_ok_iff {path : TreePath} : (∃ tree', tree.unlink path = .ok tree') ↔
    tree.isSymbolicLink path = true ∨ (tree.fileAt path).isSome = true := by
  unfold unlink fileAt
  by_cases hlink : tree.isSymbolicLink path = true
  · rw [if_pos hlink]
    exact iff_of_true ⟨_, rfl⟩ (Or.inl hlink)
  · rw [if_neg hlink]
    cases tree.entries (tree.place path) with
    | none => simp [hlink]
    | some entry => cases entry <;> simp [hlink]

/-- A file is removed, or a link that leads nowhere. -/
theorem Sound.unlink (hsound : Sound tree) {path : TreePath}
    (hdangling : tree.isSymbolicLink path = true → tree.entries (tree.place path) = none)
    (h : tree.unlink path = .ok tree') :
    Sound tree' ∧ ∀ other, tree'.fileAt other =
      if tree.place other = tree.place path then none else tree.fileAt other := by
  unfold FileTree.unlink at h
  by_cases hlink : tree.isSymbolicLink path = true
  · rw [if_pos hlink] at h
    obtain ⟨front, last, target, rfl, htarget⟩ := isSymbolicLink_iff.mp hlink
    rw [List.getLast?_concat, List.dropLast_concat] at h
    cases h
    have hplace : tree.place (front ++ [last]) = target := by
      rw [place_append]
      unfold enter
      rw [htarget]
      rfl
    have hnone := hdangling hlink
    refine ⟨hsound.withoutLink _, fun other => ?_⟩
    have hsame := hsound.withoutLink_sameFiles htarget (hplace ▸ hnone) other
    split
    · rename_i hother
      refine hsame.trans ?_
      rw [fileAt_of_place hother]
      unfold fileAt
      rw [hnone]
    · exact hsame
  · rw [if_neg hlink] at h
    cases hentry : tree.entries (tree.place path) with
    | none =>
        rw [hentry] at h
        cases h
    | some entry =>
        rw [hentry] at h
        cases entry with
        | directory => cases h
        | file content =>
            cases h
            refine ⟨hsound.without hentry, fun other => ?_⟩
            have hplaces : ∀ path', (FileTree.mk (Function.update tree.entries (tree.place path) none)
                tree.links).place path' = tree.place path' := fun path' => place_of_links rfl path'
            unfold fileAt
            rw [hplaces]
            dsimp only
            by_cases hother : tree.place other = tree.place path
            · rw [if_pos hother, hother, Function.update_self]
            · rw [if_neg hother, Function.update_of_ne hother]

end FileTree
