/-
What indexing the files anew comes to.

The entry of a file is made of its path alone, so the index afterwards holds an entry for each
recognised file as long as no two of them are given one id.  An id keeps of a path only what is
plain in it, and of that no more than a length; and a path is written without the caller's
directory wherever that occurs, which is a way back only from below that directory.  Both are
conditions on the files that are there.
-/
import OpenLagrange.Artifacts.ArtifactViewer
import OpenLagrange.Lib.Fallible

namespace OpenLagrange.Artifacts

open LocalPath

variable {P : ViewerPlatform}

/-! ### The files -/

theorem mem_recognised {files : FileSystem} {roots : List String} {path : AbsolutePath}
    {kind : Output.ArtifactKind} :
    (path, kind) ∈ recognised P files roots ↔
      (∃ root ∈ roots, resolveLocalPath P root.toList <+: path) ∧
        (files.fileSize path).isSome ∧ kindFromPath P path = some kind := by
  unfold recognised
  rw [List.mem_filterMap]
  constructor
  · rintro ⟨path', hmem, hkind⟩
    obtain ⟨kind', hkind', heq⟩ := Option.map_eq_some_iff.mp hkind
    cases heq
    obtain ⟨root, hroot, hunder⟩ := List.mem_flatMap.mp hmem
    obtain ⟨hstart, hsome⟩ := FileSystem.mem_filesUnder.mp hunder
    exact ⟨⟨root, hroot, hstart⟩, hsome, hkind'⟩
  · rintro ⟨⟨root, hroot, hunder⟩, hsome, hkind⟩
    refine ⟨path, List.mem_flatMap.mpr ⟨root, hroot, ?_⟩, ?_⟩
    · exact FileSystem.mem_filesUnder.mpr ⟨hunder, hsome⟩
    · rw [hkind, Option.map_some]

/-- Two file systems have the same files, but for one. -/
def SameBut (path : AbsolutePath) (files files' : FileSystem) : Prop :=
  ∀ other, other ≠ path → files.fileSize other = files'.fileSize other

/-- The index is not itself one of the files to be indexed. -/
def IndexApart (P : ViewerPlatform) (roots : List String) (indexPath : AbsolutePath) : Prop :=
  kindFromPath P indexPath = none ∨
    ∀ root ∈ roots, ¬ resolveLocalPath P root.toList <+: indexPath

theorem recognised_sameBut {files files' : FileSystem} {roots : List String}
    {indexPath : AbsolutePath} (hapart : IndexApart P roots indexPath)
    (hsame : SameBut indexPath files files') {file : AbsolutePath × Output.ArtifactKind} :
    file ∈ recognised P files roots ↔ file ∈ recognised P files' roots := by
  obtain ⟨path, kind⟩ := file
  rw [mem_recognised, mem_recognised]
  by_cases hpath : path = indexPath
  · subst hpath
    rcases hapart with hkind | hroots
    · rw [hkind]
      exact iff_of_false (fun h => nomatch h.2.2) (fun h => nomatch h.2.2)
    · refine iff_of_false ?_ ?_
      · rintro ⟨⟨root, hroot, hunder⟩, -⟩
        exact hroots root hroot hunder
      · rintro ⟨⟨root, hroot, hunder⟩, -⟩
        exact hroots root hroot hunder
  · rw [hsame path hpath]

/-! ### Registering -/

theorem mem_keyed {current : List ArtifactSummary} {entry : ArtifactSummary}
    (h : entry ∈ (current.foldl Table.Keyed.upsert (.empty : Table.Keyed artifactKey)).rows) :
    entry ∈ current := by
  rcases Table.Keyed.mem_foldl_upsert h with hmem | hempty
  · exact hmem
  · exact absurd hempty List.not_mem_nil

/-- The last entry of an id is the one that is kept. -/
theorem exists_keyed {current : List ArtifactSummary} {entry : ArtifactSummary}
    (h : entry ∈ current) : ∃ last ∈ current, last.artifactId = entry.artifactId ∧
      last ∈ (current.foldl Table.Keyed.upsert (.empty : Table.Keyed artifactKey)).rows :=
  Table.Keyed.exists_foldl_upsert h

def stamped (now : P.Timestamp) (artifact : ArtifactSummary) : ArtifactSummary :=
  { artifact with updatedAt := some now.1 }

/-- **What the index holds afterwards**, if new entries of one id are the same. -/
theorem mem_registerArtifacts {current artifacts : List ArtifactSummary} {now : P.Timestamp}
    (h : ∀ a ∈ artifacts, ∀ b ∈ artifacts, a.artifactId = b.artifactId → a = b)
    {entry : ArtifactSummary} :
    entry ∈ registerArtifacts P current artifacts now ↔
      (∃ artifact ∈ artifacts, stamped now artifact = entry) ∨
        entry ∈ (current.foldl Table.Keyed.upsert (.empty : Table.Keyed artifactKey)).rows ∧
          ∀ artifact ∈ artifacts, artifact.artifactId ≠ entry.artifactId := by
  unfold registerArtifacts
  dsimp only
  rw [mem_sortByLocale, Table.Keyed.mem_foldl_upsert_iff, List.mem_map]
  · refine or_congr Iff.rfl (and_congr_right fun _ => ?_)
    constructor
    · intro hall artifact hmem
      exact hall (stamped now artifact) (List.mem_map_of_mem hmem)
    · intro hall row hrow
      obtain ⟨artifact, hmem, rfl⟩ := List.mem_map.mp hrow
      exact hall artifact hmem
  · intro row hrow row' hrow' hkey
    obtain ⟨artifact, hmem, rfl⟩ := List.mem_map.mp hrow
    obtain ⟨artifact', hmem', rfl⟩ := List.mem_map.mp hrow'
    rw [h artifact hmem artifact' hmem' hkey]

/-- No id is listed twice. -/
theorem nodup_registerArtifacts (current artifacts : List ArtifactSummary) (now : P.Timestamp) :
    ((registerArtifacts P current artifacts now).map (·.artifactId)).Nodup := by
  unfold registerArtifacts sortByLocale
  dsimp only
  refine (((List.perm_insertionSort _ _).map _).nodup_iff).mpr ?_
  exact Table.Keyed.nodup _

/-! ### The entry of a file -/

def fileId (P : ViewerPlatform) (file : AbsolutePath × Output.ArtifactKind) : String :=
  artifactIdOf P file.2 file.1

theorem hasScheme_slashes {text : List Char} (h : hasScheme text = true) :
    ['/', '/'] <:+: text := by
  unfold hasScheme at h
  rw [Bool.and_eq_true] at h
  obtain ⟨rest, hrest⟩ := List.isPrefixOf_iff_prefix.mp h.2
  have hinner : ['/', '/'] <:+: text.dropWhile fun c => 'a' ≤ c ∧ c ≤ 'z' := ⟨[':'], rest, hrest⟩
  exact hinner.trans (List.dropWhile_suffix _).isInfix

/-- The reference in a file's entry leads back to the file. -/
theorem resolvePath_relativeText {path : AbsolutePath} (h : P.callerCwd.GoesOn path) :
    P.callerCwd.relativeText path ≠ [] ∧
      resolvePath P (String.ofList (P.callerCwd.relativeText path)) = some path.text := by
  obtain ⟨hne, hresolve⟩ := AbsolutePath.resolve_of_goesOn h
  obtain ⟨rest, -, -, hrelative⟩ := AbsolutePath.relativeText_of_goesOn h
  have hslashes : ¬ ['/', '/'] <:+: P.callerCwd.relativeText path := by
    rw [hrelative]
    exact AbsolutePath.no_double_slash
  refine ⟨hne, ?_⟩
  unfold resolvePath
  simp only [String.toList_ofList]
  rw [if_neg, if_neg]
  · unfold resolveLocalPath
    rw [hresolve]
  · exact fun hscheme => hslashes (hasScheme_slashes hscheme)
  · intro hfile
    obtain ⟨after, hafter⟩ := List.isPrefixOf_iff_prefix.mp hfile
    exact hslashes ⟨"file:".toList, after, hafter⟩

theorem goesOn_of_resolvePath {path : AbsolutePath} (hne : P.callerCwd.relativeText path ≠ [])
    (h : resolvePath P (String.ofList (P.callerCwd.relativeText path)) = some path.text) :
    P.callerCwd.GoesOn path := by
  unfold resolvePath at h
  simp only [String.toList_ofList] at h
  split at h
  · -- what is left of the text is too short to be the path's
    have hlength := congrArg List.length (Option.some.inj h)
    have hshort := AbsolutePath.length_relativeText_le P.callerCwd path
    have hcut := length_cutFrom_le P.callerCwd.text path.text
    have hpos : 0 < (P.callerCwd.relativeText path).length := List.length_pos_iff.mpr hne
    rw [List.length_drop] at hlength
    unfold cutOut at hshort
    omega
  · split at h
    · cases h
    · exact AbsolutePath.resolve_relativeText_iff.mp
        ⟨hne, AbsolutePath.text_injective (Option.some.inj h)⟩

theorem summaryFromPath_ok {files : FileSystem} {path : AbsolutePath} {kind : Output.ArtifactKind}
    {now : P.Timestamp} {artifact : ArtifactSummary}
    (h : summaryFromPath P files path kind now = .ok artifact) :
    P.callerCwd.relativeText path ≠ [] ∧ artifact.artifactId = fileId P (path, kind) ∧
      artifact.pathOrUri = String.ofList (P.callerCwd.relativeText path) := by
  unfold summaryFromPath at h
  dsimp only at h
  split at h
  · cases h
  · rename_i hne
    cases h
    refine ⟨?_, rfl, rfl⟩
    intro hnil
    refine hne ?_
    rw [hnil]

theorem summaryFromPath_isOk (files : FileSystem) {path : AbsolutePath}
    (kind : Output.ArtifactKind) (now : P.Timestamp) (h : P.callerCwd.relativeText path ≠ []) :
    ∃ artifact, summaryFromPath P files path kind now = .ok artifact := by
  unfold summaryFromPath
  dsimp only
  rw [if_neg]
  · exact ⟨_, rfl⟩
  · intro hempty
    refine h ?_
    have hlist := congrArg String.toList hempty
    rwa [String.toList_ofList] at hlist

/-- Two looks at a file differ in the times alone, where its size is the same. -/
def untimed (artifact : ArtifactSummary) : ArtifactSummary :=
  { artifact with createdAt := "", updatedAt := none }

theorem sizeAt_text {files : FileSystem} {path : AbsolutePath}
    (h : (files.fileSize path).isSome) : sizeAt P files path.text = files.fileSize path := by
  unfold sizeAt
  rw [AbsolutePath.resolve_text]
  unfold FileSystem.fileSize DirTree.fileSize at h ⊢
  unfold FileSystem.find
  cases hfind : files.tree.find path with
  | none => rfl
  | some found =>
      rw [hfind] at h
      cases found with
      | file size => rfl
      | directory size entries => exact absurd h Bool.false_ne_true

theorem summaryFromPath_untimed {files files' : FileSystem} {path : AbsolutePath}
    {kind : Output.ArtifactKind} {now now' : P.Timestamp} {artifact artifact' : ArtifactSummary}
    (hgoes : P.callerCwd.GoesOn path) (hsize : files.fileSize path = files'.fileSize path)
    (hfile : (files.fileSize path).isSome)
    (h : summaryFromPath P files path kind now = .ok artifact)
    (h' : summaryFromPath P files' path kind now' = .ok artifact') :
    untimed artifact = untimed artifact' := by
  obtain ⟨hne, hback⟩ := resolvePath_relativeText hgoes
  unfold summaryFromPath at h h'
  dsimp only at h h'
  rw [hback] at h h'
  split at h
  · cases h
  · rename_i hempty
    rw [if_neg hempty] at h'
    cases h
    cases h'
    rw [Option.bind_some, Option.bind_some, sizeAt_text hfile, sizeAt_text (hsize ▸ hfile), hsize]
    rfl

/-! ### What indexing anew comes to -/

/-- There is one entry for each file, under an id of its own, and it leads back to the file; the
entries of other ids are still there, and there are no more. -/
structure Indexes (P : ViewerPlatform) (found : List (AbsolutePath × Output.ArtifactKind))
    (current next : List ArtifactSummary) : Prop where
  once : ∀ file ∈ found, ∃ entry, next.filter (·.artifactId = fileId P file) = [entry] ∧
    resolvePath P entry.pathOrUri = some file.1.text
  apart : ∀ file ∈ found, ∀ other ∈ found, fileId P file = fileId P other → file = other
  kept : ∀ entry ∈ current, (∀ file ∈ found, fileId P file ≠ entry.artifactId) → entry ∈ next
  added : ∀ entry ∈ next, entry ∈ current ∨ ∃ file ∈ found, fileId P file = entry.artifactId

/-- Indexing anew finds every file, and doing it again, with nothing changed but the index itself,
changes nothing but the times. -/
def ReindexingSound (P : ViewerPlatform) (files : FileSystem) (roots : List String)
    (indexPath : AbsolutePath) (current : List ArtifactSummary) (now : P.Timestamp) : Prop :=
  ∃ next, reindexArtifacts P files roots current now = .ok next ∧
    Indexes P (recognised P files roots) current next ∧
    ∀ files' now', SameBut indexPath files files' →
      ∃ again, reindexArtifacts P files' roots next now' = .ok again ∧
        (again.map untimed).Perm (next.map untimed)

/-- No two files are given one id, every file lies below the caller's directory, whose text does
not come again in its path, and the entries of other ids have different ones. -/
structure Indexable (P : ViewerPlatform) (found : List (AbsolutePath × Output.ArtifactKind))
    (current : List ArtifactSummary) : Prop where
  ids : ∀ file ∈ found, ∀ other ∈ found, fileId P file = fileId P other → file = other
  paths : ∀ file ∈ found, P.callerCwd.GoesOn file.1
  entries : ∀ entry ∈ current, ∀ other ∈ current, entry.artifactId = other.artifactId →
    (∀ file ∈ found, fileId P file ≠ entry.artifactId) → entry = other

theorem reindexArtifacts_ok {files : FileSystem} {roots : List String}
    {current next : List ArtifactSummary} {now : P.Timestamp}
    (h : reindexArtifacts P files roots current now = .ok next) :
    ∃ artifacts, List.Forall₂ (fun file artifact =>
        summaryFromPath P files file.1 file.2 now = .ok artifact)
        (recognised P files roots) artifacts ∧
      next = registerArtifacts P current artifacts now := by
  unfold reindexArtifacts at h
  cases hmap : (recognised P files roots).mapM fun file =>
      summaryFromPath P files file.1 file.2 now with
  | error refusal =>
      rw [hmap] at h
      cases h
  | ok artifacts =>
      rw [hmap] at h
      cases h
      exact ⟨artifacts, Fallible.forall₂_of_mapM hmap, rfl⟩

section Made

variable {files : FileSystem} {now : P.Timestamp}
  {found : List (AbsolutePath × Output.ArtifactKind)} {artifacts : List ArtifactSummary}

/-- The entries that were made, one for each file. -/
def Made (files : FileSystem) (now : P.Timestamp)
    (found : List (AbsolutePath × Output.ArtifactKind)) (artifacts : List ArtifactSummary) : Prop :=
  List.Forall₂ (fun file artifact => summaryFromPath P files file.1 file.2 now = .ok artifact)
    found artifacts

theorem Made.ids (h : Made files now found artifacts) (id : String) :
    (∃ artifact ∈ artifacts, artifact.artifactId = id) ↔ ∃ file ∈ found, fileId P file = id := by
  constructor
  · rintro ⟨artifact, hmem, rfl⟩
    obtain ⟨file, hfile, hmade⟩ := Fallible.exists_left h hmem
    exact ⟨file, hfile, (summaryFromPath_ok hmade).2.1.symm⟩
  · rintro ⟨file, hfile, rfl⟩
    obtain ⟨artifact, hmem, hmade⟩ := Fallible.exists_right h hfile
    exact ⟨artifact, hmem, (summaryFromPath_ok hmade).2.1⟩

/-- Where ids are different, entries of one id are of one file. -/
theorem Made.unique (h : Made files now found artifacts)
    (hids : ∀ file ∈ found, ∀ other ∈ found, fileId P file = fileId P other → file = other) :
    ∀ a ∈ artifacts, ∀ b ∈ artifacts, a.artifactId = b.artifactId → a = b := by
  intro a ha b hb hid
  obtain ⟨file, hfile, hmade⟩ := Fallible.exists_left h ha
  obtain ⟨other, hother, hmade'⟩ := Fallible.exists_left h hb
  have hsame : file = other := by
    refine hids file hfile other hother ?_
    exact (summaryFromPath_ok hmade).2.1.symm.trans (hid.trans (summaryFromPath_ok hmade').2.1)
  rw [hsame, hmade'] at hmade
  exact (Except.ok.inj hmade).symm

end Made

/-- An entry is the only one of its id. -/
theorem filter_eq_singleton {entries : List ArtifactSummary} {entry : ArtifactSummary}
    (hnodup : (entries.map (·.artifactId)).Nodup) (hmem : entry ∈ entries) :
    entries.filter (·.artifactId = entry.artifactId) = [entry] := by
  induction entries with
  | nil => exact absurd hmem List.not_mem_nil
  | cons first rest ih =>
      rw [List.map_cons, List.nodup_cons] at hnodup
      rcases List.mem_cons.mp hmem with rfl | hrest
      · rw [List.filter_cons_of_pos (by simp), List.cons_inj_right, List.filter_eq_nil_iff]
        intro other hother hid
        exact hnodup.1 (List.mem_map.mpr ⟨other, hother, of_decide_eq_true hid⟩)
      · have hfirst : first.artifactId ≠ entry.artifactId := fun hid =>
          hnodup.1 (List.mem_map.mpr ⟨entry, hrest, hid.symm⟩)
        rw [List.filter_cons_of_neg (by simpa using hfirst)]
        exact ih hnodup.2 hrest

/-- **What indexing anew comes to where no two files are given one id.** -/
theorem indexes_registerArtifacts {files : FileSystem} {now : P.Timestamp}
    {found : List (AbsolutePath × Output.ArtifactKind)} {current artifacts : List ArtifactSummary}
    (h : Indexable P found current) (hmade : Made files now found artifacts) :
    Indexes P found current (registerArtifacts P current artifacts now) := by
  have hunique := hmade.unique h.ids
  refine ⟨?_, h.ids, ?_, ?_⟩
  · intro file hfile
    obtain ⟨artifact, hmem, hfrom⟩ := Fallible.exists_right hmade hfile
    obtain ⟨-, hid, hpath⟩ := summaryFromPath_ok hfrom
    have hin : stamped now artifact ∈ registerArtifacts P current artifacts now :=
      (mem_registerArtifacts hunique).mpr (Or.inl ⟨artifact, hmem, rfl⟩)
    refine ⟨stamped now artifact, ?_, ?_⟩
    · rw [← hid]
      exact filter_eq_singleton (nodup_registerArtifacts _ _ _) hin
    · have hback := (resolvePath_relativeText (h.paths file hfile)).2
      rw [← hpath] at hback
      exact hback
  · intro entry hentry hother
    refine (mem_registerArtifacts hunique).mpr (Or.inr ⟨?_, ?_⟩)
    · obtain ⟨last, hlast, hid, hkept⟩ := exists_keyed hentry
      rw [h.entries entry hentry last hlast hid.symm hother]
      exact hkept
    · intro artifact hmem hid
      obtain ⟨file, hfile, heq⟩ := (hmade.ids _).mp ⟨artifact, hmem, hid⟩
      exact hother file hfile heq
  · intro entry hentry
    rcases (mem_registerArtifacts hunique).mp hentry with ⟨artifact, hmem, rfl⟩ | ⟨hkept, -⟩
    · exact Or.inr ((hmade.ids _).mp ⟨artifact, hmem, rfl⟩)
    · exact Or.inl (mem_keyed hkept)

theorem reindexArtifacts_isOk {files : FileSystem} {roots : List String}
    (current : List ArtifactSummary) (now : P.Timestamp)
    (h : ∀ file ∈ recognised P files roots, P.callerCwd.GoesOn file.1) :
    ∃ artifacts, Made files now (recognised P files roots) artifacts ∧
      reindexArtifacts P files roots current now =
        .ok (registerArtifacts P current artifacts now) := by
  obtain ⟨artifacts, hmap⟩ := Fallible.mapM_isOk
    (f := fun file => summaryFromPath P files file.1 file.2 now) fun file hfile =>
      summaryFromPath_isOk files file.2 now (AbsolutePath.resolve_of_goesOn (h file hfile)).1
  refine ⟨artifacts, Fallible.forall₂_of_mapM hmap, ?_⟩
  unfold reindexArtifacts
  rw [hmap]
  rfl

/-- What was made at one time is what was made at another, but for the times. -/
theorem Made.untimed {files files' : FileSystem} {now now' : P.Timestamp}
    {found found' : List (AbsolutePath × Output.ArtifactKind)}
    {artifacts artifacts' : List ArtifactSummary} (h : Made files now found artifacts)
    (h' : Made files' now' found' artifacts') (hfound : ∀ file ∈ found, file ∈ found')
    (hpaths : ∀ file ∈ found, P.callerCwd.GoesOn file.1)
    (hsizes : ∀ file ∈ found, files.fileSize file.1 = files'.fileSize file.1 ∧
      (files.fileSize file.1).isSome) :
    ∀ artifact ∈ artifacts, ∃ artifact' ∈ artifacts',
      Artifacts.untimed artifact' = Artifacts.untimed artifact := by
  intro artifact hmem
  obtain ⟨file, hfile, hmade⟩ := Fallible.exists_left h hmem
  obtain ⟨artifact', hmem', hmade'⟩ := Fallible.exists_right h' (hfound file hfile)
  obtain ⟨hsize, hsome⟩ := hsizes file hfile
  exact ⟨artifact', hmem',
    (summaryFromPath_untimed (hpaths file hfile) hsize hsome hmade hmade').symm⟩

theorem nodup_untimed {entries : List ArtifactSummary}
    (h : (entries.map (·.artifactId)).Nodup) : (entries.map untimed).Nodup := by
  refine List.Nodup.of_map (·.artifactId) ?_
  rw [List.map_map]
  exact h

theorem eq_of_id {entries : List ArtifactSummary} (h : (entries.map (·.artifactId)).Nodup) :
    ∀ entry ∈ entries, ∀ other ∈ entries, entry.artifactId = other.artifactId → entry = other :=
  fun _ hentry _ hother hid => List.inj_on_of_nodup_map h hentry hother hid

/-- **Indexing the same files again leaves the index as it is, but for the times.** -/
theorem registerArtifacts_again {files files' : FileSystem} {now now' : P.Timestamp}
    {found found' : List (AbsolutePath × Output.ArtifactKind)}
    {current artifacts artifacts' : List ArtifactSummary} (h : Indexable P found current)
    (hmade : Made files now found artifacts) (hmade' : Made files' now' found' artifacts')
    (hfound : ∀ file, file ∈ found ↔ file ∈ found')
    (hsizes : ∀ file ∈ found, files.fileSize file.1 = files'.fileSize file.1 ∧
      (files.fileSize file.1).isSome) :
    ((registerArtifacts P (registerArtifacts P current artifacts now) artifacts' now').map
      untimed).Perm ((registerArtifacts P current artifacts now).map untimed) := by
  have hids' : ∀ file ∈ found', ∀ other ∈ found', fileId P file = fileId P other → file = other :=
    fun file hfile other hother =>
      h.ids file ((hfound file).mpr hfile) other ((hfound other).mpr hother)
  have hunique := hmade.unique h.ids
  have hunique' := hmade'.unique hids'
  have hnext := nodup_registerArtifacts current artifacts now
  have hforth := hmade.untimed hmade' (fun file => (hfound file).mp) h.paths hsizes
  have hback := hmade'.untimed hmade (fun file => (hfound file).mpr)
    (fun file hfile => h.paths file ((hfound file).mpr hfile)) fun file hfile => by
      obtain ⟨hsize, hsome⟩ := hsizes file ((hfound file).mpr hfile)
      exact ⟨hsize.symm, hsize ▸ hsome⟩
  refine (List.perm_ext_iff_of_nodup (nodup_untimed (nodup_registerArtifacts _ _ _))
    (nodup_untimed hnext)).mpr fun entry => ?_
  rw [List.mem_map, List.mem_map]
  constructor
  · rintro ⟨entry, hentry, rfl⟩
    rcases (mem_registerArtifacts hunique').mp hentry with ⟨artifact', hmem', rfl⟩ | ⟨hkept, -⟩
    · obtain ⟨artifact, hmem, hsame⟩ := hback artifact' hmem'
      exact ⟨stamped now artifact, (mem_registerArtifacts hunique).mpr
        (Or.inl ⟨artifact, hmem, rfl⟩), hsame⟩
    · exact ⟨entry, mem_keyed hkept, rfl⟩
  · rintro ⟨entry, hentry, rfl⟩
    rcases (mem_registerArtifacts hunique).mp hentry with ⟨artifact, hmem, rfl⟩ | ⟨-, hother⟩
    · obtain ⟨artifact', hmem', hsame⟩ := hforth artifact hmem
      exact ⟨stamped now' artifact', (mem_registerArtifacts hunique').mpr
        (Or.inl ⟨artifact', hmem', rfl⟩), hsame⟩
    · refine ⟨entry, (mem_registerArtifacts hunique').mpr (Or.inr ⟨?_, ?_⟩), rfl⟩
      · obtain ⟨last, hlast, hid, hkept⟩ := exists_keyed hentry
        rw [eq_of_id hnext entry hentry last hlast hid.symm]
        exact hkept
      · intro artifact' hmem' hid
        obtain ⟨file, hfile, heq⟩ := (hmade'.ids _).mp ⟨artifact', hmem', hid⟩
        obtain ⟨artifact, hmem, hsame⟩ := (hmade.ids _).mpr ⟨file, (hfound file).mpr hfile, heq⟩
        exact hother artifact hmem hsame

/-! ### When it is sound -/

theorem reindexingSound_of_indexable {files : FileSystem} {roots : List String}
    {indexPath : AbsolutePath} {current : List ArtifactSummary} {now : P.Timestamp}
    (h : Indexable P (recognised P files roots) current) (hapart : IndexApart P roots indexPath) :
    ReindexingSound P files roots indexPath current now := by
  obtain ⟨artifacts, hmade, hok⟩ := reindexArtifacts_isOk current now h.paths
  refine ⟨_, hok, indexes_registerArtifacts h hmade, ?_⟩
  intro files' now' hsame
  have hfound : ∀ file, file ∈ recognised P files roots ↔ file ∈ recognised P files' roots :=
    fun file => recognised_sameBut hapart hsame
  obtain ⟨artifacts', hmade', hok'⟩ := reindexArtifacts_isOk
    (registerArtifacts P current artifacts now) now'
    fun file hfile => h.paths file ((hfound file).mpr hfile)
  refine ⟨_, hok', registerArtifacts_again h hmade hmade' hfound ?_⟩
  intro file hfile
  obtain ⟨hroots, hsome, hkind⟩ := mem_recognised.mp hfile
  refine ⟨hsame file.1 ?_, hsome⟩
  intro hindex
  rcases hapart with hnone | hnowhere
  · rw [← hindex, hkind] at hnone
    cases hnone
  · obtain ⟨root, hroot, hunder⟩ := hroots
    rw [hindex] at hunder
    exact hnowhere root hroot hunder

theorem indexable_of_reindexingSound {files : FileSystem} {roots : List String}
    {indexPath : AbsolutePath} {current : List ArtifactSummary} {now : P.Timestamp}
    (h : ReindexingSound P files roots indexPath current now) :
    Indexable P (recognised P files roots) current := by
  obtain ⟨next, hok, hindexes, -⟩ := h
  obtain ⟨artifacts, hmade, rfl⟩ := reindexArtifacts_ok hok
  have hmade : Made files now (recognised P files roots) artifacts := hmade
  have hunique := hmade.unique hindexes.apart
  refine ⟨hindexes.apart, ?_, ?_⟩
  · intro file hfile
    obtain ⟨entry, hentry, hback⟩ := hindexes.once file hfile
    have hin : entry ∈ (registerArtifacts P current artifacts now).filter
        (·.artifactId = fileId P file) := by
      rw [hentry]
      exact List.mem_singleton_self _
    obtain ⟨hmem, hid⟩ := List.mem_filter.mp hin
    rcases (mem_registerArtifacts hunique).mp hmem with ⟨artifact, hartifact, rfl⟩ | ⟨-, hother⟩
    · obtain ⟨file', hfile', hfrom⟩ := Fallible.exists_left hmade hartifact
      obtain ⟨hne, hid', hpath⟩ := summaryFromPath_ok hfrom
      have hsame : file' = file := hindexes.apart file' hfile' file hfile
        (hid'.symm.trans (of_decide_eq_true hid))
      rw [hsame] at hne hpath
      exact goesOn_of_resolvePath hne (hpath ▸ hback)
    · obtain ⟨artifact, hartifact, hsame⟩ := (hmade.ids _).mpr ⟨file, hfile, rfl⟩
      exact absurd (hsame.trans (of_decide_eq_true hid).symm) (hother artifact hartifact)
  · intro entry hentry other hother hid hnone
    have hnone' : ∀ file ∈ recognised P files roots, fileId P file ≠ other.artifactId :=
      fun file hfile => hid ▸ hnone file hfile
    exact eq_of_id (nodup_registerArtifacts _ _ _) entry (hindexes.kept entry hentry hnone) other
      (hindexes.kept other hother hnone') hid

section Sample

def work : FileName := ⟨['w'], by decide, by decide, by decide, by decide⟩

def spaced : FileName :=
  ⟨['a', ' ', '.', 'l', 'o', 'g'], by decide, by decide, by decide, by decide⟩

def dashed : FileName :=
  ⟨['a', '.', 'l', 'o', 'g'], by decide, by decide, by decide, by decide⟩

def sampleViewer : ViewerPlatform where
  callerCwd := [work]
  processCwd := [work]
  localeCompare := compare
  toLowerCase := id
  isDatetime _ := true

/-- A directory with files of these names in it. -/
def logs (names : List FileName) (h : names.Nodup) : FileSystem where
  tree := .directory 0 [(work, .directory 0 (names.map fun name => (name, .file 1)))]
  proper := by
    have hentries : ∀ names : List FileName,
        DirTree.ProperEntries (names.map fun name => (name, .file 1)) := by
      intro names
      induction names with
      | nil => trivial
      | cons name rest ih => exact ⟨trivial, ih⟩
    refine ⟨by simp, ⟨?_, hentries names⟩, trivial⟩
    rw [List.map_map]
    exact h.map_on fun _ _ _ _ heq => heq

theorem recognised_oneLog : recognised sampleViewer (logs [dashed] (by decide)) ["."] =
    [([work, dashed], .rawLog)] := by decide +kernel

theorem recognised_twoLogs : recognised sampleViewer (logs [spaced, dashed] (by decide)) ["."] =
    [([work, spaced], .rawLog), ([work, dashed], .rawLog)] := by decide +kernel

end Sample

end OpenLagrange.Artifacts
