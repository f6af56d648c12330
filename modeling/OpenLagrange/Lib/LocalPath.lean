/-
Absolute paths, the texts they are written as, and the trees they lead through.

A path is the list of its names, and a name is a text that can stand between two slashes and
means itself: it is not empty, not one dot and not two.  A text is resolved against a directory
by taking its parts one after the other; what is empty or a single dot is passed over, and a
double dot steps back.

A relative text is sometimes made of an absolute one by taking the directory's text out of it,
wherever it occurs.  `resolve_cutOut_iff` says for which paths that leads back to them.
-/
import Mathlib.Algebra.Ring.Nat
import Mathlib.Data.List.Induction
import Mathlib.Data.List.Nodup
import OpenLagrange.Lib.Glob

namespace LocalPath

open Glob (split joined split_joined joined_split joined_cons joined_append split_ne_nil)

/-! ### Taking a part out of a text -/

section CutOut

variable {α : Type} [DecidableEq α]

/-- The text without the occurrences of a part, taken from the left; `skip` characters belong to
the occurrence before. -/
def cutFrom (part : List α) : Nat → List α → List α
  | _, [] => []
  | skip + 1, _ :: rest => cutFrom part skip rest
  | 0, c :: rest =>
      if part.isPrefixOf (c :: rest) then cutFrom part (part.length - 1) rest
      else c :: cutFrom part 0 rest

/-- `text.split(part).join("")`. -/
def cutOut (part text : List α) : List α := cutFrom part 0 text

variable {part : List α}

theorem cutFrom_skip (skip : Nat) (text : List α) :
    cutFrom part skip text = cutFrom part 0 (text.drop skip) := by
  induction text generalizing skip with
  | nil => cases skip <;> rfl
  | cons c rest ih =>
      cases skip with
      | zero => rfl
      | succ skip => exact ih skip

theorem length_cutFrom_le (part text : List α) : (cutFrom part 0 text).length ≤ text.length := by
  induction h : text.length using Nat.strong_induction_on generalizing text with
  | _ n ih =>
      cases text with
      | nil => exact Nat.zero_le _
      | cons c rest =>
          rw [List.length_cons] at h
          unfold cutFrom
          split
          · rw [cutFrom_skip]
            have hdrop : (rest.drop (part.length - 1)).length ≤ rest.length := by
              rw [List.length_drop]
              omega
            have hle := ih _ (by omega) (rest.drop (part.length - 1)) rfl
            omega
          · have hle := ih rest.length (by omega) rest rfl
            rw [List.length_cons]
            omega

/-- A part that does not occur is not taken out. -/
theorem cutOut_free {text : List α} (h : ¬ part <:+: text) : cutOut part text = text := by
  unfold cutOut
  induction text with
  | nil => rfl
  | cons c rest ih =>
      rw [List.infix_cons_iff, not_or] at h
      unfold cutFrom
      rw [if_neg fun hstart => h.1 (List.isPrefixOf_iff_prefix.mp hstart), ih h.2]

/-- One that occurs is, at least once. -/
theorem length_cutOut_le {text : List α} (hpart : part ≠ []) (h : part <:+: text) :
    (cutOut part text).length + part.length ≤ text.length := by
  unfold cutOut
  induction text with
  | nil => exact absurd (List.infix_nil.mp h) hpart
  | cons c rest ih =>
      unfold cutFrom
      split
      · rename_i hstart
        obtain ⟨after, hafter⟩ := List.isPrefixOf_iff_prefix.mp hstart
        have hlength : part.length ≤ (c :: rest).length := by
          rw [← hafter, List.length_append]
          exact Nat.le_add_right _ _
        have hone : 0 < part.length := List.length_pos_iff.mpr hpart
        rw [cutFrom_skip]
        have hle := length_cutFrom_le part (rest.drop (part.length - 1))
        rw [List.length_drop] at hle
        rw [List.length_cons] at hlength ⊢
        omega
      · rename_i hstart
        rcases List.infix_cons_iff.mp h with hnow | hlater
        · exact absurd (List.isPrefixOf_iff_prefix.mpr hnow) hstart
        · have hle := ih hlater
          rw [List.length_cons, List.length_cons]
          omega

theorem cutOut_singleton (c : α) (text : List α) : cutOut [c] text = text.filter (· ≠ c) := by
  unfold cutOut
  induction text with
  | nil => rfl
  | cons d rest ih =>
      unfold cutFrom
      by_cases hd : d = c
      · rw [if_pos (by simp [hd]), List.filter_cons_of_neg (by simp [hd])]
        exact ih
      · rw [if_neg (by simp [Ne.symm hd]), List.filter_cons_of_pos (by simp [hd]), ih]

theorem cutOut_append {after : List α} (hpart : part ≠ []) :
    cutOut part (part ++ after) = cutOut part after := by
  obtain ⟨c, rest, rfl⟩ := List.exists_cons_of_ne_nil hpart
  have hstart : (c :: rest).isPrefixOf (c :: (rest ++ after)) = true :=
    List.isPrefixOf_iff_prefix.mpr ⟨after, rfl⟩
  rw [cutOut, List.cons_append, cutFrom, if_pos hstart, cutFrom_skip, List.length_cons,
    Nat.add_sub_cancel, List.drop_left]
  rfl

end CutOut

/-! ### Names and paths -/

/-- A text that names one entry of a directory. -/
structure FileName where
  chars : List Char
  nonempty : chars ≠ []
  notDot : chars ≠ ['.']
  notDots : chars ≠ ['.', '.']
  noSlash : '/' ∉ chars
  deriving DecidableEq

abbrev AbsolutePath := List FileName

namespace FileName

/-- A part of a path, if it is a name. -/
def ofChars? (chars : List Char) : Option FileName :=
  if h : chars ≠ [] ∧ chars ≠ ['.'] ∧ chars ≠ ['.', '.'] ∧ '/' ∉ chars then
    some ⟨chars, h.1, h.2.1, h.2.2.1, h.2.2.2⟩
  else none

theorem ofChars?_chars (name : FileName) : ofChars? name.chars = some name :=
  dif_pos ⟨name.nonempty, name.notDot, name.notDots, name.noSlash⟩

theorem chars_of_ofChars? {chars : List Char} {name : FileName} (h : ofChars? chars = some name) :
    name.chars = chars := by
  unfold ofChars? at h
  split at h
  · cases h
    rfl
  · cases h

theorem ext_chars {name name' : FileName} (h : name.chars = name'.chars) : name = name' := by
  have hsame := ofChars?_chars name
  rw [h, ofChars?_chars name'] at hsame
  exact (Option.some.inj hsame).symm

end FileName

namespace AbsolutePath

def text (path : AbsolutePath) : List Char := '/' :: joined '/' (path.map (·.chars))

/-- What the names take up, each with the slash before it. -/
def room (path : AbsolutePath) : Nat := (path.map fun name => name.chars.length + 1).sum

/-- One part of a text further. -/
def step (path : AbsolutePath) (part : List Char) : AbsolutePath :=
  match FileName.ofChars? part with
  | some name => path ++ [name]
  | none => if part = ['.', '.'] then path.dropLast else path

/-- `path.resolve(cwd, text)`. -/
def resolve (cwd : AbsolutePath) (text : List Char) : AbsolutePath :=
  (split '/' text).foldl step (if text.head? = some '/' then [] else cwd)

/-- The text with the directory's taken out of it, and then the first slash. -/
def relativeText (cwd path : AbsolutePath) : List Char :=
  let cut := cutOut cwd.text path.text
  if cut.head? = some '/' then cut.tail else cut

variable {cwd path rest : AbsolutePath}

theorem room_append : room (path ++ rest) = room path + room rest := by
  unfold room
  rw [List.map_append, List.sum_append]

theorem length_joined {parts : List (List Char)} (h : parts ≠ []) :
    (joined '/' parts).length + 1 = (parts.map fun part => part.length + 1).sum := by
  induction parts with
  | nil => exact absurd rfl h
  | cons part others ih =>
      by_cases hnil : others = []
      · subst hnil
        rfl
      · have hrest := ih hnil
        rw [joined_cons hnil, List.length_append, List.length_cons, List.map_cons, List.sum_cons]
        omega

theorem length_text (h : path ≠ []) : path.text.length = room path := by
  have hlength := @length_joined (path.map (·.chars)) (by simpa using h)
  rw [text, List.length_cons, hlength, List.map_map]
  rfl

theorem text_append (hcwd : cwd ≠ []) (hrest : rest ≠ []) :
    (cwd ++ rest).text = cwd.text ++ rest.text := by
  unfold text
  rw [List.map_append, joined_append (by simpa using hcwd) (by simpa using hrest)]
  rfl

theorem split_names (h : path ≠ []) : split '/' (joined '/' (path.map (·.chars))) =
    path.map (·.chars) := by
  refine split_joined ?_ (by simpa using h)
  intro chars hchars
  obtain ⟨name, -, rfl⟩ := List.mem_map.mp hchars
  exact name.noSlash

/-- Two slashes never stand next to one another. -/
theorem no_double_slash : ¬ ['/', '/'] <:+: joined '/' (path.map (·.chars)) := by
  intro hinfix
  by_cases h : path = []
  · subst h
    exact absurd (List.infix_nil.mp hinfix) (by simp)
  · obtain ⟨before, after, hsplit⟩ := hinfix
    have hparts := split_names h
    rw [← hsplit, List.append_assoc, List.cons_append, Glob.split_append, List.singleton_append,
      Glob.split_sep] at hparts
    have hempty : ([] : List Char) ∈ path.map (·.chars) := by
      rw [← hparts]
      exact List.mem_append_right _ List.mem_cons_self
    obtain ⟨name, -, hname⟩ := List.mem_map.mp hempty
    exact name.nonempty hname

theorem head_joined (h : path ≠ []) : (joined '/' (path.map (·.chars))).head? ≠ some '/' := by
  obtain ⟨name, rest, rfl⟩ := List.exists_cons_of_ne_nil h
  obtain ⟨c, others, hchars⟩ := List.exists_cons_of_ne_nil name.nonempty
  have hc : c ≠ '/' := by
    intro heq
    refine name.noSlash ?_
    rw [hchars, heq]
    exact List.mem_cons_self
  rw [List.map_cons, hchars]
  intro hhead
  by_cases hnil : rest.map (·.chars) = []
  · rw [hnil] at hhead
    exact hc (Option.some.inj hhead)
  · rw [joined_cons hnil] at hhead
    exact hc (Option.some.inj hhead)

theorem foldl_step_names (start names : AbsolutePath) :
    (names.map (·.chars)).foldl step start = start ++ names := by
  induction names generalizing start with
  | nil => exact (List.append_nil _).symm
  | cons name rest ih =>
      have hstep : step start name.chars = start ++ [name] := by
        unfold step
        rw [FileName.ofChars?_chars]
      rw [List.map_cons, List.foldl_cons, hstep, ih, List.append_assoc, List.singleton_append]

/-- **Where nothing is stepped back over, the path goes on from the directory.** -/
theorem foldl_step_extends (start : AbsolutePath) {parts : List (List Char)}
    (h : ['.', '.'] ∉ parts) : ∃ names, parts.foldl step start = start ++ names := by
  induction parts generalizing start with
  | nil => exact ⟨[], (List.append_nil _).symm⟩
  | cons part rest ih =>
      rw [List.mem_cons, not_or] at h
      rw [List.foldl_cons]
      obtain ⟨names, hnames⟩ := ih (step start part) h.2
      rw [hnames]
      unfold step
      cases FileName.ofChars? part with
      | none =>
          rw [if_neg (Ne.symm h.1)]
          exact ⟨names, rfl⟩
      | some name => exact ⟨name :: names, by rw [List.append_assoc, List.singleton_append]⟩

theorem room_dropLast_le (path : AbsolutePath) : room path.dropLast ≤ room path := by
  rcases List.eq_nil_or_concat path with rfl | ⟨front, last, rfl⟩
  · exact Nat.le_refl _
  · rw [List.concat_eq_append, List.dropLast_concat, room_append]
    exact Nat.le_add_right _ _

/-- A text does not make a path longer than it is, and a double dot does not count. -/
theorem room_foldl_step_le (start : AbsolutePath) (parts : List (List Char)) :
    room (parts.foldl step start) + (if ['.', '.'] ∈ parts then 3 else 0) ≤
      room start + (parts.map fun part => part.length + 1).sum := by
  induction parts generalizing start with
  | nil => simp
  | cons part rest ih =>
      have hrest := ih (step start part)
      rw [List.foldl_cons, List.map_cons, List.sum_cons]
      by_cases hdots : part = ['.', '.']
      · have hstep : step start part = start.dropLast := by
          rw [hdots]
          rfl
        have hdrop := room_dropLast_le start
        have hlength : part.length = 2 := by rw [hdots]; rfl
        rw [hstep] at hrest ⊢
        rw [if_pos (hdots ▸ List.mem_cons_self)]
        split at hrest <;> omega
      · have hmem : ['.', '.'] ∈ part :: rest ↔ ['.', '.'] ∈ rest := by
          rw [List.mem_cons]
          exact or_iff_right (Ne.symm hdots)
        have hstep : room (step start part) ≤ room start + (part.length + 1) := by
          unfold step
          cases hname : FileName.ofChars? part with
          | none =>
              rw [if_neg hdots]
              exact Nat.le_add_right _ _
          | some name =>
              rw [room_append, ← FileName.chars_of_ofChars? hname]
              exact Nat.le_refl _
        simp only [hmem]
        omega

theorem resolve_parts (text : List Char) :
    ((split '/' text).map fun part => part.length + 1).sum = text.length + 1 := by
  rw [← length_joined split_ne_nil, joined_split]

theorem text_injective {path path' : AbsolutePath} (h : path.text = path'.text) : path = path' := by
  have hjoined : joined '/' (path.map (·.chars)) = joined '/' (path'.map (·.chars)) :=
    List.tail_eq_of_cons_eq h
  have hsplit : split '/' (joined '/' (path.map (·.chars))) =
      split '/' (joined '/' (path'.map (·.chars))) := congrArg _ hjoined
  by_cases hnil : path = []
  · by_cases hnil' : path' = []
    · rw [hnil, hnil']
    · rw [split_names hnil', hnil] at hsplit
      have hempty : ([] : List Char) ∈ path'.map (·.chars) := by
        rw [← hsplit]
        exact List.mem_cons_self
      obtain ⟨name, -, hname⟩ := List.mem_map.mp hempty
      exact absurd hname name.nonempty
  · by_cases hnil' : path' = []
    · rw [split_names hnil, hnil'] at hsplit
      have hempty : ([] : List Char) ∈ path.map (·.chars) := by
        rw [hsplit]
        exact List.mem_cons_self
      obtain ⟨name, -, hname⟩ := List.mem_map.mp hempty
      exact absurd hname name.nonempty
    · rw [split_names hnil, split_names hnil'] at hsplit
      exact List.map_injective_iff.mpr (fun _ _ => FileName.ext_chars) hsplit

/-- The text of a path is resolved to it from anywhere. -/
theorem resolve_text (cwd path : AbsolutePath) : resolve cwd path.text = path := by
  have hempty : step [] [] = [] := rfl
  unfold resolve text
  rw [List.head?_cons, if_pos rfl, Glob.split_sep, List.foldl_cons, hempty]
  by_cases hpath : path = []
  · rw [hpath]
    rfl
  · rw [split_names hpath, foldl_step_names, List.nil_append]

/-! ### From the relative text back to the path -/

/-- The path goes on from the directory, and the text of what follows does not hold the directory's
again.  At the root nothing but an entry of the root itself will do. -/
def GoesOn (cwd path : AbsolutePath) : Prop :=
  (cwd = [] ∧ path.length = 1) ∨
    cwd ≠ [] ∧ ∃ rest : AbsolutePath,
      rest ≠ [] ∧ path = cwd ++ rest ∧ ¬ cwd.text <:+: rest.text

theorem relativeText_of_goesOn (h : GoesOn cwd path) :
    ∃ rest : AbsolutePath, rest ≠ [] ∧ path = cwd ++ rest ∧
      relativeText cwd path = joined '/' (rest.map (·.chars)) := by
  rcases h with ⟨rfl, hone⟩ | ⟨hcwd, rest, hrest, rfl, hfree⟩
  · obtain ⟨name, rfl⟩ := List.length_eq_one_iff.mp hone
    refine ⟨[name], by simp, rfl, ?_⟩
    have hcut : cutOut (text []) (text [name]) = name.chars := by
      have hsplit : text [name] = text [] ++ name.chars := rfl
      rw [hsplit, cutOut_append (by simp [text])]
      refine cutOut_free ?_
      intro hoccurs
      exact name.noSlash (hoccurs.subset List.mem_cons_self)
    have hhead := @head_joined [name] (by simp)
    unfold relativeText
    rw [hcut]
    exact if_neg hhead
  · refine ⟨rest, hrest, rfl, ?_⟩
    unfold relativeText
    rw [text_append hcwd hrest, cutOut_append (by simp [text]), cutOut_free hfree]
    exact if_pos rfl

theorem resolve_of_goesOn (h : GoesOn cwd path) :
    relativeText cwd path ≠ [] ∧ resolve cwd (relativeText cwd path) = path := by
  obtain ⟨rest, hrest, rfl, hrelative⟩ := relativeText_of_goesOn h
  have hhead := head_joined hrest
  refine ⟨?_, ?_⟩
  · rw [hrelative]
    intro hnil
    have hparts := split_names hrest
    rw [hnil] at hparts
    obtain ⟨name, others, rfl⟩ := List.exists_cons_of_ne_nil hrest
    change [[]] = name.chars :: _ at hparts
    exact name.nonempty (List.cons.inj hparts).1.symm
  · unfold resolve
    rw [hrelative, if_neg hhead, split_names hrest, foldl_step_names]

theorem length_relativeText_le (cwd path : AbsolutePath) :
    (relativeText cwd path).length ≤ (cutOut cwd.text path.text).length := by
  unfold relativeText
  dsimp only
  split
  · rw [List.length_tail]
    exact Nat.sub_le _ _
  · exact Nat.le_refl _

/-- A text that is resolved to a path is at least as long as what it adds to the directory. -/
theorem room_resolve_le (cwd : AbsolutePath) (text : List Char) :
    room (resolve cwd text) + (if ['.', '.'] ∈ split '/' text then 3 else 0) ≤
      room (if text.head? = some '/' then [] else cwd) + (text.length + 1) := by
  have hle := room_foldl_step_le (if text.head? = some '/' then [] else cwd) (split '/' text)
  rw [resolve_parts] at hle
  exact hle

theorem ne_nil_of_relativeText (h : relativeText cwd path ≠ []) : path ≠ [] := by
  rintro rfl
  have hcut : cutOut cwd.text (text []) = [] ∨ cutOut cwd.text (text []) = ['/'] := by
    by_cases hinfix : cwd.text <:+: text []
    · have hle := length_cutOut_le (by simp [text]) hinfix
      have hone : (text []).length = 1 := rfl
      have hsome : 1 ≤ cwd.text.length := by simp [text]
      exact Or.inl (List.length_eq_zero_iff.mp (by omega))
    · exact Or.inr (cutOut_free hinfix)
  unfold relativeText at h
  rcases hcut with hnil | hslash
  · rw [hnil] at h
    exact h rfl
  · rw [hslash] at h
    exact h rfl

theorem goesOn_root {path : AbsolutePath} (hpath : path ≠ [])
    (hresolve : resolve [] (relativeText [] path) = path) : path.length = 1 := by
  have hfree : '/' ∉ relativeText [] path := by
    unfold relativeText
    have hcut : '/' ∉ cutOut (text []) path.text := by
      have hroot : text [] = ['/'] := rfl
      rw [hroot, cutOut_singleton]
      simp
    dsimp only
    split
    · exact fun hmem => hcut (List.mem_of_mem_tail hmem)
    · exact hcut
  unfold resolve at hresolve
  rw [Glob.split_free hfree, List.foldl_cons, List.foldl_nil, ite_self] at hresolve
  have hle : path.length ≤ 1 := by
    rw [← hresolve]
    unfold step
    split
    · exact Nat.le_refl _
    · split <;> exact Nat.zero_le _
  have hpos := List.length_pos_iff.mpr hpath
  omega

/-- **The relative text leads back exactly to the paths that go on from the directory.** -/
theorem resolve_relativeText_iff :
    (relativeText cwd path ≠ [] ∧ resolve cwd (relativeText cwd path) = path) ↔
      GoesOn cwd path := by
  refine ⟨?_, resolve_of_goesOn⟩
  rintro ⟨hrelative, hresolve⟩
  have hpath := ne_nil_of_relativeText hrelative
  by_cases hcwd : cwd = []
  · subst hcwd
    exact Or.inl ⟨rfl, goesOn_root hpath hresolve⟩
  refine Or.inr ⟨hcwd, ?_⟩
  have hwidth := length_text hcwd
  have htotal := length_text hpath
  have htwo : 2 ≤ cwd.text.length := by
    obtain ⟨name, rest, rfl⟩ := List.exists_cons_of_ne_nil hcwd
    have hname := List.length_pos_iff.mpr name.nonempty
    rw [hwidth, room, List.map_cons, List.sum_cons]
    omega
  have hroom := room_resolve_le cwd (relativeText cwd path)
  rw [hresolve] at hroom
  have hshort := length_relativeText_le cwd path
  by_cases hinfix : cwd.text <:+: path.text
  · have hcut := length_cutOut_le (by simp [text]) hinfix
    have hplain : (relativeText cwd path).head? ≠ some '/' := by
      intro hslash
      rw [if_pos hslash] at hroom
      have hroot : room [] = 0 := rfl
      omega
    rw [if_neg hplain] at hroom
    have hnodots : ['.', '.'] ∉ split '/' (relativeText cwd path) := by
      intro hdots
      rw [if_pos hdots] at hroom
      omega
    obtain ⟨rest, hrest⟩ := foldl_step_extends cwd hnodots
    have hsame : path = cwd ++ rest := by
      have hstart : resolve cwd (relativeText cwd path) =
          (split '/' (relativeText cwd path)).foldl step cwd := by
        unfold resolve
        rw [if_neg hplain]
      rw [← hrest, ← hstart, hresolve]
    have hne : rest ≠ [] := by
      rintro rfl
      rw [List.append_nil] at hsame
      have hall : cutOut cwd.text path.text = [] := by
        have hnil := @cutOut_append _ _ cwd.text [] (by simp [text])
        rw [List.append_nil] at hnil
        rw [hsame, hnil]
        rfl
      rw [hall] at hshort
      exact hrelative (List.length_eq_zero_iff.mp (Nat.le_zero.mp hshort))
    refine ⟨rest, hne, hsame, ?_⟩
    intro hagain
    have hcut' := length_cutOut_le (by simp [text]) hagain
    have hafter : cutOut cwd.text path.text = cutOut cwd.text rest.text := by
      rw [hsame, text_append hcwd hne, cutOut_append (by simp [text])]
    have hlength : path.text.length = cwd.text.length + rest.text.length := by
      rw [hsame, text_append hcwd hne, List.length_append]
    rw [hafter] at hshort
    rw [if_neg hnodots] at hroom
    omega
  · have hjoined : relativeText cwd path = joined '/' (path.map (·.chars)) := by
      unfold relativeText
      rw [cutOut_free hinfix]
      exact if_pos rfl
    have hback : resolve cwd (relativeText cwd path) = cwd ++ path := by
      unfold resolve
      rw [hjoined, if_neg (head_joined hpath), split_names hpath, foldl_step_names]
    rw [hback] at hresolve
    exact absurd (List.append_left_eq_self.mp hresolve) hcwd

/-! ### Joining a name to a text -/

/-- One part of a text that is being normalised: an empty part and a single dot are passed over,
and a double dot takes back the name before it, if there is one. -/
def normalStep (absolute : Bool) (done : List (List Char)) (part : List Char) :
    List (List Char) :=
  if part = [] ∨ part = ['.'] then done
  else if part ≠ ['.', '.'] then done ++ [part]
  else if done = [] ∨ done.getLast? = some ['.', '.'] then if absolute then done else done ++ [part]
  else done.dropLast

/-- The parts that are left of a text. -/
def normalParts (text : List Char) : List (List Char) :=
  (split '/' text).foldl (normalStep (text.head? = some '/')) []

/-- `path.join(text, name)`. -/
def join (text : List Char) (name : FileName) : List Char :=
  (if text.head? = some '/' then ['/'] else []) ++ joined '/' (normalParts text ++ [name.chars])

/-- What is left are names, and double dots where the text is relative. -/
def Normal (absolute : Bool) (parts : List (List Char)) : Prop :=
  ∀ part ∈ parts, (∃ name : FileName, part = name.chars) ∨ absolute = false ∧ part = ['.', '.']

theorem ofChars?_of_plain {part : List Char} (hempty : part ≠ []) (hdot : part ≠ ['.'])
    (hdots : part ≠ ['.', '.']) (hslash : '/' ∉ part) :
    ∃ name : FileName, FileName.ofChars? part = some name ∧ part = name.chars :=
  ⟨⟨part, hempty, hdot, hdots, hslash⟩, dif_pos ⟨hempty, hdot, hdots, hslash⟩, rfl⟩

theorem normal_step {absolute : Bool} {done : List (List Char)} {part : List Char}
    (hslash : '/' ∉ part) (h : Normal absolute done) :
    Normal absolute (normalStep absolute done part) := by
  have hmore : (∃ name : FileName, part = name.chars) ∨ absolute = false ∧ part = ['.', '.'] →
      Normal absolute (done ++ [part]) := by
    intro hpart other hmem
    rcases List.mem_append.mp hmem with hold | hnew
    · exact h other hold
    · rw [List.mem_singleton.mp hnew]
      exact hpart
  unfold normalStep
  split
  · exact h
  · rename_i hplain
    rw [not_or] at hplain
    split
    · rename_i hdots
      obtain ⟨name, -, hname⟩ := ofChars?_of_plain hplain.1 hplain.2 hdots hslash
      exact hmore (Or.inl ⟨name, hname⟩)
    · rename_i hdots
      rw [ne_eq, not_not] at hdots
      split
      · cases absolute with
        | true => exact h
        | false => exact hmore (Or.inr ⟨rfl, hdots⟩)
      · exact fun other hmem => h other (List.mem_of_mem_dropLast hmem)

theorem step_dots (path : AbsolutePath) : step path ['.', '.'] = path.dropLast := rfl

/-- **The parts that are left lead where all of them led.** -/
theorem foldl_normal_step {absolute : Bool} {start : AbsolutePath}
    (hstart : absolute = true → start = []) {done : List (List Char)} {part : List Char}
    (hslash : '/' ∉ part) (h : Normal absolute done) :
    (normalStep absolute done part).foldl step start = step (done.foldl step start) part := by
  unfold normalStep
  split
  · rename_i hpassed
    rcases hpassed with rfl | rfl
    · rfl
    · rfl
  · split
    · exact List.foldl_concat ..
    · rename_i hdots
      rw [ne_eq, not_not] at hdots
      subst hdots
      split
      · rename_i hlast
        cases absolute with
        | false => exact List.foldl_concat ..
        | true =>
            -- An absolute text keeps no double dot, so nothing is left to step back over.
            have hnil : done = [] := by
              rcases hlast with hnil | hlast
              · exact hnil
              · rcases h _ (List.mem_of_getLast? hlast) with ⟨name, hname⟩ | ⟨hfalse, -⟩
                · exact absurd hname.symm name.notDots
                · cases hfalse
            subst hnil
            rw [hstart rfl]
            rfl
      · rename_i hlast
        rw [not_or] at hlast
        rcases List.eq_nil_or_concat done with rfl | ⟨front, last, rfl⟩
        · exact absurd rfl hlast.1
        · rw [List.concat_eq_append] at hlast h ⊢
          rcases h last (List.mem_append_right _ (List.mem_singleton_self _)) with
            ⟨name, rfl⟩ | ⟨-, rfl⟩
          · have hname : step (front.foldl step start) name.chars =
                front.foldl step start ++ [name] := by
              unfold step
              rw [FileName.ofChars?_chars]
            rw [List.dropLast_concat, List.foldl_concat, hname, step_dots, List.dropLast_concat]
          · exact absurd List.getLast?_concat hlast.2

theorem normalParts_spec {text : List Char} {start : AbsolutePath}
    (hstart : (text.head? = some '/') → start = []) :
    Normal (text.head? = some '/') (normalParts text) ∧
      (normalParts text).foldl step start = (split '/' text).foldl step start := by
  have hfold : ∀ parts : List (List Char), (∀ part ∈ parts, '/' ∉ part) →
      Normal (text.head? = some '/') (parts.foldl (normalStep (text.head? = some '/')) []) ∧
        (parts.foldl (normalStep (text.head? = some '/')) []).foldl step start =
          parts.foldl step start := by
    intro parts
    induction parts using List.reverseRecOn with
    | nil =>
        intro _
        exact ⟨fun part hmem => absurd hmem List.not_mem_nil, rfl⟩
    | append_singleton parts part ih =>
        intro hslash
        obtain ⟨hnormal, hsame⟩ := ih fun part hmem => hslash part (List.mem_append_left _ hmem)
        have hpart := hslash part (List.mem_append_right _ (List.mem_singleton_self _))
        rw [List.foldl_concat, List.foldl_concat, ← hsame]
        refine ⟨normal_step hpart hnormal, foldl_normal_step ?_ hpart hnormal⟩
        intro habsolute
        exact hstart (of_decide_eq_true habsolute)
  exact hfold _ fun part hmem => Glob.sep_not_mem_split hmem

theorem normal_plain {absolute : Bool} {parts : List (List Char)} (h : Normal absolute parts)
    {part : List Char} (hmem : part ∈ parts) : part ≠ [] ∧ '/' ∉ part := by
  rcases h part hmem with ⟨name, rfl⟩ | ⟨-, rfl⟩
  · exact ⟨name.nonempty, name.noSlash⟩
  · decide

/-- The parts of what a name is joined to, and the name. -/
theorem joined_parts_plain (text : List Char) (name : FileName) {part : List Char}
    (hmem : part ∈ normalParts text ++ [name.chars]) : part ≠ [] ∧ '/' ∉ part := by
  have hstart : text.head? = some '/' → ([] : AbsolutePath) = [] := fun _ => rfl
  rcases List.mem_append.mp hmem with hold | hnew
  · exact normal_plain (normalParts_spec hstart).1 hold
  · rw [List.mem_singleton.mp hnew]
    exact ⟨name.nonempty, name.noSlash⟩

theorem head_joined_parts {parts : List (List Char)} (hne : parts ≠ [])
    (h : ∀ part ∈ parts, part ≠ [] ∧ '/' ∉ part) : (joined '/' parts).head? ≠ some '/' := by
  obtain ⟨part, rest, rfl⟩ := List.exists_cons_of_ne_nil hne
  obtain ⟨hnonempty, hslash⟩ := h part List.mem_cons_self
  obtain ⟨c, others, rfl⟩ := List.exists_cons_of_ne_nil hnonempty
  have hc : c ≠ '/' := fun heq => hslash (heq ▸ List.mem_cons_self)
  intro hhead
  by_cases hnil : rest = []
  · subst hnil
    exact hc (Option.some.inj hhead)
  · rw [joined_cons hnil] at hhead
    exact hc (Option.some.inj hhead)

/-- **A joined text leads to the name in the directory that the text leads to.** -/
theorem resolve_join (cwd : AbsolutePath) (text : List Char) (name : FileName) :
    resolve cwd (join text name) = resolve cwd text ++ [name] := by
  have hne : normalParts text ++ [name.chars] ≠ [] := by simp
  have hplain : ∀ part ∈ normalParts text ++ [name.chars], part ≠ [] ∧ '/' ∉ part :=
    fun part hmem => joined_parts_plain text name hmem
  have hsplit := split_joined (fun part hmem => (hplain part hmem).2) hne
  have hname : ∀ path : AbsolutePath, step path name.chars = path ++ [name] := by
    intro path
    unfold step
    rw [FileName.ofChars?_chars]
  unfold resolve join
  by_cases habsolute : text.head? = some '/'
  · have hparts := (@normalParts_spec text [] fun _ => rfl).2
    rw [if_pos habsolute, if_pos habsolute, List.singleton_append, List.head?_cons, if_pos rfl,
      Glob.split_sep, List.foldl_cons, hsplit, List.foldl_concat, hname]
    exact congrArg (· ++ [name]) hparts
  · have hparts := (@normalParts_spec text cwd fun h => absurd h habsolute).2
    rw [if_neg habsolute, if_neg habsolute, List.nil_append, if_neg (head_joined_parts hne hplain),
      hsplit, List.foldl_concat, hname, hparts]

/-- A joined text has no two slashes in a row. -/
theorem join_no_double_slash (text : List Char) (name : FileName) :
    ¬ ['/', '/'] <:+: join text name := by
  have hne : normalParts text ++ [name.chars] ≠ [] := by simp
  have hplain : ∀ part ∈ normalParts text ++ [name.chars], part ≠ [] ∧ '/' ∉ part :=
    fun part hmem => joined_parts_plain text name hmem
  have hfree : ¬ ['/', '/'] <:+: joined '/' (normalParts text ++ [name.chars]) := by
    rintro ⟨before, after, hsplit⟩
    have hparts := split_joined (fun part hmem => (hplain part hmem).2) hne
    rw [← hsplit, List.append_assoc, List.cons_append, Glob.split_append, List.singleton_append,
      Glob.split_sep] at hparts
    have hempty : ([] : List Char) ∈ normalParts text ++ [name.chars] := by
      rw [← hparts]
      exact List.mem_append_right _ List.mem_cons_self
    exact (hplain _ hempty).1 rfl
  unfold join
  split
  · rw [List.singleton_append, List.infix_cons_iff, not_or]
    refine ⟨?_, hfree⟩
    rintro ⟨rest, hrest⟩
    have hhead := head_joined_parts hne hplain
    rw [← List.tail_eq_of_cons_eq hrest] at hhead
    exact hhead rfl
  · exact hfree

end AbsolutePath

/-! ### Trees -/

/-- A file or a directory with what it contains, in the order it is listed in; each has a size. -/
inductive DirTree where
  | file (size : Nat)
  | directory (size : Nat) (entries : List (FileName × DirTree))

namespace DirTree

mutual

/-- The files below a path, directory by directory. -/
def walk (path : AbsolutePath) : DirTree → List AbsolutePath
  | .file _ => [path]
  | .directory _ entries => walkEntries path entries

def walkEntries (path : AbsolutePath) : List (FileName × DirTree) → List AbsolutePath
  | [] => []
  | (name, tree) :: rest => walk (path ++ [name]) tree ++ walkEntries path rest

end

mutual

/-- No directory has two entries of one name. -/
def Proper : DirTree → Prop
  | .file _ => True
  | .directory _ entries => (entries.map Prod.fst).Nodup ∧ ProperEntries entries

def ProperEntries : List (FileName × DirTree) → Prop
  | [] => True
  | (_, tree) :: rest => Proper tree ∧ ProperEntries rest

end

/-- What stands at a path from here. -/
def find : AbsolutePath → DirTree → Option DirTree
  | [], tree => some tree
  | _ :: _, .file _ => none
  | name :: rest, .directory _ entries =>
      match entries.find? fun entry => entry.1 = name with
      | some entry => find rest entry.2
      | none => none

def size : DirTree → Nat
  | .file size => size
  | .directory size _ => size

/-- The size of the file at a path from here, if there is a file. -/
def fileSize (tree : DirTree) (path : AbsolutePath) : Option Nat :=
  match tree.find path with
  | some (.file size) => some size
  | _ => none

theorem find_append (path rest : AbsolutePath) (tree : DirTree) :
    find (path ++ rest) tree = (find path tree).bind (find rest) := by
  induction path generalizing tree with
  | nil => rfl
  | cons name path ih =>
      cases tree with
      | file size => rfl
      | directory size entries =>
          rw [List.cons_append, find, find]
          cases entries.find? fun entry => entry.1 = name with
          | none => rfl
          | some entry => exact ih entry.2

theorem properEntries_mem {entries : List (FileName × DirTree)} (h : ProperEntries entries)
    {entry : FileName × DirTree} (hmem : entry ∈ entries) : entry.2.Proper := by
  induction entries with
  | nil => exact absurd hmem List.not_mem_nil
  | cons first rest ih =>
      obtain ⟨hfirst, hrest⟩ := h
      rcases List.mem_cons.mp hmem with rfl | hlater
      · exact hfirst
      · exact ih hrest hlater

/-- In a directory an entry is found under its name. -/
theorem find?_entry {entries : List (FileName × DirTree)} (h : (entries.map Prod.fst).Nodup)
    {entry : FileName × DirTree} (hmem : entry ∈ entries) :
    (entries.find? fun other => other.1 = entry.1) = some entry := by
  cases hfind : entries.find? fun other => other.1 = entry.1 with
  | none => exact absurd (decide_eq_true rfl) (List.find?_eq_none.mp hfind entry hmem)
  | some found =>
      have hname := List.find?_some hfind
      have hsame : found = entry := List.inj_on_of_nodup_map h (List.mem_of_find?_eq_some hfind)
        hmem (of_decide_eq_true hname)
      rw [hsame]

theorem find_proper {path : AbsolutePath} {tree found : DirTree} (h : tree.Proper)
    (hfind : find path tree = some found) : found.Proper := by
  induction path generalizing tree with
  | nil =>
      cases hfind
      exact h
  | cons name rest ih =>
      cases tree with
      | file size => cases hfind
      | directory size entries =>
          rw [find] at hfind
          cases hentry : entries.find? fun entry => entry.1 = name with
          | none =>
              rw [hentry] at hfind
              cases hfind
          | some entry =>
              rw [hentry] at hfind
              exact ih (properEntries_mem h.2 (List.mem_of_find?_eq_some hentry)) hfind

mutual

theorem mem_walk {tree : DirTree} (h : tree.Proper) {path file : AbsolutePath} :
    file ∈ walk path tree ↔ ∃ rest size, file = path ++ rest ∧ find rest tree = some (.file size) := by
  cases tree with
  | file size =>
      rw [walk, List.mem_singleton]
      constructor
      · intro heq
        exact ⟨[], size, heq.trans (List.append_nil _).symm, rfl⟩
      · rintro ⟨rest, size', heq, hfind⟩
        cases rest with
        | nil => exact heq.trans (List.append_nil _)
        | cons name rest => cases hfind
  | directory size entries =>
      obtain ⟨hnames, hentries⟩ := h
      rw [walk, mem_walkEntries hentries]
      constructor
      · rintro ⟨entry, hmem, rest, size', heq, hfind⟩
        refine ⟨entry.1 :: rest, size', heq, ?_⟩
        rw [find, find?_entry hnames hmem]
        exact hfind
      · rintro ⟨rest, size', heq, hfind⟩
        cases rest with
        | nil => cases hfind
        | cons name rest =>
            rw [find] at hfind
            cases hentry : entries.find? fun entry => entry.1 = name with
            | none =>
                rw [hentry] at hfind
                cases hfind
            | some entry =>
                rw [hentry] at hfind
                have hname := List.find?_some hentry
                rw [← of_decide_eq_true hname] at heq
                exact ⟨entry, List.mem_of_find?_eq_some hentry, rest, size', heq, hfind⟩

theorem mem_walkEntries {entries : List (FileName × DirTree)} (h : ProperEntries entries)
    {path file : AbsolutePath} :
    file ∈ walkEntries path entries ↔ ∃ entry ∈ entries, ∃ rest size,
      file = path ++ entry.1 :: rest ∧ find rest entry.2 = some (.file size) := by
  cases entries with
  | nil =>
      refine iff_of_false List.not_mem_nil ?_
      rintro ⟨entry, hmem, -⟩
      exact absurd hmem List.not_mem_nil
  | cons entry rest =>
      obtain ⟨hfirst, hrest⟩ := h
      rw [walkEntries, List.mem_append, mem_walk hfirst, mem_walkEntries hrest]
      constructor
      · rintro (⟨rest', size, heq, hfind⟩ | ⟨other, hmem, hother⟩)
        · refine ⟨entry, List.mem_cons_self, rest', size, ?_, hfind⟩
          rw [heq, List.append_assoc, List.singleton_append]
        · exact ⟨other, List.mem_cons_of_mem _ hmem, hother⟩
      · rintro ⟨other, hmem, rest', size, heq, hfind⟩
        rcases List.mem_cons.mp hmem with rfl | hlater
        · refine Or.inl ⟨rest', size, ?_, hfind⟩
          rw [heq, List.append_assoc, List.singleton_append]
        · exact Or.inr ⟨other, hlater, rest', size, heq, hfind⟩

end

end DirTree

/-- A file system: the tree at the root. -/
structure FileSystem where
  tree : DirTree
  proper : tree.Proper

namespace FileSystem

def find (files : FileSystem) (path : AbsolutePath) : Option DirTree := files.tree.find path

def fileSize (files : FileSystem) (path : AbsolutePath) : Option Nat := files.tree.fileSize path

/-- The files at and below a path, none if nothing stands there. -/
def filesUnder (files : FileSystem) (root : AbsolutePath) : List AbsolutePath :=
  match files.find root with
  | none => []
  | some tree => tree.walk root

/-- **A file is found below the paths it goes on from.** -/
theorem mem_filesUnder {files : FileSystem} {root file : AbsolutePath} :
    file ∈ files.filesUnder root ↔ root <+: file ∧ (files.fileSize file).isSome := by
  unfold filesUnder fileSize DirTree.fileSize
  constructor
  · intro hmem
    cases hroot : files.find root with
    | none =>
        rw [hroot] at hmem
        exact absurd hmem List.not_mem_nil
    | some tree =>
        rw [hroot] at hmem
        obtain ⟨rest, size, rfl, hfind⟩ :=
          (DirTree.mem_walk (DirTree.find_proper files.proper hroot)).mp hmem
        refine ⟨List.prefix_append _ _, ?_⟩
        have htree : files.tree.find root = some tree := hroot
        rw [DirTree.find_append, htree, Option.bind_some, hfind]
        rfl
  · rintro ⟨⟨rest, rfl⟩, hsome⟩
    rw [DirTree.find_append] at hsome
    unfold find
    cases hroot : files.tree.find root with
    | none =>
        rw [hroot] at hsome
        exact absurd hsome Bool.false_ne_true
    | some tree =>
        rw [hroot, Option.bind_some] at hsome
        refine (DirTree.mem_walk (DirTree.find_proper files.proper hroot)).mpr ?_
        cases hrest : tree.find rest with
        | none =>
            rw [hrest] at hsome
            exact absurd hsome Bool.false_ne_true
        | some found =>
            rw [hrest] at hsome
            cases found with
            | file size => exact ⟨rest, size, rfl, hrest⟩
            | directory size entries => exact absurd hsome Bool.false_ne_true

end FileSystem

end LocalPath
