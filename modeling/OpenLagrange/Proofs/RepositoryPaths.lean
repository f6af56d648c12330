/-
Which paths a repository policy lets through.

A path below the root is a list of names.  The tests of the policy look at its text, and here each
is said of the names: what leads out of the root, what is Git's, what looks like a secret.  The
patterns of a workspace are compared with globs over the names.

Four kinds of paths pass although they should not, and three are refused although they should
pass; a path is judged rightly unless exactly one of the two happens and no test that sees right
refuses it anyway.
-/
import OpenLagrange.Lib.Glob
import OpenLagrange.Repository.PathPolicy

namespace OpenLagrange

variable {names front rest : TreePath} {name word pattern : String} {cwd : TreePath}
  {workspace : RepositoryWorkspace} {path : String}

/-! ### Names and their text -/

/-- A name of a file or directory. -/
def Clean (name : String) : Prop := '/' ∉ name.toList ∧ name ≠ ""

theorem toList_slashed : (slashed names).toList = Glob.joined '/' (names.map String.toList) := by
  unfold slashed
  induction names with
  | nil => rfl
  | cons n ns ih =>
      cases ns with
      | nil => rw [String.intercalate_singleton]; rfl
      | cons next ns =>
          rw [String.intercalate_cons_cons, String.toList_append, String.toList_append, ih,
            List.append_assoc]
          rfl

theorem clean_chars (h : ∀ n ∈ names, Clean n) : ∀ n ∈ names.map String.toList, '/' ∉ n := by
  intro n hn
  obtain ⟨m, hm, rfl⟩ := List.mem_map.mp hn
  exact (h m hm).1

theorem split_slashed (h : ∀ n ∈ names, Clean n) (hne : names ≠ []) :
    Glob.split '/' (slashed names).toList = names.map String.toList := by
  rw [toList_slashed]
  exact Glob.split_joined (clean_chars h) (by simpa using hne)

theorem slashed_inj (h : ∀ n ∈ names, Clean n) (hne : names ≠ []) (hrest : ∀ n ∈ rest, Clean n)
    (hne' : rest ≠ []) : slashed names = slashed rest ↔ names = rest := by
  refine ⟨fun heq => ?_, fun heq => by rw [heq]⟩
  have hsplit := split_slashed h hne
  rw [heq, split_slashed hrest hne'] at hsplit
  exact (List.map_injective_iff.mpr fun _ _ => String.toList_inj.mp) hsplit.symm

theorem startsWith_iff {text start : String} :
    startsWith text start = true ↔ start.toList <+: text.toList :=
  List.isPrefixOf_iff_prefix

theorem endsWith_iff {text tail : String} :
    endsWith text tail = true ↔ tail.toList <:+ text.toList :=
  List.isSuffixOf_iff_suffix

theorem includesChars_iff {part text : List Char} :
    includesChars part text = true ↔ part <:+: text := by
  induction text with
  | nil => simp [includesChars]
  | cons c text ih =>
      rw [includesChars, Bool.or_eq_true, ih, List.isPrefixOf_iff_prefix, List.infix_cons_iff]

theorem startsWith_slashed (hword : '/' ∉ word.toList) :
    startsWith (slashed (name :: names)) word = startsWith name word := by
  rw [Bool.eq_iff_iff, startsWith_iff, startsWith_iff, toList_slashed]
  exact Glob.prefix_joined hword

/-! ### Out of the root -/

/-- The first name starts with two dots, or a directory's name ends with them. -/
def Dotted (names : TreePath) : Prop :=
  (∃ name rest, names = name :: rest ∧ startsWith name ".." = true) ∨
    ∃ front name rest, names = front ++ name :: rest ∧ rest ≠ [] ∧ endsWith name ".." = true

theorem leavesDirectory_iff (h : ∀ n ∈ names, Clean n) (hne : names ≠ []) :
    leavesDirectory (slashed names) = true ↔ Dotted names := by
  unfold leavesDirectory Dotted
  rw [Bool.or_eq_true]
  refine or_congr ?_ ?_
  · cases names with
    | nil => exact (hne rfl).elim
    | cons first others =>
        rw [startsWith_slashed (by decide)]
        constructor
        · intro hstart
          exact ⟨first, others, rfl, hstart⟩
        · rintro ⟨n, rest, heq, hstart⟩
          cases heq
          exact hstart
  · have hclosed := Glob.closed_infix_joined (q := "..".toList) (by decide) (clean_chars h)
    unfold includes
    rw [includesChars_iff, toList_slashed]
    refine hclosed.trans ?_
    constructor
    · rintro ⟨front, n, rest, heq, hrest, hsuffix⟩
      obtain ⟨front', tail, rfl, rfl, htail⟩ := List.map_eq_append_iff.mp heq
      obtain ⟨m, rest', rfl, rfl, rfl⟩ := List.map_eq_cons_iff.mp htail
      exact ⟨front', m, rest', rfl, by simpa using hrest, endsWith_iff.mpr hsuffix⟩
    · rintro ⟨front, n, rest, rfl, hrest, hsuffix⟩
      exact ⟨front.map String.toList, n.toList, rest.map String.toList, by simp, by simpa using hrest,
        endsWith_iff.mp hsuffix⟩

/-! ### Git's directory -/

theorem git_iff (h : ∀ n ∈ names, Clean n) (hne : names ≠ []) :
    (slashed names = ".git" ∨ startsWith (slashed names) ".git/" = true) ↔
      names.head? = some ".git" := by
  have hgit : ∀ n ∈ [".git"], Clean n := by
    intro n hn
    rw [List.mem_singleton.mp hn]
    exact ⟨by decide, by decide⟩
  have hwhole : slashed names = ".git" ↔ names = [".git"] := by
    have htext : slashed [".git"] = ".git" := String.intercalate_singleton ..
    rw [← slashed_inj h hne hgit (by simp), htext]
  have hprefix := Glob.cut_prefix_joined (a := ".git".toList) (clean_chars h) (by simpa using hne)
  have hsplit : Glob.split '/' ".git".toList = [".git".toList] := by decide
  rw [hsplit] at hprefix
  have hstart : startsWith (slashed names) ".git/" = true ↔
      ∃ rest, rest ≠ [] ∧ names.map String.toList = [".git".toList] ++ rest := by
    rw [startsWith_iff, toList_slashed, ← hprefix]
    rfl
  rw [hwhole, hstart]
  constructor
  · rintro (rfl | ⟨rest, -, heq⟩)
    · rfl
    · obtain ⟨m, rest', rfl, hm, -⟩ := List.map_eq_cons_iff.mp heq
      rw [List.head?_cons, String.toList_inj.mp hm]
  · intro hhead
    cases names with
    | nil => cases hhead
    | cons first others =>
        rw [List.head?_cons, Option.some.injEq] at hhead
        subst hhead
        by_cases hnil : others = []
        · exact Or.inl (by rw [hnil])
        · exact Or.inr ⟨others.map String.toList, by simpa using hnil, rfl⟩

/-! ### Names that look like secrets -/

/-- The name has no line terminator. -/
def OneLine (name : String) : Prop := name.toList.all (!lineTerminator ·) = true

/-- One of the words is in the name, in capitals or not. -/
def Worded (name : String) : Prop :=
  ∃ word ∈ ["secret", "credential", "token"],
    includesChars word.toList (name.toList.map Char.toLower) = true

/-- The name of a secret file. -/
def SecretName (name : String) : Prop :=
  name = ".env" ∨ startsWith name ".env." = true ∨ endsWith name ".pem" = true ∨
    endsWith name ".key" = true ∨ name = "id_rsa" ∨ name = "id_ed25519" ∨ Worded name

/-- The secrets the expressions see: `.env` and `.env.*` right below the root, keys as the last name
only, and words with no line terminator after them. -/
def SeenSecret (names : TreePath) : Prop :=
  names = [".env"] ∨
    (∃ first rest, names = first :: rest ∧ startsWith first ".env." = true ∧ ∀ n ∈ names, OneLine n) ∨
    (∃ front last, names = front ++ [last] ∧ (last = "id_rsa" ∨ last = "id_ed25519" ∨
      OneLine last ∧ (endsWith last ".pem" = true ∨ endsWith last ".key" = true))) ∨
    ∃ front name rest, names = front ++ name :: rest ∧ Worded name ∧ ∀ n ∈ name :: rest, OneLine n

/-- What is seen is a secret. -/
theorem SeenSecret.secretName (h : SeenSecret names) : ∃ name ∈ names, SecretName name := by
  rcases h with rfl | ⟨first, rest, rfl, hstart, -⟩ | ⟨front, last, rfl, hlast⟩ |
    ⟨front, name, rest, rfl, hword, -⟩
  · exact ⟨".env", List.mem_cons_self, Or.inl rfl⟩
  · exact ⟨first, List.mem_cons_self, Or.inr (Or.inl hstart)⟩
  · refine ⟨last, by simp, ?_⟩
    rcases hlast with h | h | ⟨-, h | h⟩
    · exact Or.inr (Or.inr (Or.inr (Or.inr (Or.inl h))))
    · exact Or.inr (Or.inr (Or.inr (Or.inr (Or.inr (Or.inl h)))))
    · exact Or.inr (Or.inr (Or.inl h))
    · exact Or.inr (Or.inr (Or.inr (Or.inl h)))
  · exact ⟨name, by simp, Or.inr (Or.inr (Or.inr (Or.inr (Or.inr (Or.inr hword)))))⟩

theorem afterSlashes_free {text : List Char} (h : '/' ∉ text) : afterSlashes text = [] := by
  induction text with
  | nil => rfl
  | cons c text ih =>
      rw [afterSlashes, if_neg fun hc => h (by simp [hc]), ih fun hin => h (List.mem_cons_of_mem _ hin)]

theorem afterSlashes_cut {a b : List Char} (ha : '/' ∉ a) :
    afterSlashes (a ++ '/' :: b) = b :: afterSlashes b := by
  induction a with
  | nil => rfl
  | cons c a ih =>
      rw [List.cons_append, afterSlashes, if_neg fun hc => ha (by simp [hc]),
        ih fun hin => ha (List.mem_cons_of_mem _ hin)]

/-- The ends of a path's text that start at a name. -/
theorem mem_segmentEnds {tail : List Char} (h : ∀ n ∈ names, Clean n) (hne : names ≠ []) :
    tail ∈ segmentEnds (slashed names) ↔
      ∃ front rest, names = front ++ rest ∧ rest ≠ [] ∧ tail = (slashed rest).toList := by
  induction names with
  | nil => exact (hne rfl).elim
  | cons n ns ih =>
      unfold segmentEnds
      by_cases hnil : ns = []
      · subst hnil
        have htext : (slashed [n]).toList = n.toList := by
          rw [toList_slashed]
          rfl
        rw [htext, afterSlashes_free (h n (by simp)).1, List.mem_singleton]
        constructor
        · rintro rfl
          exact ⟨[], [n], rfl, by simp, htext.symm⟩
        · rintro ⟨front, rest, heq, hrest, rfl⟩
          rcases List.append_eq_singleton_iff.mp heq.symm with ⟨-, rfl⟩ | ⟨-, rfl⟩
          · exact htext
          · exact (hrest rfl).elim
      · have htext : (slashed (n :: ns)).toList = n.toList ++ '/' :: (slashed ns).toList := by
          rw [toList_slashed, toList_slashed, List.map_cons]
          exact Glob.joined_cons (by simpa using hnil)
        have ih := ih (fun m hm => h m (List.mem_cons_of_mem _ hm)) hnil
        have hends : (slashed ns).toList :: afterSlashes (slashed ns).toList =
            segmentEnds (slashed ns) := rfl
        rw [List.mem_cons, htext, afterSlashes_cut (h n (by simp)).1, hends, ih, ← htext]
        constructor
        · rintro (rfl | ⟨front, rest, rfl, hrest, rfl⟩)
          · exact ⟨[], n :: ns, rfl, by simp, rfl⟩
          · exact ⟨n :: front, rest, rfl, hrest, rfl⟩
        · rintro ⟨front, rest, heq, hrest, rfl⟩
          cases front with
          | nil =>
              rw [List.nil_append] at heq
              exact Or.inl (by rw [heq])
          | cons f front =>
              rw [List.cons_append, List.cons.injEq] at heq
              exact Or.inr ⟨front, rest, heq.2, hrest, rfl⟩

theorem slashed_oneLine :
    (slashed names).toList.all (!lineTerminator ·) = true ↔ ∀ n ∈ names, OneLine n := by
  unfold OneLine
  simp only [List.all_eq_true, Bool.not_eq_true']
  rw [toList_slashed]
  constructor
  · intro h n hn c hc
    by_cases hslash : c = '/'
    · subst hslash
      decide
    · exact h c ((Glob.mem_joined hslash).mpr ⟨n.toList, List.mem_map_of_mem hn, hc⟩)
  · intro h c hc
    by_cases hslash : c = '/'
    · subst hslash
      decide
    · obtain ⟨n, hn, hin⟩ := (Glob.mem_joined hslash).mp hc
      obtain ⟨m, hm, rfl⟩ := List.mem_map.mp hn
      exact h m hm c hin

theorem map_toLower_joined (ns : List (List Char)) :
    (Glob.joined '/' ns).map Char.toLower = Glob.joined '/' (ns.map (List.map Char.toLower)) := by
  induction ns with
  | nil => rfl
  | cons n ns ih =>
      by_cases hnil : ns = []
      · subst hnil
        rfl
      · rw [Glob.joined_cons hnil, List.map_append, List.map_cons, ih, List.map_cons,
          Glob.joined_cons (by simpa using hnil)]
        rfl

theorem worded_slashed {part : List Char} (hpart : '/' ∉ part) (hne : rest ≠ []) :
    includesChars part ((slashed rest).toList.map Char.toLower) = true ↔
      ∃ n ∈ rest, includesChars part (n.toList.map Char.toLower) = true := by
  simp only [includesChars_iff]
  rw [toList_slashed, map_toLower_joined]
  cases rest with
  | nil => exact (hne rfl).elim
  | cons n ns =>
      rw [List.map_cons, List.map_cons, Glob.infix_joined hpart, ← List.map_cons, ← List.map_cons]
      simp only [List.mem_map]
      constructor
      · rintro ⟨_, ⟨_, ⟨m, hm, rfl⟩, rfl⟩, hin⟩
        exact ⟨m, hm, hin⟩
      · rintro ⟨m, hm, hin⟩
        exact ⟨_, ⟨_, ⟨m, hm, rfl⟩, rfl⟩, hin⟩

/-- What the end of a path from one of its names on is tested for. -/
def secretEnd (tail : List Char) : Bool :=
  tail = "id_rsa".toList || tail = "id_ed25519".toList ||
    tail.all (!lineTerminator ·) &&
      (".pem".toList.isSuffixOf tail || ".key".toList.isSuffixOf tail ||
        ["secret", "credential", "token"].any fun word =>
          includesChars word.toList (tail.map Char.toLower))

theorem secretPath_eq (rel : String) : secretPath rel =
    (rel = ".env" || (startsWith rel ".env." && (rel.toList.drop 5).all (!lineTerminator ·)) ||
      (segmentEnds rel).any secretEnd) := rfl

theorem slashed_append_last (front : TreePath) (last : String) :
    (slashed (front ++ [last])).toList = Glob.joined '/' (front.map String.toList ++ [last.toList]) := by
  rw [toList_slashed, List.map_append]
  rfl

/-- A name without slashes is the whole text only where it is the only name. -/
theorem slashed_eq_single (h : ∀ n ∈ names, Clean n) (hne : names ≠ []) {single : String}
    (hsingle : Clean single) : (slashed names).toList = single.toList ↔ names = [single] := by
  have htext : slashed [single] = single := String.intercalate_singleton ..
  rw [String.toList_inj]
  nth_rewrite 1 [← htext]
  refine slashed_inj h hne ?_ (by simp)
  intro n hn
  rw [List.mem_singleton.mp hn]
  exact hsingle

theorem secretEnd_iff (h : ∀ n ∈ rest, Clean n) (hne : rest ≠ []) :
    secretEnd (slashed rest).toList = true ↔
      rest = ["id_rsa"] ∨ rest = ["id_ed25519"] ∨ ((∀ n ∈ rest, OneLine n) ∧
        ((∃ front last, rest = front ++ [last] ∧
          (endsWith last ".pem" = true ∨ endsWith last ".key" = true)) ∨
          ∃ n ∈ rest, Worded n)) := by
  have hsuffix : ∀ {word : String}, '/' ∉ word.toList →
      (word.toList.isSuffixOf (slashed rest).toList = true ↔
        ∃ front last, rest = front ++ [last] ∧ endsWith last word = true) := by
    intro word hword
    rw [List.isSuffixOf_iff_suffix]
    constructor
    · intro hend
      obtain ⟨front, last, rfl⟩ := (List.eq_nil_or_concat' rest).resolve_left hne
      rw [slashed_append_last, Glob.suffix_joined hword] at hend
      exact ⟨front, last, rfl, endsWith_iff.mpr hend⟩
    · rintro ⟨front, last, rfl, hend⟩
      rw [slashed_append_last, Glob.suffix_joined hword]
      exact endsWith_iff.mp hend
  have hwords : (["secret", "credential", "token"].any fun word =>
      includesChars word.toList ((slashed rest).toList.map Char.toLower)) = true ↔
        ∃ n ∈ rest, Worded n := by
    rw [List.any_eq_true]
    constructor
    · rintro ⟨word, hword, hin⟩
      obtain ⟨n, hn, hin⟩ := (worded_slashed (by
        revert hword
        simp only [List.mem_cons, List.not_mem_nil, or_false]
        rintro (rfl | rfl | rfl) <;> decide) hne).mp hin
      exact ⟨n, hn, word, hword, hin⟩
    · rintro ⟨n, hn, word, hword, hin⟩
      refine ⟨word, hword, (worded_slashed ?_ hne).mpr ⟨n, hn, hin⟩⟩
      revert hword
      simp only [List.mem_cons, List.not_mem_nil, or_false]
      rintro (rfl | rfl | rfl) <;> decide
  have hclean : Clean "id_rsa" ∧ Clean "id_ed25519" :=
    ⟨⟨by decide, by decide⟩, by decide, by decide⟩
  have hkeys : (".pem".toList.isSuffixOf (slashed rest).toList = true ∨
      ".key".toList.isSuffixOf (slashed rest).toList = true) ↔ ∃ front last, rest = front ++ [last] ∧
        (endsWith last ".pem" = true ∨ endsWith last ".key" = true) := by
    rw [hsuffix (by decide), hsuffix (by decide)]
    constructor
    · rintro (⟨front, last, heq, hend⟩ | ⟨front, last, heq, hend⟩)
      · exact ⟨front, last, heq, Or.inl hend⟩
      · exact ⟨front, last, heq, Or.inr hend⟩
    · rintro ⟨front, last, heq, hend | hend⟩
      · exact Or.inl ⟨front, last, heq, hend⟩
      · exact Or.inr ⟨front, last, heq, hend⟩
  unfold secretEnd
  simp only [Bool.or_eq_true, Bool.and_eq_true, decide_eq_true_eq]
  rw [hkeys, hwords, slashed_oneLine, slashed_eq_single h hne hclean.1,
    slashed_eq_single h hne hclean.2, or_assoc]

/-- **The expressions see exactly the secrets that are seen.** -/
theorem secretPath_iff (h : ∀ n ∈ names, Clean n) (hne : names ≠ []) :
    secretPath (slashed names) = true ↔ SeenSecret names := by
  have hends : (segmentEnds (slashed names)).any secretEnd = true ↔
      ∃ front rest, names = front ++ rest ∧ rest ≠ [] ∧ secretEnd (slashed rest).toList = true := by
    rw [List.any_eq_true]
    constructor
    · rintro ⟨tail, htail, hsecret⟩
      obtain ⟨front, rest, heq, hrest, rfl⟩ := (mem_segmentEnds h hne).mp htail
      exact ⟨front, rest, heq, hrest, hsecret⟩
    · rintro ⟨front, rest, heq, hrest, hsecret⟩
      exact ⟨_, (mem_segmentEnds h hne).mpr ⟨front, rest, heq, hrest, rfl⟩, hsecret⟩
  have henv : slashed names = ".env" ↔ names = [".env"] := by
    rw [← slashed_eq_single h hne ⟨by decide, by decide⟩, String.toList_inj]
  rw [secretPath_eq]
  simp only [Bool.or_eq_true, Bool.and_eq_true, decide_eq_true_eq]
  rw [henv, hends, or_assoc]
  unfold SeenSecret
  refine or_congr Iff.rfl (or_congr ?_ ?_)
  · cases names with
    | nil => exact (hne rfl).elim
    | cons first others =>
        have hdrop : startsWith (slashed (first :: others)) ".env." = true →
            (((slashed (first :: others)).toList.drop 5).all (!lineTerminator ·) = true ↔
              ∀ n ∈ first :: others, OneLine n) := by
          intro hstart
          obtain ⟨after, hafter⟩ := startsWith_iff.mp hstart
          rw [← slashed_oneLine, ← hafter]
          simp [lineTerminator]
        constructor
        · rintro ⟨hstart, hall⟩
          refine ⟨first, others, rfl, ?_, (hdrop hstart).mp hall⟩
          rwa [startsWith_slashed (by decide)] at hstart
        · rintro ⟨_, _, heq, hstart, hline⟩
          cases heq
          have hstart : startsWith (slashed (first :: others)) ".env." = true := by
            rwa [startsWith_slashed (by decide)]
          exact ⟨hstart, (hdrop hstart).mpr hline⟩
  · constructor
    · rintro ⟨front, rest, rfl, hrest, hsecret⟩
      have hclean : ∀ n ∈ rest, Clean n := fun n hn => h n (List.mem_append_right front hn)
      rcases (secretEnd_iff hclean hrest).mp hsecret with rfl | rfl |
        ⟨hline, ⟨front', last, rfl, hkey⟩ | ⟨n, hn, hword⟩⟩
      · exact Or.inl ⟨front, _, rfl, Or.inl rfl⟩
      · exact Or.inl ⟨front, _, rfl, Or.inr (Or.inl rfl)⟩
      · exact Or.inl ⟨front ++ front', last, (List.append_assoc ..).symm,
          Or.inr (Or.inr ⟨hline last (by simp), hkey⟩)⟩
      · obtain ⟨before, after, rfl⟩ := List.append_of_mem hn
        exact Or.inr ⟨front ++ before, n, after, (List.append_assoc ..).symm, hword,
          fun m hm => hline m (List.mem_append_right before hm)⟩
    · rintro (⟨front, last, rfl, hlast⟩ | ⟨front, name, rest, rfl, hword, hline⟩)
      · have hclean : ∀ n ∈ [last], Clean n := fun n hn => h n (List.mem_append_right front hn)
        refine ⟨front, [last], rfl, by simp, (secretEnd_iff hclean (by simp)).mpr ?_⟩
        rcases hlast with rfl | rfl | ⟨hline, hkey⟩
        · exact Or.inl rfl
        · exact Or.inr (Or.inl rfl)
        · refine Or.inr (Or.inr ⟨?_, Or.inl ⟨[], last, rfl, hkey⟩⟩)
          intro n hn
          rw [List.mem_singleton.mp hn]
          exact hline
      · have hclean : ∀ n ∈ name :: rest, Clean n := fun n hn => h n (List.mem_append_right front hn)
        exact ⟨front, name :: rest, rfl, by simp, (secretEnd_iff hclean (by simp)).mpr
          (Or.inr (Or.inr ⟨hline, Or.inr ⟨name, by simp, hword⟩⟩))⟩

/-! ### Below the root -/

theorem relativePath_below (root : TreePath) : relativePath root (root ++ names) = names := by
  induction root with
  | nil => cases names <;> rfl
  | cons s root ih => rw [List.cons_append, relativePath, if_pos rfl, ih]

theorem relativePath_outside {root target : TreePath} (h : ¬ root <+: target) :
    ∃ rest, relativePath root target = ".." :: rest := by
  induction root generalizing target with
  | nil => exact (h (List.nil_prefix)).elim
  | cons s root ih =>
      cases target with
      | nil => exact ⟨_, rfl⟩
      | cons t target =>
          rw [relativePath]
          by_cases hst : s = t
          · subst hst
            rw [if_pos rfl]
            exact ih fun hin => h (List.cons_prefix_cons.mpr ⟨rfl, hin⟩)
          · rw [if_neg hst]
            exact ⟨_, rfl⟩

theorem clean_segment {part segment : String} (h : segment ∈ segmentsOf part) :
    '/' ∉ segment.toList := by
  have hsplit : ∀ text, splitSlash text = Glob.split '/' text := by
    intro text
    induction text with
    | nil => rfl
    | cons c text ih =>
        rw [splitSlash, Glob.split, ih]
        cases Glob.split '/' text <;> rfl
  unfold segmentsOf at h
  obtain ⟨chars, hchars, rfl⟩ := List.mem_map.mp h
  rw [hsplit] at hchars
  rw [String.toList_ofList]
  exact Glob.sep_not_mem_split hchars

/-- A resolved path keeps a part of the base and adds names to it. -/
theorem resolvePath_names (base : TreePath) (part : String) :
    ∃ kept added, resolvePath base part = kept ++ added ∧ kept <+: base ∧ ∀ n ∈ added, Clean n := by
  have hfold : ∀ (segments : List String) (path : TreePath), (∀ s ∈ segments, '/' ∉ s.toList) →
      (∃ kept added, path = kept ++ added ∧ kept <+: base ∧ ∀ n ∈ added, Clean n) →
      ∃ kept added, segments.foldl resolveSegment path = kept ++ added ∧ kept <+: base ∧
        ∀ n ∈ added, Clean n := by
    intro segments
    induction segments with
    | nil => exact fun path _ h => h
    | cons segment segments ih =>
        rintro path hsegments ⟨kept, added, rfl, hkept, hadded⟩
        rw [List.foldl_cons]
        refine ih _ (fun s hs => hsegments s (List.mem_cons_of_mem _ hs)) ?_
        unfold resolveSegment
        split
        · exact ⟨kept, added, rfl, hkept, hadded⟩
        · next hplain =>
            split
            · by_cases hnil : added = []
              · subst hnil
                rw [List.append_nil]
                exact ⟨kept.dropLast, [], by simp, (List.dropLast_prefix kept).trans hkept, by simp⟩
              · rw [List.dropLast_append_of_ne_nil hnil]
                exact ⟨kept, added.dropLast, rfl, hkept, fun n hn => hadded n (List.mem_of_mem_dropLast hn)⟩
            · refine ⟨kept, added ++ [segment], by rw [List.append_assoc], hkept, ?_⟩
              intro n hn
              rcases List.mem_append.mp hn with h | h
              · exact hadded n h
              · rw [List.mem_singleton.mp h]
                exact ⟨hsegments segment (by simp), fun hempty => hplain (Or.inl hempty)⟩
  unfold resolvePath
  refine hfold _ _ (fun s hs => clean_segment hs) ?_
  split
  · exact ⟨[], [], rfl, List.nil_prefix, by simp⟩
  · exact ⟨base, [], by simp, List.prefix_rfl, by simp⟩

theorem clean_below {base : TreePath} {part : String} (h : resolvePath base part = base ++ names) :
    ∀ n ∈ names, Clean n := by
  obtain ⟨kept, added, heq, ⟨tail, rfl⟩, hadded⟩ := resolvePath_names base part
  rw [heq, List.append_assoc] at h
  have hadds : added = tail ++ names := List.append_cancel_left h
  intro n hn
  exact hadded n (by rw [hadds]; exact List.mem_append_right tail hn)

/-! ### The policy -/

/-- What the tests of the policy come to. -/
structure RepositoryWorkspace.Passes (workspace : RepositoryWorkspace) (names : TreePath) : Prop where
  inside : ¬ Dotted names
  git : names.head? ≠ some ".git"
  secret : ¬ SeenSecret names
  allowed : matchesAny (slashed names) workspace.allowedPaths = true
  denied : matchesAny (slashed names) workspace.deniedPaths = false

theorem slashed_ne_empty (h : ∀ n ∈ names, Clean n) (hne : names ≠ []) : slashed names ≠ "" := by
  intro hempty
  have hsplit := split_slashed h hne
  rw [hempty] at hsplit
  cases names with
  | nil => exact hne rfl
  | cons n ns =>
      rw [List.map_cons] at hsplit
      have hn : [] = n.toList := (List.cons.inj hsplit).1
      exact (h n (by simp)).2 (String.toList_inj.mp hn.symm)

variable (cwd workspace path) in
/-- **A path is let through where it lies below the root and its names pass the tests.** -/
theorem resolveRepositoryPath_ok (decision : ResolvedPath) :
    resolveRepositoryPath cwd workspace path = .ok decision ↔
      ∃ names, names ≠ [] ∧ resolvePath (workspace.root cwd) path = workspace.root cwd ++ names ∧
        workspace.Passes names ∧ decision = ⟨workspace.root cwd ++ names, slashed names⟩ := by
  by_cases hin : workspace.root cwd <+: resolvePath (workspace.root cwd) path
  · obtain ⟨names, hnames⟩ := hin
    have hbelow : workspace.below cwd path = slashed names := by
      unfold RepositoryWorkspace.below
      rw [← hnames, relativePath_below]
    by_cases hnil : names = []
    · subst hnil
      have hrefused : resolveRepositoryPath cwd workspace path =
          .error "Path is outside the repository root" := by
        unfold resolveRepositoryPath
        rw [hbelow]
        exact if_pos (Or.inl rfl)
      rw [hrefused]
      constructor
      · intro h
        cases h
      · rintro ⟨others, hothers, heq, -⟩
        rw [← hnames] at heq
        exact (hothers (List.append_cancel_left heq).symm).elim
    · have hclean : ∀ n ∈ names, Clean n := clean_below hnames.symm
      have hroot : resolvePath (workspace.root cwd) path ≠ workspace.root cwd := by
        rw [← hnames]
        simpa using hnil
      have hout := leavesDirectory_iff hclean hnil
      have hgit := git_iff hclean hnil
      have hsecret := secretPath_iff hclean hnil
      have hpass : resolveRepositoryPath cwd workspace path = .ok decision ↔
          workspace.Passes names ∧ decision = ⟨workspace.root cwd ++ names, slashed names⟩ := by
        have hempty := slashed_ne_empty hclean hnil
        have hrefused : ∀ {reason : String}, ¬ workspace.Passes names →
            ((.error reason : Except String ResolvedPath) = .ok decision ↔
              workspace.Passes names ∧ decision = ⟨workspace.root cwd ++ names, slashed names⟩) := by
          intro reason hnot
          refine ⟨fun h => ?_, fun h => (hnot h.1).elim⟩
          cases h
        unfold resolveRepositoryPath
        simp only [hbelow]
        by_cases hdotted : Dotted names
        · rw [if_pos (Or.inr (Or.inl (hout.mpr hdotted)))]
          exact hrefused fun h => h.inside hdotted
        rw [if_neg (by
          rintro (h | h | h)
          · exact hempty h
          · exact hdotted (hout.mp h)
          · exact hroot h)]
        by_cases hhead : names.head? = some ".git"
        · rw [if_pos (hgit.mpr hhead)]
          exact hrefused fun h => h.git hhead
        rw [if_neg fun h => hhead (hgit.mp h)]
        by_cases hseen : SeenSecret names
        · rw [if_pos (hsecret.mpr hseen)]
          exact hrefused fun h => h.secret hseen
        rw [if_neg fun h => hseen (hsecret.mp h)]
        by_cases hallowed : matchesAny (slashed names) workspace.allowedPaths = true
        · rw [if_neg (by simp [hallowed])]
          by_cases hdenied : matchesAny (slashed names) workspace.deniedPaths = true
          · rw [if_pos hdenied]
            exact hrefused fun h => by simp [h.denied] at hdenied
          · rw [if_neg hdenied, Except.ok.injEq, hnames, eq_comm]
            exact ⟨fun h => ⟨⟨hdotted, hhead, hseen, hallowed, by simpa using hdenied⟩, h⟩,
              fun h => h.2⟩
        · rw [if_pos (by simpa using hallowed)]
          exact hrefused fun h => hallowed h.allowed
      rw [hpass]
      constructor
      · rintro ⟨hpasses, hdecision⟩
        exact ⟨names, hnil, hnames.symm, hpasses, hdecision⟩
      · rintro ⟨others, -, heq, hpasses, hdecision⟩
        rw [← hnames] at heq
        rw [List.append_cancel_left heq]
        exact ⟨hpasses, hdecision⟩
  · obtain ⟨rest, hrest⟩ := relativePath_outside hin
    have hrefused : resolveRepositoryPath cwd workspace path =
        .error "Path is outside the repository root" := by
      unfold resolveRepositoryPath
      refine if_pos (Or.inr (Or.inl ?_))
      unfold RepositoryWorkspace.below leavesDirectory
      rw [hrest, startsWith_slashed (by decide), Bool.or_eq_true]
      exact Or.inl rfl
    rw [hrefused]
    constructor
    · intro h
      cases h
    · rintro ⟨names, -, heq, -⟩
      exact (hin ⟨names, heq.symm⟩).elim

/-! ### Globs -/

/-- The pattern describes the names as a glob, or is the plain path of something above them. -/
def Covers (pattern : String) (names : TreePath) : Prop :=
  Glob.Path '*' (Glob.split '/' pattern.toList) (names.map String.toList) ∨
    '*' ∉ pattern.toList ∧ Glob.split '/' pattern.toList <+: names.map String.toList

/-! ### What the policy is for -/

/-- The policy wants the path let through. -/
structure RepositoryWorkspace.Admits (workspace : RepositoryWorkspace) (names : TreePath) : Prop where
  git : ".git" ∉ names
  secret : ∀ name ∈ names, ¬ SecretName name
  allowed : ∃ pattern ∈ workspace.allowedPaths, Covers pattern names
  denied : ∀ pattern ∈ workspace.deniedPaths, ¬ Covers pattern names

/-- A path is let through exactly where it lies below the root and the policy wants it. -/
def RepositoryWorkspace.Judges (cwd : TreePath) (workspace : RepositoryWorkspace) (path : String) :
    Prop :=
  (∀ decision, resolveRepositoryPath cwd workspace path = .ok decision → ∃ names, names ≠ [] ∧
    resolvePath (workspace.root cwd) path = workspace.root cwd ++ names ∧ workspace.Admits names ∧
      decision = ⟨workspace.root cwd ++ names, slashed names⟩) ∧
  ∀ names, names ≠ [] → resolvePath (workspace.root cwd) path = workspace.root cwd ++ names →
    workspace.Admits names → ∃ decision, resolveRepositoryPath cwd workspace path = .ok decision

/-- A reason to refuse a path that the tests see. -/
inductive RepositoryWorkspace.Caught (workspace : RepositoryWorkspace) (names : TreePath) : Prop
  | git (h : names.head? = some ".git")
  | secret (h : SeenSecret names)
  | allowed (hread : matchesAny (slashed names) workspace.allowedPaths = false)
      (h : ∀ pattern ∈ workspace.allowedPaths, ¬ Covers pattern names)
  | denied (hread : matchesAny (slashed names) workspace.deniedPaths = true)
      (h : ∃ pattern ∈ workspace.deniedPaths, Covers pattern names)

/-- A reason to refuse a path that the tests do not see. -/
inductive RepositoryWorkspace.Missed (workspace : RepositoryWorkspace) (names : TreePath) : Prop
  | git (h : ".git" ∈ names.tail)
  | secret (hseen : ¬ SeenSecret names) (h : ∃ name ∈ names, SecretName name)
  | allowed (hread : matchesAny (slashed names) workspace.allowedPaths = true)
      (h : ∀ pattern ∈ workspace.allowedPaths, ¬ Covers pattern names)
  | denied (hread : matchesAny (slashed names) workspace.deniedPaths = false)
      (h : ∃ pattern ∈ workspace.deniedPaths, Covers pattern names)

/-- A test refuses the path without a reason. -/
inductive RepositoryWorkspace.Invented (workspace : RepositoryWorkspace) (names : TreePath) : Prop
  | dotted (h : Dotted names)
  | allowed (hread : matchesAny (slashed names) workspace.allowedPaths = false)
      (h : ∃ pattern ∈ workspace.allowedPaths, Covers pattern names)
  | denied (hread : matchesAny (slashed names) workspace.deniedPaths = true)
      (h : ∀ pattern ∈ workspace.deniedPaths, ¬ Covers pattern names)

theorem passes_iff : workspace.Passes names ↔
    ¬ workspace.Caught names ∧ ¬ workspace.Invented names := by
  constructor
  · intro h
    refine ⟨?_, ?_⟩
    · rintro (hgit | hsecret | ⟨hread, -⟩ | ⟨hread, -⟩)
      · exact h.git hgit
      · exact h.secret hsecret
      · rw [h.allowed] at hread
        cases hread
      · rw [h.denied] at hread
        cases hread
    · rintro (hdotted | ⟨hread, -⟩ | ⟨hread, -⟩)
      · exact h.inside hdotted
      · rw [h.allowed] at hread
        cases hread
      · rw [h.denied] at hread
        cases hread
  · rintro ⟨hcaught, hinvented⟩
    refine ⟨fun h => hinvented (.dotted h), fun h => hcaught (.git h), fun h => hcaught (.secret h),
      ?_, ?_⟩
    · by_contra hread
      rw [Bool.not_eq_true] at hread
      by_cases h : ∃ pattern ∈ workspace.allowedPaths, Covers pattern names
      · exact hinvented (.allowed hread h)
      · push Not at h
        exact hcaught (.allowed hread h)
    · by_contra hread
      rw [Bool.not_eq_false] at hread
      by_cases h : ∃ pattern ∈ workspace.deniedPaths, Covers pattern names
      · exact hcaught (.denied hread h)
      · push Not at h
        exact hinvented (.denied hread h)

theorem admits_iff : workspace.Admits names ↔
    ¬ workspace.Caught names ∧ ¬ workspace.Missed names := by
  constructor
  · intro h
    refine ⟨?_, ?_⟩
    · rintro (hgit | hsecret | ⟨-, hnone⟩ | ⟨-, pattern, hpattern, hcovers⟩)
      · exact h.git (List.mem_of_mem_head? hgit)
      · obtain ⟨name, hname, hsecret⟩ := hsecret.secretName
        exact h.secret name hname hsecret
      · obtain ⟨pattern, hpattern, hcovers⟩ := h.allowed
        exact hnone pattern hpattern hcovers
      · exact h.denied pattern hpattern hcovers
    · rintro (hgit | ⟨-, name, hname, hsecret⟩ | ⟨-, hnone⟩ | ⟨-, pattern, hpattern, hcovers⟩)
      · exact h.git (List.mem_of_mem_tail hgit)
      · exact h.secret name hname hsecret
      · obtain ⟨pattern, hpattern, hcovers⟩ := h.allowed
        exact hnone pattern hpattern hcovers
      · exact h.denied pattern hpattern hcovers
  · rintro ⟨hcaught, hmissed⟩
    refine ⟨?_, ?_, ?_, ?_⟩
    · intro hgit
      cases names with
      | nil => cases hgit
      | cons first others =>
          rcases List.mem_cons.mp hgit with rfl | h
          · exact hcaught (.git rfl)
          · exact hmissed (.git h)
    · intro name hname hsecret
      by_cases hseen : SeenSecret names
      · exact hcaught (.secret hseen)
      · exact hmissed (.secret hseen ⟨name, hname, hsecret⟩)
    · by_contra hnone
      push Not at hnone
      cases hread : matchesAny (slashed names) workspace.allowedPaths with
      | true => exact hmissed (.allowed hread hnone)
      | false => exact hcaught (.allowed hread hnone)
    · intro pattern hpattern hcovers
      cases hread : matchesAny (slashed names) workspace.deniedPaths with
      | true => exact hcaught (.denied hread ⟨pattern, hpattern, hcovers⟩)
      | false => exact hmissed (.denied hread ⟨pattern, hpattern, hcovers⟩)

/-- A workspace without a policy file. -/
def unsetWorkspace : RepositoryWorkspace where
  workspaceId := "repo"
  repoRoot := "/repo"
  allowedPaths := ["**"]
  deniedPaths := [".git/**", ".env", ".env.*", "*.pem", "*.key", "id_rsa", "id_ed25519"]
  maxFileBytes := 128000
  maxFilesPerTask := 24
  requireApprovalForWrite := false

end OpenLagrange
