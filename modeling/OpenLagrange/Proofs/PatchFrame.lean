/-
What an edit of a file leaves as it was.

An insertion or a replacement selects a part of the text of a file, and the new text is what stands
before the selection, the content, and what stands after it.  That is so of an anchor which
occurs once, overlapping occurrences counted, and of lines that the file has.

The search for a second occurrence of an anchor begins after the first, so it misses one that
overlaps it; and a range of lines is never compared with the number of lines.  Bytes outside the
selection are read as text and written again, so they stay what they were only if they are the
encoding of a text.
-/
import OpenLagrange.Lib.Glob
import OpenLagrange.Proofs.PatchGuards

namespace OpenLagrange

open Occurrence

variable {operation : RepositoryPatchOperation} {text p s q : List Char} {content : List Char}

/-! ### Lines -/

/-- The lines, each with the newline that ends it. -/
def terminated (lines : List (List Char)) : List Char := lines.flatMap (· ++ ['\n'])

theorem splitLines_eq : splitLines text = Glob.split '\n' text := by
  induction text with
  | nil => rfl
  | cons c text ih =>
      rw [splitLines, Glob.split, ih]
      cases Glob.split '\n' text <;> rfl

theorem joinLines_eq {lines : List (List Char)} : joinLines lines = Glob.joined '\n' lines := by
  unfold joinLines
  induction lines with
  | nil => rfl
  | cons line lines ih =>
      cases lines with
      | nil => rw [List.intercalate_singleton]; rfl
      | cons next lines =>
          rw [List.intercalate_cons_cons, ih, List.append_assoc]
          rfl

theorem joinLines_terminated {lines : List (List Char)} (h : lines ≠ []) :
    joinLines lines ++ ['\n'] = terminated lines := by
  rw [joinLines_eq]
  unfold terminated
  induction lines with
  | nil => exact (h rfl).elim
  | cons line lines ih =>
      by_cases hnil : lines = []
      · subst hnil
        simp [Glob.joined]
      · rw [Glob.joined_cons hnil, List.flatMap_cons, ← ih hnil]
        simp

theorem terminated_splitLines : terminated (splitLines text) = text ++ ['\n'] := by
  rw [splitLines_eq, ← joinLines_terminated Glob.split_ne_nil, joinLines_eq, Glob.joined_split]

/-! ### Selections -/

/-- The lines of a range.  The newline after the last of them is selected too if the content that
replaces them ends with one. -/
structure LineSpan (closed : Bool) (first last : Nat) (text p s q : List Char) : Prop where
  positive : 0 < first
  ordered : first ≤ last
  inside : last ≤ (splitLines text).length
  start : p = terminated ((splitLines text).take (first - 1))
  selected : p ++ (s ++ if closed then [] else ['\n']) = terminated ((splitLines text).take last)
  whole : text = p ++ (s ++ q)

/-- The content of an operation. -/
def RepositoryPatchOperation.inserted (operation : RepositoryPatchOperation) : List Char :=
  (operation.content.getD "").toList

/-- The content ends with a newline. -/
def RepositoryPatchOperation.closed (operation : RepositoryPatchOperation) : Bool :=
  operation.inserted.getLast? = some '\n'

/-- The place beside an anchor, or the end of the text when there is none. -/
def InsertsAfter (anchor : Option String) (text p q : List Char) : Prop :=
  text = p ++ q ∧
    match anchor with
    | none => q = []
    | some anchor => Sole anchor.toList text ∧ anchor.toList <:+ p

def InsertsBefore (anchor : Option String) (text p q : List Char) : Prop :=
  text = p ++ q ∧
    match anchor with
    | none => p = []
    | some anchor => Sole anchor.toList text ∧ anchor.toList <+: q

/-- From one anchor to another. -/
def AnchorSpan (first last text p s q : List Char) : Prop :=
  Sole first text ∧ Sole last text ∧ text = p ++ (s ++ q) ∧ ∃ mid, s = first ++ (mid ++ last)

/-- What an operation selects in a text: `p` stands before the selection `s`, and `q` after it. -/
def Selects (operation : RepositoryPatchOperation) (text p s q : List Char) : Prop :=
  match operation.kind with
  | .insertAfter => s = [] ∧ InsertsAfter (truthy operation.anchor) text p q
  | .insertBefore => s = [] ∧ InsertsBefore (truthy operation.anchor) text p q
  | .replaceRange =>
      match truthy operation.startAnchor, truthy operation.endAnchor with
      | some first, some last => AnchorSpan first.toList last.toList text p s q
      | _, _ => ∃ first last, operation.startLine = some first ∧ operation.endLine = some last ∧
          LineSpan operation.closed first last text p s q
  | _ => False

/-- The operation inserts text or replaces a range. -/
def RepositoryPatchOperation.edits (operation : RepositoryPatchOperation) : Prop :=
  operation.kind = .insertAfter ∨ operation.kind = .insertBefore ∨ operation.kind = .replaceRange

/-- Every anchor occurs once, and a range of lines is inside the file.  Content that ends with a
newline does not replace the end of a file. -/
def Selectable (operation : RepositoryPatchOperation) (text : List Char) : Prop :=
  if operation.kind.inserts then
    ∀ anchor, truthy operation.anchor = some anchor → Sole anchor.toList text
  else
    match truthy operation.startAnchor, truthy operation.endAnchor with
    | some first, some last => Sole first.toList text ∧ Sole last.toList text
    | _, _ => ∀ last, operation.endLine = some last → last ≤ (splitLines text).length ∧
        (operation.closed = true → last < (splitLines text).length)

theorem dropLastNewline_closed (h : operation.closed = true) :
    dropLastNewline operation.inserted ++ ['\n'] = operation.inserted := by
  unfold RepositoryPatchOperation.closed at h
  simp only [decide_eq_true_eq] at h
  unfold dropLastNewline
  rw [if_pos h]
  exact List.dropLast_append_getLast? _ h

theorem dropLastNewline_open (h : operation.closed = false) :
    dropLastNewline operation.inserted = operation.inserted := by
  unfold RepositoryPatchOperation.closed at h
  simp only [decide_eq_false_iff_not] at h
  unfold dropLastNewline
  rw [if_neg h]

/-- A text has room for the newline after the last of its lines only before its end. -/
theorem LineSpan.closed_inside {first last : Nat} (h : LineSpan true first last text p s q) :
    last < (splitLines text).length := by
  refine lt_of_le_of_ne h.inside fun hlast => ?_
  have hselected := h.selected
  rw [hlast, List.take_length, terminated_splitLines, if_pos rfl, List.append_nil] at hselected
  have hlength := congrArg List.length hselected
  have htext := congrArg List.length h.whole
  simp only [List.length_append, List.length_singleton] at hlength htext
  omega

/-- The lines of a range are where they are. -/
theorem LineSpan.unique {closed : Bool} {first last : Nat} {p' s' q' : List Char}
    (h : LineSpan closed first last text p s q) (h' : LineSpan closed first last text p' s' q') :
    p' = p ∧ s' = s ∧ q' = q := by
  have hp : p' = p := h'.start.trans h.start.symm
  subst hp
  have hs : s' = s := by
    have heq := h'.selected.trans h.selected.symm
    exact List.append_cancel_right (List.append_cancel_left heq)
  subst hs
  have heq := h'.whole.symm.trans h.whole
  exact ⟨rfl, rfl, List.append_cancel_left (List.append_cancel_left heq)⟩

theorem InsertsAfter.unique {anchor : Option String} {p' q' : List Char}
    (h : InsertsAfter anchor text p q) (h' : InsertsAfter anchor text p' q') : p' = p ∧ q' = q := by
  obtain ⟨htext, hplace⟩ := h
  obtain ⟨htext', hplace'⟩ := h'
  cases anchor with
  | none =>
      dsimp only at hplace hplace'
      subst hplace hplace'
      simp only [List.append_nil] at htext htext'
      exact ⟨htext'.symm.trans htext, rfl⟩
  | some anchor =>
      obtain ⟨hsole, before, rfl⟩ := hplace
      obtain ⟨-, before', rfl⟩ := hplace'
      rw [List.append_assoc] at htext htext'
      obtain ⟨rfl, rfl⟩ := hsole.unique htext htext'
      exact ⟨rfl, rfl⟩

theorem InsertsBefore.unique {anchor : Option String} {p' q' : List Char}
    (h : InsertsBefore anchor text p q) (h' : InsertsBefore anchor text p' q') : p' = p ∧ q' = q := by
  obtain ⟨htext, hplace⟩ := h
  obtain ⟨htext', hplace'⟩ := h'
  cases anchor with
  | none =>
      dsimp only at hplace hplace'
      subst hplace hplace'
      exact ⟨rfl, htext'.symm.trans htext⟩
  | some anchor =>
      obtain ⟨hsole, rest, rfl⟩ := hplace
      obtain ⟨-, rest', rfl⟩ := hplace'
      obtain ⟨rfl, rfl⟩ := hsole.unique htext htext'
      exact ⟨rfl, rfl⟩

theorem AnchorSpan.unique {first last p' s' q' : List Char} (h : AnchorSpan first last text p s q)
    (h' : AnchorSpan first last text p' s' q') : p' = p ∧ s' = s ∧ q' = q := by
  obtain ⟨hfirst, hlast, htext, mid, rfl⟩ := h
  obtain ⟨-, -, htext', mid', rfl⟩ := h'
  have hregroup : ∀ {p mid q : List Char}, p ++ (first ++ (mid ++ last) ++ q) =
      p ++ (first ++ (mid ++ (last ++ q))) ∧ p ++ (first ++ (mid ++ last) ++ q) =
      (p ++ (first ++ mid)) ++ (last ++ q) := by
    intro p mid q
    exact ⟨by simp only [List.append_assoc], by simp only [List.append_assoc]⟩
  obtain ⟨rfl, -⟩ := hfirst.unique (htext.trans hregroup.1) (htext'.trans hregroup.1)
  obtain ⟨hbefore, rfl⟩ := hlast.unique (htext.trans hregroup.2) (htext'.trans hregroup.2)
  have hmid : mid' = mid := List.append_cancel_left (List.append_cancel_left hbefore)
  exact ⟨rfl, by rw [hmid], rfl⟩

/-- An operation selects one part of a text. -/
theorem Selects.unique {p' s' q' : List Char} (h : Selects operation text p s q)
    (h' : Selects operation text p' s' q') : p' = p ∧ s' = s ∧ q' = q := by
  unfold Selects at h h'
  cases hkind : operation.kind with
  | insertAfter =>
      simp only [hkind] at h h'
      obtain ⟨rfl, h⟩ := h
      obtain ⟨rfl, h'⟩ := h'
      obtain ⟨rfl, rfl⟩ := h.unique h'
      exact ⟨rfl, rfl, rfl⟩
  | insertBefore =>
      simp only [hkind] at h h'
      obtain ⟨rfl, h⟩ := h
      obtain ⟨rfl, h'⟩ := h'
      obtain ⟨rfl, rfl⟩ := h.unique h'
      exact ⟨rfl, rfl, rfl⟩
  | replaceRange =>
      have hlines : ∀ {p s q : List Char}, (∃ first last, operation.startLine = some first ∧
          operation.endLine = some last ∧ LineSpan operation.closed first last text p s q) →
          ∀ {p' s' q' : List Char}, (∃ first last, operation.startLine = some first ∧
            operation.endLine = some last ∧ LineSpan operation.closed first last text p' s' q') →
            p' = p ∧ s' = s ∧ q' = q := by
        rintro p s q ⟨first, last, hstart, hend, hspan⟩ p' s' q' ⟨first', last', hstart', hend', hspan'⟩
        rw [hstart] at hstart'
        rw [hend] at hend'
        cases hstart'
        cases hend'
        exact hspan.unique hspan'
      simp only [hkind] at h h'
      cases hfirst : truthy operation.startAnchor with
      | none =>
          simp only [hfirst] at h h'
          exact hlines h h'
      | some first =>
          cases hlast : truthy operation.endAnchor with
          | none =>
              simp only [hfirst, hlast] at h h'
              exact hlines h h'
          | some last =>
              simp only [hfirst, hlast] at h h'
              exact AnchorSpan.unique h h'
  | createFile => simp [hkind] at h
  | fullReplacement => simp [hkind] at h
  | unifiedDiff => simp [hkind] at h

theorem Selects.whole (h : Selects operation text p s q) : text = p ++ (s ++ q) := by
  unfold Selects at h
  cases hkind : operation.kind with
  | insertAfter =>
      simp only [hkind] at h
      obtain ⟨rfl, htext, -⟩ := h
      exact htext
  | insertBefore =>
      simp only [hkind] at h
      obtain ⟨rfl, htext, -⟩ := h
      exact htext
  | replaceRange =>
      simp only [hkind] at h
      split at h
      · exact h.2.2.1
      · obtain ⟨first, last, -, -, hspan⟩ := h
        exact hspan.whole
  | createFile => simp [hkind] at h
  | fullReplacement => simp [hkind] at h
  | unifiedDiff => simp [hkind] at h

/-! ### Each edit -/

/-- An insertion finds its anchor, or inserts at an end of the text. -/
theorem insertByAnchor_ok {anchor : Option String} {after : Bool} {next : List Char}
    (h : insertByAnchor text anchor content after = .ok next) :
    (truthy anchor = none ∧ next = if after then text ++ content else content ++ text) ∨
      ∃ a head tail, truthy anchor = some a ∧ text = head ++ (a.toList ++ tail) ∧
        next = if after then head ++ a.toList ++ content ++ tail
          else head ++ content ++ a.toList ++ tail := by
  unfold insertByAnchor at h
  cases hanchor : truthy anchor with
  | none =>
      simp only [hanchor, Except.ok.injEq] at h
      exact Or.inl ⟨rfl, h.symm⟩
  | some a =>
      simp only [hanchor] at h
      cases hunique : assertUniqueAnchor text a.toList with
      | error message => simp [hunique] at h
      | ok cut =>
          simp only [hunique, Except.ok.injEq] at h
          exact Or.inr ⟨a, cut.1, cut.2, rfl, cutFirst_append (assertUniqueAnchor_ok hunique), h.symm⟩

theorem insertAfter_frame {anchor : Option String} {next : List Char}
    (h : insertByAnchor text anchor content true = .ok next) :
    ((∃ p q, InsertsAfter (truthy anchor) text p q) ↔
      ∀ a, truthy anchor = some a → Sole a.toList text) ∧
    ∀ p q, InsertsAfter (truthy anchor) text p q → next = p ++ (content ++ q) := by
  rcases insertByAnchor_ok h with ⟨hanchor, rfl⟩ | ⟨a, head, tail, hanchor, htext, rfl⟩
  · rw [hanchor]
    refine ⟨⟨fun _ a ha => (Option.some_ne_none a ha.symm).elim, fun _ => ⟨text, [], by simp, rfl⟩⟩, ?_⟩
    rintro p q ⟨hpq, rfl⟩
    rw [List.append_nil] at hpq
    rw [← hpq, List.append_nil]
    exact if_pos rfl
  · rw [hanchor]
    refine ⟨⟨?_, ?_⟩, ?_⟩
    · rintro ⟨p, q, -, hsole, -⟩ _ ⟨⟩
      exact hsole
    · intro hsole
      exact ⟨head ++ a.toList, tail, by rw [htext, List.append_assoc], hsole a rfl,
        List.suffix_append _ _⟩
    · rintro p q ⟨hpq, hsole, before, rfl⟩
      rw [List.append_assoc] at hpq
      obtain ⟨rfl, rfl⟩ := hsole.unique htext hpq
      rw [if_pos rfl]
      simp only [List.append_assoc]

theorem insertBefore_frame {anchor : Option String} {next : List Char}
    (h : insertByAnchor text anchor content false = .ok next) :
    ((∃ p q, InsertsBefore (truthy anchor) text p q) ↔
      ∀ a, truthy anchor = some a → Sole a.toList text) ∧
    ∀ p q, InsertsBefore (truthy anchor) text p q → next = p ++ (content ++ q) := by
  rcases insertByAnchor_ok h with ⟨hanchor, rfl⟩ | ⟨a, head, tail, hanchor, htext, rfl⟩
  · rw [hanchor]
    refine ⟨⟨fun _ a ha => (Option.some_ne_none a ha.symm).elim, fun _ => ⟨[], text, rfl, rfl⟩⟩, ?_⟩
    rintro p q ⟨hpq, rfl⟩
    rw [hpq]
    exact if_neg (by decide)
  · rw [hanchor]
    refine ⟨⟨?_, ?_⟩, ?_⟩
    · rintro ⟨p, q, -, hsole, -⟩ _ ⟨⟩
      exact hsole
    · intro hsole
      exact ⟨head, a.toList ++ tail, htext, hsole a rfl, List.prefix_append _ _⟩
    · rintro p q ⟨hpq, hsole, rest, rfl⟩
      obtain ⟨rfl, rfl⟩ := hsole.unique htext hpq
      rw [if_neg (by decide)]
      simp only [List.append_assoc]

theorem replaceByAnchors_frame {first last next : List Char}
    (h : replaceByAnchors text first last content = .ok next) :
    ((∃ p s q, AnchorSpan first last text p s q) ↔ Sole first text ∧ Sole last text) ∧
    ∀ p s q, AnchorSpan first last text p s q → next = p ++ (content ++ q) := by
  unfold replaceByAnchors at h
  cases hfirst : assertUniqueAnchor text first with
  | error message =>
      rw [hfirst] at h
      cases h
  | ok cut =>
      rw [hfirst] at h
      cases hlast : assertUniqueAnchor text last with
      | error message =>
          rw [hlast] at h
          cases h
      | ok other =>
          rw [hlast] at h
          cases hrest : cutFirst last cut.2 with
          | none => simp [hrest] at h
          | some found =>
              simp only [hrest, Except.ok.injEq] at h
              have htext := cutFirst_append (assertUniqueAnchor_ok hfirst)
              have htail := cutFirst_append hrest
              have hspan : text = cut.1 ++ (first ++ (found.1 ++ last) ++ found.2) := by
                rw [htext, htail]
                simp only [List.append_assoc]
              refine ⟨⟨?_, ?_⟩, ?_⟩
              · rintro ⟨p, s, q, hsoleFirst, hsoleLast, -⟩
                exact ⟨hsoleFirst, hsoleLast⟩
              · rintro ⟨hsoleFirst, hsoleLast⟩
                exact ⟨cut.1, _, found.2, hsoleFirst, hsoleLast, hspan, found.1, rfl⟩
              · intro p s q hselected
                obtain ⟨rfl, -, rfl⟩ := AnchorSpan.unique
                  ⟨hselected.1, hselected.2.1, hspan, found.1, rfl⟩ hselected
                rw [← h, List.append_assoc]

/-- A range of lines is replaced by the lines of the content. -/
theorem replaceRange_ok {startLine endLine : Option Nat} {next : List Char}
    (h : replaceRange text startLine endLine content = .ok next) :
    ∃ first last, startLine = some first ∧ endLine = some last ∧ 0 < first ∧ first ≤ last ∧
      next = joinLines ((splitLines text).take (first - 1) ++ splitLines (dropLastNewline content) ++
        (splitLines text).drop last) := by
  obtain ⟨first, last, rfl, rfl, hfirst, hlast⟩ := replaceRange_iff.mp ⟨next, h⟩
  refine ⟨first, last, rfl, rfl, hfirst, hlast, ?_⟩
  have hkept : (some first).filter (· ≠ 0) = some first ∧ (some last).filter (· ≠ 0) = some last := by
    constructor
    · simp only [Option.filter, ne_eq, decide_not, Bool.not_eq_true', decide_eq_false_iff_not,
        ite_eq_left_iff, reduceCtorEq, imp_false, not_not]
      omega
    · simp only [Option.filter, ne_eq, decide_not, Bool.not_eq_true', decide_eq_false_iff_not,
        ite_eq_left_iff, reduceCtorEq, imp_false, not_not]
      omega
  unfold replaceRange at h
  simp only [hkept.1, hkept.2, if_neg (Nat.not_lt.mpr hlast), Except.ok.injEq] at h
  exact h.symm

theorem terminated_append (lines more : List (List Char)) :
    terminated (lines ++ more) = terminated lines ++ terminated more := List.flatMap_append

/-- The new text of a range, with one more newline after it. -/
theorem replaced_terminated {first last : Nat} (content : List Char) :
    joinLines ((splitLines text).take (first - 1) ++ splitLines content ++
      (splitLines text).drop last) ++ ['
'] =
    terminated ((splitLines text).take (first - 1)) ++ (content ++ ('
' ::
      terminated ((splitLines text).drop last))) := by
  have hne : (splitLines text).take (first - 1) ++ splitLines content ++
      (splitLines text).drop last ≠ [] := by
    rw [@splitLines_eq content]
    intro hnil
    simp only [List.append_eq_nil_iff] at hnil
    exact Glob.split_ne_nil hnil.1.2
  rw [joinLines_terminated hne, terminated_append, terminated_append, terminated_splitLines]
  simp only [List.append_assoc, List.singleton_append]

/-- The lines of a text up to one of them, and the rest. -/
theorem terminated_split (last : Nat) :
    terminated ((splitLines text).take last) ++ terminated ((splitLines text).drop last) =
      text ++ ['
'] := by
  rw [← terminated_append, List.take_append_drop, terminated_splitLines]

theorem newline_cancel {a b : List Char} (h : a ++ ['\n'] = b ++ ['\n']) : a = b :=
  List.append_cancel_right h

theorem exists_lineSpan {closed : Bool} {first last : Nat} (hfirst : 0 < first) (hlast : first ≤ last)
    (hinside : last ≤ (splitLines text).length)
    (hclosed : closed = true → last < (splitLines text).length) :
    ∃ p s q, LineSpan closed first last text p s q := by
  have hselected : ((splitLines text).take last).drop (first - 1) ≠ [] := by
    intro hnil
    have hlength := congrArg List.length hnil
    simp only [List.length_drop, List.length_take, List.length_nil] at hlength
    omega
  have hstart : terminated ((splitLines text).take last) =
      terminated ((splitLines text).take (first - 1)) ++
        (joinLines (((splitLines text).take last).drop (first - 1)) ++ ['
']) := by
    rw [joinLines_terminated hselected, ← terminated_append]
    have htake : ((splitLines text).take last).take (first - 1) = (splitLines text).take (first - 1) := by
      rw [List.take_take, min_eq_left (by omega)]
    rw [← htake, List.take_append_drop]
  have hwhole := @terminated_split text last
  rw [hstart] at hwhole
  by_cases hend : (splitLines text).drop last = []
  · -- The range ends with the text, so the newline after it is not there to be selected.
    have hopen : closed = false := by
      by_contra hne
      have hlt := hclosed (by simpa using hne)
      have hle := List.drop_eq_nil_iff.mp hend
      omega
    rw [hend] at hwhole
    refine ⟨_, joinLines (((splitLines text).take last).drop (first - 1)), [], hfirst, hlast, hinside,
      rfl, ?_, ?_⟩
    · rw [hopen, hstart]
      rfl
    · refine newline_cancel ?_
      rw [← hwhole]
      simp [terminated]
  · rw [← joinLines_terminated hend] at hwhole
    cases closed with
    | true =>
        refine ⟨_, joinLines (((splitLines text).take last).drop (first - 1)) ++ ['\n'],
          joinLines ((splitLines text).drop last), hfirst, hlast, hinside, rfl, ?_, ?_⟩
        · rw [if_pos rfl, List.append_nil, hstart]
        · refine newline_cancel ?_
          rw [← hwhole]
          simp only [List.append_assoc]
    | false =>
        refine ⟨_, joinLines (((splitLines text).take last).drop (first - 1)),
          '\n' :: joinLines ((splitLines text).drop last), hfirst, hlast, hinside, rfl, ?_, ?_⟩
        · rw [if_neg (by decide), hstart]
        · refine newline_cancel ?_
          rw [← hwhole]
          simp only [List.append_assoc, List.cons_append, List.nil_append]

theorem replaceRange_frame {next : List Char}
    (h : replaceRange text operation.startLine operation.endLine operation.inserted = .ok next) :
    ((∃ p s q first last, operation.startLine = some first ∧ operation.endLine = some last ∧
      LineSpan operation.closed first last text p s q) ↔
      ∀ last, operation.endLine = some last → last ≤ (splitLines text).length ∧
        (operation.closed = true → last < (splitLines text).length)) ∧
    ∀ p s q, (∃ first last, operation.startLine = some first ∧ operation.endLine = some last ∧
      LineSpan operation.closed first last text p s q) → next = p ++ (operation.inserted ++ q) := by
  obtain ⟨first, last, hstart, hend, hfirst, hlast, hnext⟩ := replaceRange_ok h
  rw [hstart, hend]
  refine ⟨⟨?_, ?_⟩, ?_⟩
  · rintro ⟨p, s, q, first', last', ⟨⟩, ⟨⟩, hspan⟩ _ ⟨⟩
    refine ⟨hspan.inside, fun hclosed => ?_⟩
    rw [hclosed] at hspan
    exact hspan.closed_inside
  · intro hinside
    obtain ⟨hle, hclosed⟩ := hinside last rfl
    obtain ⟨p, s, q, hspan⟩ := exists_lineSpan hfirst hlast hle hclosed
    exact ⟨p, s, q, first, last, rfl, rfl, hspan⟩
  · rintro p s q ⟨first', last', ⟨⟩, ⟨⟩, hspan⟩
    -- What follows the selection in the text, and what follows the content in the new text.
    have hafter : q ++ ['\n'] = (if operation.closed then [] else ['\n']) ++
        terminated ((splitLines text).drop last) := by
      have hwhole := @terminated_split text last
      rw [← hspan.selected] at hwhole
      nth_rewrite 2 [hspan.whole] at hwhole
      simp only [List.append_assoc] at hwhole
      exact (List.append_cancel_left (List.append_cancel_left hwhole)).symm
    have hnew := @replaced_terminated text first last (dropLastNewline operation.inserted)
    rw [← hnext, ← hspan.start] at hnew
    refine newline_cancel ?_
    rw [hnew]
    cases hclosed : operation.closed with
    | true =>
        rw [hclosed, if_pos rfl, List.nil_append] at hafter
        rw [← hafter]
        conv_rhs => rw [← dropLastNewline_closed hclosed]
        simp only [List.append_assoc, List.cons_append, List.nil_append]
    | false =>
        rw [hclosed, if_neg (by decide), List.singleton_append] at hafter
        rw [← hafter, dropLastNewline_open hclosed]
        simp only [List.append_assoc]

/-- **An edit that is made selects a part of the text exactly where the text is selectable, and
replaces that part by the content.** -/
theorem applyPatchOperation_frame {current : Option String} {next : String}
    (h : applyPatchOperation operation current = .ok next) (hedits : operation.edits) :
    ((∃ p s q, Selects operation (current.getD "").toList p s q) ↔
      Selectable operation (current.getD "").toList) ∧
    ∀ p s q, Selects operation (current.getD "").toList p s q →
      next.toList = p ++ (operation.inserted ++ q) := by
  have hmapped : ∀ {result : Except String (List Char)}, result.map String.ofList = .ok next →
      result = .ok next.toList := by
    intro result hmap
    cases result with
    | error message => cases hmap
    | ok chars =>
        cases hmap
        rw [String.toList_ofList]
  unfold applyPatchOperation at h
  unfold Selects Selectable
  cases hkind : operation.kind with
  | insertAfter =>
      simp only [hkind] at h
      obtain ⟨hexists, hframe⟩ := insertAfter_frame (hmapped h)
      simp only [PatchOperationKind.inserts, if_true]
      refine ⟨⟨?_, ?_⟩, ?_⟩
      · rintro ⟨p, s, q, -, hplace⟩
        exact hexists.mp ⟨p, q, hplace⟩
      · intro hsole
        obtain ⟨p, q, hplace⟩ := hexists.mpr hsole
        exact ⟨p, [], q, rfl, hplace⟩
      · rintro p s q ⟨-, hplace⟩
        exact hframe p q hplace
  | insertBefore =>
      simp only [hkind] at h
      obtain ⟨hexists, hframe⟩ := insertBefore_frame (hmapped h)
      simp only [PatchOperationKind.inserts, if_true]
      refine ⟨⟨?_, ?_⟩, ?_⟩
      · rintro ⟨p, s, q, -, hplace⟩
        exact hexists.mp ⟨p, q, hplace⟩
      · intro hsole
        obtain ⟨p, q, hplace⟩ := hexists.mpr hsole
        exact ⟨p, [], q, rfl, hplace⟩
      · rintro p s q ⟨-, hplace⟩
        exact hframe p q hplace
  | replaceRange =>
      simp only [hkind] at h
      simp only [PatchOperationKind.inserts, Bool.false_eq_true, if_false]
      cases hfirst : truthy operation.startAnchor with
      | none =>
          simp only [hfirst] at h
          exact replaceRange_frame (hmapped h)
      | some first =>
          cases hlast : truthy operation.endAnchor with
          | none =>
              simp only [hfirst, hlast] at h
              exact replaceRange_frame (hmapped h)
          | some last =>
              simp only [hfirst, hlast] at h
              exact replaceByAnchors_frame (hmapped h)
  | createFile => simp [RepositoryPatchOperation.edits, hkind] at hedits
  | fullReplacement => simp [RepositoryPatchOperation.edits, hkind] at hedits
  | unifiedDiff => simp [RepositoryPatchOperation.edits, hkind] at hedits

/-! ### Bytes -/

abbrev Bytes := List UInt8

/-- The text encoding is UTF-8: a text is encoded character by character, and bytes that are decoded
and encoded again become no fewer, since what stands for bytes that encode nothing is three bytes
long and stands for at most three. -/
structure Utf8 (P : FilePlatform Bytes) : Prop where
  append : ∀ a b, P.encode (a ++ b) = P.encode a ++ P.encode b
  room : ∀ bytes, bytes.length ≤ (P.encode (P.decode bytes)).length

variable {P : FilePlatform Bytes}

def FilePlatform.chars (P : FilePlatform Bytes) (bytes : Bytes) : List Char := (P.decode bytes).toList

def FilePlatform.bytes (P : FilePlatform Bytes) (text : List Char) : Bytes :=
  P.encode (String.ofList text)

theorem Utf8.bytes_append (h : Utf8 P) (a b : List Char) :
    P.bytes (a ++ b) = P.bytes a ++ P.bytes b := by
  unfold FilePlatform.bytes
  rw [← h.append, String.ofList_append]

theorem chars_bytes (text : List Char) : P.chars (P.bytes text) = text := by
  unfold FilePlatform.chars FilePlatform.bytes
  rw [P.decode_encode, String.toList_ofList]

/-- The new file is what stood before the selection, the content, and what stood after it, byte for
byte. -/
def Framed (P : FilePlatform Bytes) (operation : RepositoryPatchOperation) (old new : Bytes) : Prop :=
  ∃ p s q, Selects operation (P.chars old) (P.chars p) (P.chars s) (P.chars q) ∧
    old = p ++ (s ++ q) ∧ new = p ++ (P.bytes operation.inserted ++ q)

/-- What the edit rests on: the text can be selected from, and outside the selection the file is the
encoding of a text. -/
def Steady (P : FilePlatform Bytes) (operation : RepositoryPatchOperation) (old : Bytes) : Prop :=
  Selectable operation (P.chars old) ∧ ∀ p s q, Selects operation (P.chars old) p s q →
    ∃ selected, P.chars selected = s ∧ old = P.bytes p ++ (selected ++ P.bytes q)

/-- **An edit that is made frames the rest of the file exactly where it rests on what it should.** -/
theorem framed_iff (hutf : Utf8 P) {old : Bytes} {current : Option String} {next : String}
    (hcurrent : (current.getD "").toList = P.chars old)
    (h : applyPatchOperation operation current = .ok next) (hedits : operation.edits) :
    Framed P operation old (P.encode next) ↔ Steady P operation old := by
  obtain ⟨hexists, hframe⟩ := applyPatchOperation_frame h hedits
  rw [hcurrent] at hexists hframe
  have hnext : ∀ p s q, Selects operation (P.chars old) p s q →
      P.encode next = P.bytes p ++ (P.bytes operation.inserted ++ P.bytes q) := by
    intro p s q hselects
    rw [← hutf.bytes_append, ← hutf.bytes_append, ← hframe p s q hselects]
    unfold FilePlatform.bytes
    rw [String.ofList_toList]
  constructor
  · rintro ⟨p, s, q, hselects, hold, hnew⟩
    refine ⟨hexists.mp ⟨_, _, _, hselects⟩, fun p' s' q' hselects' => ?_⟩
    obtain ⟨rfl, rfl, rfl⟩ := hselects.unique hselects'
    -- Encoding again makes nothing shorter, so both sides of the content are as long as before.
    have hp := hutf.room p
    have hq := hutf.room q
    have heq := (hnext _ _ _ hselects).symm.trans hnew
    have hroom : ∀ bytes, (P.bytes (P.chars bytes)) = P.encode (P.decode bytes) := by
      intro bytes
      unfold FilePlatform.bytes FilePlatform.chars
      rw [String.ofList_toList]
    have hlength := congrArg List.length heq
    simp only [List.length_append, hroom] at hlength
    obtain ⟨hpe, hrest⟩ := List.append_inj heq (by rw [hroom]; omega)
    have hqe := List.append_cancel_left hrest
    exact ⟨s, rfl, by rw [hpe, hqe]; exact hold⟩
  · rintro ⟨hselectable, hsteady⟩
    obtain ⟨p, s, q, hselects⟩ := hexists.mpr hselectable
    obtain ⟨selected, hselected, hold⟩ := hsteady p s q hselects
    refine ⟨P.bytes p, selected, P.bytes q, ?_, hold, hnext p s q hselects⟩
    rw [chars_bytes, chars_bytes, hselected]
    exact hselects

/-- A file that is the encoding of a text is so outside every selection. -/
theorem steady_of_text (hutf : Utf8 P) (text : List Char) (h : Selectable operation text) :
    Steady P operation (P.bytes text) := by
  unfold Steady
  rw [chars_bytes]
  refine ⟨h, fun p s q hselects => ?_⟩
  exact ⟨P.bytes s, chars_bytes s, by rw [hselects.whole, hutf.bytes_append, hutf.bytes_append]⟩

/-! ### The operations of a plan -/

section Plan

variable {workspace : RepositoryWorkspace} {tree : FileTree Bytes} {plan : RepositoryPatchPlan}
  {policy : Option PatchPolicy} {clock : String}

/-- The bytes of a file; one that is absent counts as empty. -/
def fileBytes (tree : FileTree Bytes) (path : TreePath) : Bytes := (tree.fileAt path).getD []

/-- Each edit that a plan makes frames the rest of its file. -/
def FramedPatch (P : FilePlatform Bytes) (workspace : RepositoryWorkspace) (tree : FileTree Bytes)
    (plan : RepositoryPatchPlan) : Prop :=
  ∀ before operation after decision,
    applied P workspace tree plan.operations = before ++ operation :: after → operation.edits →
    resolveRepositoryPath P.cwd workspace operation.relativePath = .ok decision →
      Framed P operation (fileBytes (treeAfter P workspace tree before) decision.absolutePath)
        (fileBytes (treeAfter P workspace tree (before ++ [operation])) decision.absolutePath)

/-- Each edit that a plan makes rests on what it should, at the moment it is made. -/
def SteadyPatch (P : FilePlatform Bytes) (workspace : RepositoryWorkspace) (tree : FileTree Bytes)
    (plan : RepositoryPatchPlan) : Prop :=
  ∀ before operation after decision,
    applied P workspace tree plan.operations = before ++ operation :: after → operation.edits →
    resolveRepositoryPath P.cwd workspace operation.relativePath = .ok decision →
      Steady P operation (fileBytes (treeAfter P workspace tree before) decision.absolutePath)

theorem Utf8.chars_nil (hutf : Utf8 P) : P.chars [] = [] := by
  have hempty : P.bytes [] = [] := by
    have happend := hutf.bytes_append [] []
    rw [List.append_nil] at happend
    exact List.self_eq_append_left.mp happend
  rw [← hempty, chars_bytes]

theorem chars_fileBytes (hutf : Utf8 P) (path : TreePath) :
    P.chars (fileBytes tree path) = currentText P tree path := by
  unfold fileBytes currentText
  cases tree.fileAt path with
  | none => exact hutf.chars_nil
  | some bytes => rfl

/-- An operation that goes through leaves the new text where its path leads. -/
theorem applied_bytes {operation : RepositoryPatchOperation} {texts : Option String × String}
    {decision : ResolvedPath} (hok : (applyOperation P workspace tree operation).1 = .ok texts)
    (hresolved : resolveRepositoryPath P.cwd workspace operation.relativePath = .ok decision) :
    applyPatchOperation operation texts.1 = .ok texts.2 ∧
      (texts.1.getD "").toList = currentText P tree decision.absolutePath ∧
      fileBytes (stepTree P workspace tree operation) decision.absolutePath = P.encode texts.2 := by
  have hstands : standsAt P workspace tree (tree.place decision.absolutePath) operation = true :=
    (standsAt_of_resolved hresolved).mpr rfl
  obtain ⟨hnext, hentry⟩ := stepTree_written hok hstands
  refine ⟨hnext, ?_, ?_⟩
  · have hstep := @applyOperation_step Bytes P workspace tree operation
    generalize applyOperation P workspace tree operation = result at hstep hok
    cases hstep with
    | stopped message tree' hgrown => cases hok
    | written decision' before next made hresolved' hread hnext' hgrown =>
        cases hok
        rw [hresolved] at hresolved'
        cases hresolved'
        exact readCurrentContent_ok hread
  · unfold fileBytes FileTree.fileAt
    rw [FileTree.place_of_links stepTree_links, hentry]
    rfl

/-- **The edits of an accepted plan frame the rest of their files exactly where each rests on what it
should.** -/
theorem patch_framed_iff (hutf : Utf8 P) :
    (Accepted P workspace tree plan policy clock → FramedPatch P workspace tree plan) ↔
    (Accepted P workspace tree plan policy clock → SteadyPatch P workspace tree plan) := by
  refine forall_congr' fun _ => ?_
  have hedit : ∀ before operation after decision,
      applied P workspace tree plan.operations = before ++ operation :: after → operation.edits →
      resolveRepositoryPath P.cwd workspace operation.relativePath = .ok decision →
        (Framed P operation (fileBytes (treeAfter P workspace tree before) decision.absolutePath)
            (fileBytes (treeAfter P workspace tree (before ++ [operation])) decision.absolutePath) ↔
          Steady P operation (fileBytes (treeAfter P workspace tree before) decision.absolutePath)) := by
    intro before operation after decision happlied hedits hresolved
    obtain ⟨texts, hok⟩ := applied_ok happlied
    obtain ⟨hnext, hcurrent, hwritten⟩ := applied_bytes hok hresolved
    have hstep : treeAfter P workspace tree (before ++ [operation]) =
        stepTree P workspace (treeAfter P workspace tree before) operation := by
      unfold treeAfter
      rw [List.foldl_append]
      rfl
    rw [hstep, hwritten]
    exact framed_iff hutf (hcurrent.trans (chars_fileBytes hutf _).symm) hnext hedits
  constructor
  · intro h before operation after decision happlied hedits hresolved
    exact (hedit _ _ _ _ happlied hedits hresolved).mp (h _ _ _ _ happlied hedits hresolved)
  · intro h before operation after decision happlied hedits hresolved
    exact (hedit _ _ _ _ happlied hedits hresolved).mpr (h _ _ _ _ happlied hedits hresolved)

end Plan

/-! ### A range past the end of a file -/

/-- UTF-8; bytes that are not the encoding of a text are each replaced. -/
def utf8Platform : FilePlatform Bytes where
  cwd := []
  encode := fun text => text.toList.flatMap String.utf8EncodeChar
  decode := fun bytes =>
    match bytes.toByteArray.utf8Decode? with
    | some text => String.ofList text.toList
    | none => String.ofList (bytes.map fun _ => Char.ofNat 0xFFFD)
  decode_encode := by
    intro text
    have hencode : (text.toList.flatMap String.utf8EncodeChar).toByteArray = text.toList.utf8Encode :=
      rfl
    rw [hencode, List.utf8Decode?_utf8Encode]
    exact String.ofList_toList
  sha256 := fun _ => "c3f9c8c283a2b1f2f1896f27a01cbe3cddc0c9d93f752e4639035a0f5b36f6e8"
  isDatetime := fun _ => true

theorem utf8Platform_utf8 : Utf8 utf8Platform where
  append a b := by
    show (a ++ b).toList.flatMap String.utf8EncodeChar = _
    rw [String.toList_append, List.flatMap_append]
    rfl
  room bytes := by
    show bytes.length ≤ ((utf8Platform.decode bytes).toList.flatMap String.utf8EncodeChar).length
    unfold utf8Platform
    dsimp only
    cases hdecode : bytes.toByteArray.utf8Decode? with
    | some text =>
        have hback := @ByteArray.utf8Encode_get_utf8Decode? bytes.toByteArray (by rw [hdecode]; rfl)
        simp only [hdecode, Option.get_some] at hback
        have hsize := congrArg ByteArray.size hback
        unfold List.utf8Encode at hsize
        rw [List.size_toByteArray, List.size_toByteArray] at hsize
        dsimp only
        rw [String.toList_ofList, hsize]
    | none =>
        dsimp only
        rw [String.toList_ofList, List.length_flatMap, List.map_map]
        clear hdecode
        induction bytes with
        | nil => exact Nat.zero_le _
        | cons byte bytes ih =>
            have hthree : (String.utf8EncodeChar (Char.ofNat 0xFFFD)).length = 3 := by decide
            simp only [List.map_cons, List.sum_cons, List.length_cons, Function.comp_apply, hthree]
            omega

/-- A repository that holds one file of two lines. -/
def twoLinesTree : FileTree Bytes where
  entries := fun path =>
    if path = [] ∨ path = ["app"] then some .directory
    else if path = ["app", "b.txt"] then some (.file (utf8Platform.bytes "one\ntwo\n".toList))
    else none
  links := fun _ => none

/-- A range of lines of the file is replaced. -/
def rangeOperation (first last : Nat) (content : String) : RepositoryPatchOperation :=
  { patchOperation .replaceRange "b.txt" content with
    expectedSha256 := some "c3f9c8c283a2b1f2f1896f27a01cbe3cddc0c9d93f752e4639035a0f5b36f6e8"
    startLine := some first
    endLine := some last }

def rangePlan (first last : Nat) (content : String) : RepositoryPatchPlan :=
  samplePatchPlan [rangeOperation first last content] ["b.txt"]

/-- The file the operation resolves to. -/
theorem rangeOperation_resolved (first last : Nat) (content : String) :
    resolveRepositoryPath utf8Platform.cwd patchWorkspace (rangeOperation first last content).relativePath =
      .ok ⟨["app", "b.txt"], "b.txt"⟩ := by
  show resolveRepositoryPath [] patchWorkspace "b.txt" = _
  decide +kernel

theorem rangeOperation_applied {first last : Nat} (content : String) (hfirst : 0 < first)
    (hlast : first ≤ last) :
    applied utf8Platform patchWorkspace twoLinesTree (rangePlan first last content).operations =
      [rangeOperation first last content] := by
  have hfile : twoLinesTree.entries (twoLinesTree.place ["app", "b.txt"]) ≠ some .directory := by
    intro h
    cases h
  have hrange : Suits (rangeOperation first last content)
      (currentText utf8Platform twoLinesTree ["app", "b.txt"]) :=
    ⟨first, last, rfl, rfl, hfirst, hlast⟩
  have happlies : Applies utf8Platform patchWorkspace twoLinesTree
      (rangeOperation first last content) :=
    ⟨_, rangeOperation_resolved first last content, hfile, hrange, twoLinesTree, rfl, trivial⟩
  obtain ⟨texts, hok⟩ := applyOperation_iff.mpr happlies
  exact (applied_cons_ok hok).trans rfl

theorem twoLines_bytes :
    fileBytes twoLinesTree ["app", "b.txt"] = utf8Platform.bytes "one\ntwo\n".toList := rfl

/-- The lines after the last one are replaced, so the file grows at its end. -/
theorem rangePlan_not_framed :
    Accepted utf8Platform patchWorkspace twoLinesTree (rangePlan 5 6 "six") none
        "2026-01-01T00:00:00Z" ∧
      ¬ FramedPatch utf8Platform patchWorkspace twoLinesTree (rangePlan 5 6 "six") := by
  refine ⟨accepts_iff.mp (by decide +kernel), fun hframed => ?_⟩
  have happlied := rangeOperation_applied "six" (by decide : 0 < 5) (by decide : 5 ≤ 6)
  obtain ⟨p, s, q, hselects, -⟩ := hframed [] _ [] _ happlied (Or.inr (Or.inr rfl))
    (rangeOperation_resolved 5 6 "six")
  have hold : utf8Platform.chars (fileBytes twoLinesTree ["app", "b.txt"]) = "one\ntwo\n".toList := by
    rw [twoLines_bytes, chars_bytes]
  obtain ⟨first, last, -, hend, hspan⟩ := hselects
  cases hend
  have hinside := hspan.inside
  have hlines : (splitLines (utf8Platform.chars (fileBytes twoLinesTree ["app", "b.txt"]))).length = 3 := by
    rw [hold]
    decide
  have hwrong : 6 ≤ 3 := hlines ▸ hinside
  omega

/-- The first line is replaced, and the others stay. -/
theorem rangePlan_framed : FramedPatch utf8Platform patchWorkspace twoLinesTree (rangePlan 1 1 "zero") := by
  refine (patch_framed_iff utf8Platform_utf8).mpr (fun _ => ?_)
    (accepts_iff.mp (by decide +kernel) : Accepted utf8Platform patchWorkspace twoLinesTree
      (rangePlan 1 1 "zero") none "2026-01-01T00:00:00Z")
  intro before operation after decision happlied hedits hresolved
  rw [rangeOperation_applied "zero" (by decide) (by decide)] at happlied
  cases before with
  | nil =>
      cases happlied
      rw [rangeOperation_resolved] at hresolved
      cases hresolved
      refine steady_of_text utf8Platform_utf8 _ ?_
      intro last hlast
      cases hlast
      decide
  | cons first before => simp at happlied

end OpenLagrange
