/-
Fenced blocks of a text, the way one regular expression finds them.

A block begins with three backticks and the rest of that line, in which no further backtick
may stand, and ends at the next three backticks.  Blocks are found from left to right and do
not overlap.

What the scan finds in a text does not depend on what comes after, as long as the text
leaves no fence open: then the blocks of `before ++ after` are the blocks of the two parts.
-/
import Mathlib.Data.List.Infix
import Mathlib.Data.List.TakeWhile
import Mathlib.Tactic.Common

namespace Fences

/-- The three backticks that open and close a block. -/
def mark : List Char := ['`', '`', '`']

/-- A character that can stand in the first line of a block. -/
def lineChar (c : Char) : Bool := c ≠ '\n' ∧ c ≠ '`'

/-- The text before the first mark, and the text after that mark. -/
def cut : List Char → Option (List Char × List Char)
  | [] => none
  | c :: rest =>
      if mark.isPrefixOf (c :: rest) then some ([], rest.drop 2)
      else (cut rest).map fun parts => (c :: parts.1, parts.2)

structure Fence where
  info : List Char
  body : List Char
  after : List Char
  deriving DecidableEq, Repr

/-- The text behind the first line of a block that begins here. -/
def opened (text : List Char) : Option (List Char) :=
  if mark.isPrefixOf text then
    match (text.drop 3).dropWhile lineChar with
    | '\n' :: rest => some rest
    | _ => none
  else none

/-- The block that begins here. -/
def fenceAt (text : List Char) : Option Fence :=
  (opened text).bind fun rest => (cut rest).map fun parts =>
    ⟨(text.drop 3).takeWhile lineChar, parts.1, parts.2⟩

/-- The blocks of a text, with the number of characters that still belong to the last one. -/
def scan : Nat → List Char → List (List Char × List Char)
  | _, [] => []
  | skip + 1, _ :: rest => scan skip rest
  | 0, c :: rest =>
      match fenceAt (c :: rest) with
      | some fence => (fence.info, fence.body) :: scan (rest.length - fence.after.length) rest
      | none => scan 0 rest

/-- Whether a block begins that does not end. -/
def leftOpen : Nat → List Char → Bool
  | _, [] => false
  | skip + 1, _ :: rest => leftOpen skip rest
  | 0, c :: rest =>
      match fenceAt (c :: rest) with
      | some fence => leftOpen (rest.length - fence.after.length) rest
      | none => (opened (c :: rest)).isSome || leftOpen 0 rest

/-! ### Cutting at a mark -/

theorem cut_append {text body after : List Char} (more : List Char)
    (h : cut text = some (body, after)) : cut (text ++ more) = some (body, after ++ more) := by
  induction text generalizing body with
  | nil => cases h
  | cons c rest ih =>
      unfold cut at h
      rw [List.cons_append]
      unfold cut
      by_cases hmark : mark.isPrefixOf (c :: rest) = true
      · rw [if_pos hmark] at h
        obtain ⟨tail, htail⟩ := List.isPrefixOf_iff_prefix.mp hmark
        have hrest : rest = '`' :: '`' :: tail := (List.cons.inj htail).2.symm
        subst hrest
        have hmark' : mark.isPrefixOf (c :: ('`' :: '`' :: tail ++ more)) = true := by
          rw [List.isPrefixOf_iff_prefix]
          exact ⟨tail ++ more, by rw [← (List.cons.inj htail).1]; rfl⟩
        rw [if_pos hmark']
        obtain ⟨rfl, rfl⟩ := Prod.mk.inj (Option.some.inj h)
        rfl
      · rw [if_neg hmark, Option.map_eq_some_iff] at h
        obtain ⟨⟨b, r⟩, hcut, heq⟩ := h
        obtain ⟨rfl, rfl⟩ := Prod.mk.inj heq
        have hmark' : ¬ mark.isPrefixOf (c :: (rest ++ more)) = true := by
          intro hpre
          rw [List.isPrefixOf_iff_prefix] at hpre hmark
          -- a mark that reaches into what follows would leave no room for the one in `rest`
          have hlong : 3 ≤ (c :: rest).length := by
            by_contra hshort
            rcases rest with - | ⟨d, - | ⟨e, rest⟩⟩
            · cases hcut
            · simp [cut, mark] at hcut
            · exact hshort (by simp)
          exact hmark (List.prefix_of_prefix_length_le hpre (List.prefix_append (c :: rest) more) hlong)
        rw [if_neg hmark', ih hcut]
        rfl

/-- A cut takes the text apart. -/
theorem cut_eq {text body after : List Char} (h : cut text = some (body, after)) :
    text = body ++ (mark ++ after) := by
  induction text generalizing body with
  | nil => cases h
  | cons c rest ih =>
      unfold cut at h
      by_cases hmark : mark.isPrefixOf (c :: rest) = true
      · rw [if_pos hmark] at h
        obtain ⟨rfl, rfl⟩ := Prod.mk.inj (Option.some.inj h)
        obtain ⟨tail, htail⟩ := List.isPrefixOf_iff_prefix.mp hmark
        obtain ⟨rfl, hrest⟩ := List.cons.inj htail
        rw [← hrest]
        rfl
      · rw [if_neg hmark, Option.map_eq_some_iff] at h
        obtain ⟨⟨b, r⟩, hcut, heq⟩ := h
        obtain ⟨rfl, rfl⟩ := Prod.mk.inj heq
        rw [ih hcut]
        rfl

/-- Up to the mark where it was cut a text has no other mark. -/
theorem cut_body {text body after : List Char} (h : cut text = some (body, after)) :
    cut (body ++ mark) = some (body, []) := by
  induction text generalizing body with
  | nil => cases h
  | cons c rest ih =>
      have heq := cut_eq h
      unfold cut at h
      by_cases hmark : mark.isPrefixOf (c :: rest) = true
      · rw [if_pos hmark] at h
        obtain ⟨rfl, -⟩ := Prod.mk.inj (Option.some.inj h)
        rfl
      · rw [if_neg hmark, Option.map_eq_some_iff] at h
        obtain ⟨⟨b, r⟩, hcut, hparts⟩ := h
        obtain ⟨rfl, rfl⟩ := Prod.mk.inj hparts
        rw [List.cons_append]
        unfold cut
        have hmark' : ¬ mark.isPrefixOf (c :: (b ++ mark)) = true := by
          rw [List.isPrefixOf_iff_prefix] at hmark ⊢
          intro hpre
          refine hmark (hpre.trans ⟨r, ?_⟩)
          rw [heq]
          simp
        rw [if_neg hmark', ih hcut]
        rfl

/-- A text without a mark ends its block on the line below. -/
theorem cut_line {text : List Char} (h : ¬ mark <:+: text) (after : List Char) :
    cut (text ++ '\n' :: (mark ++ after)) = some (text ++ ['\n'], after) := by
  induction text with
  | nil => rfl
  | cons c rest ih =>
      have hrest : ¬ mark <:+: rest :=
        fun hin => h (hin.trans (List.infix_cons_iff.mpr (Or.inr List.infix_rfl)))
      have hmark : ¬ mark.isPrefixOf (c :: (rest ++ '\n' :: (mark ++ after))) = true := by
        rw [List.isPrefixOf_iff_prefix]
        intro hpre
        rcases rest with - | ⟨d, - | ⟨e, rest⟩⟩
        · simp [mark] at hpre
        · simp [mark] at hpre
        · refine h (List.IsPrefix.isInfix ?_)
          have hlong : mark.length ≤ (c :: d :: e :: rest).length := by simp [mark]
          exact List.prefix_of_prefix_length_le hpre (List.prefix_append _ _) hlong
      rw [List.cons_append]
      unfold cut
      rw [if_neg hmark, ih hrest]
      rfl

/-! ### One block -/

theorem dropWhile_append_of_ne {l more : List Char} {c : Char} {rest : List Char}
    (h : l.dropWhile lineChar = c :: rest) :
    (l ++ more).dropWhile lineChar = c :: (rest ++ more) := by
  rw [List.dropWhile_append, h]
  rfl

theorem takeWhile_append_of_ne {l more : List Char} {c : Char} {rest : List Char}
    (h : l.dropWhile lineChar = c :: rest) :
    (l ++ more).takeWhile lineChar = l.takeWhile lineChar := by
  rw [List.takeWhile_append, if_neg]
  intro hlength
  have hall := List.takeWhile_append_dropWhile (p := lineChar) (l := l)
  rw [h] at hall
  have hsum := congrArg List.length hall
  rw [List.length_append, List.length_cons] at hsum
  omega

theorem opened_eq {text rest : List Char} (h : opened text = some rest) :
    ∃ line, text = mark ++ line ∧ line.dropWhile lineChar = '\n' :: rest := by
  unfold opened at h
  split at h
  · rename_i hmark
    obtain ⟨line, rfl⟩ := List.isPrefixOf_iff_prefix.mp hmark
    refine ⟨line, rfl, ?_⟩
    split at h
    · rename_i hline
      obtain rfl := Option.some.inj h
      exact hline
    · cases h
  · cases h

theorem opened_mark {line rest : List Char} (h : line.dropWhile lineChar = '\n' :: rest) :
    opened (mark ++ line) = some rest := by
  unfold opened
  rw [if_pos (List.isPrefixOf_iff_prefix.mpr (List.prefix_append mark line))]
  show (match line.dropWhile lineChar with
    | '\n' :: rest => some rest
    | _ => none) = some rest
  rw [h]
  rfl

theorem opened_append {text rest : List Char} (more : List Char) (h : opened text = some rest) :
    opened (text ++ more) = some (rest ++ more) := by
  obtain ⟨line, rfl, hline⟩ := opened_eq h
  rw [List.append_assoc]
  exact opened_mark (dropWhile_append_of_ne hline)

theorem fenceAt_append {text : List Char} {fence : Fence} (more : List Char)
    (h : fenceAt text = some fence) :
    fenceAt (text ++ more) = some ⟨fence.info, fence.body, fence.after ++ more⟩ := by
  unfold fenceAt at h
  rw [Option.bind_eq_some_iff] at h
  obtain ⟨rest, hopened, hcut⟩ := h
  rw [Option.map_eq_some_iff] at hcut
  obtain ⟨⟨body, after⟩, hcut, rfl⟩ := hcut
  obtain ⟨line, rfl, hline⟩ := opened_eq hopened
  unfold fenceAt
  rw [opened_append more hopened, Option.bind_some, cut_append more hcut, Option.map_some]
  rw [List.append_assoc]
  show some (Fence.mk ((line ++ more).takeWhile lineChar) body (after ++ more)) = _
  rw [takeWhile_append_of_ne hline]
  rfl

/-- A block takes the text apart. -/
theorem fenceAt_eq {text : List Char} {fence : Fence} (h : fenceAt text = some fence) :
    text = mark ++ (fence.info ++ '\n' :: (fence.body ++ (mark ++ fence.after))) := by
  unfold fenceAt at h
  rw [Option.bind_eq_some_iff] at h
  obtain ⟨rest, hopened, hcut⟩ := h
  rw [Option.map_eq_some_iff] at hcut
  obtain ⟨⟨body, after⟩, hcut, rfl⟩ := hcut
  obtain ⟨line, rfl, hline⟩ := opened_eq hopened
  have hparts := List.takeWhile_append_dropWhile (p := lineChar) (l := line)
  rw [hline, cut_eq hcut] at hparts
  show mark ++ line = mark ++ (line.takeWhile lineChar ++ '\n' :: (body ++ (mark ++ after)))
  rw [hparts]

/-- A mark that follows does not turn the end of a text into the beginning of a block. -/
theorem fenceAt_append_none {text next : List Char} (hne : text ≠ []) (hfence : fenceAt text = none)
    (hopened : opened text = none) (hnext : mark <+: next) : fenceAt (text ++ next) = none := by
  obtain ⟨more, rfl⟩ := hnext
  have hclosed : opened (text ++ (mark ++ more)) = none := by
    cases heq : opened (text ++ (mark ++ more)) with
    | none => rfl
    | some rest =>
        exfalso
        obtain ⟨line, htext, hline⟩ := opened_eq heq
        rcases List.append_eq_append_iff.mp htext with ⟨u, hmark, hrest⟩ | ⟨u, rfl, hrest⟩
        · -- the mark begins in the text and ends in what follows
          have hhead : ∃ tail, line = '`' :: tail := by
            have hlen : u.length < 3 := by
              have hsum := congrArg List.length hmark
              have hpos : 0 < text.length := List.length_pos_of_ne_nil hne
              rw [List.length_append] at hsum
              simp [mark] at hsum
              omega
            rcases u with - | ⟨a, - | ⟨b, - | ⟨c, u⟩⟩⟩
            · exact ⟨_, hrest.symm⟩
            · exact ⟨_, (List.cons.inj hrest).2.symm⟩
            · exact ⟨_, (List.cons.inj (List.cons.inj hrest).2).2.symm⟩
            · simp only [List.length_cons] at hlen
              omega
          obtain ⟨tail, rfl⟩ := hhead
          simp [lineChar] at hline
        · -- the mark stands in the text
          cases hdrop : u.dropWhile lineChar with
          | nil =>
              rw [hrest, List.dropWhile_append, hdrop] at hline
              simp [mark, lineChar] at hline
          | cons c v =>
              rw [hrest, dropWhile_append_of_ne hdrop] at hline
              obtain ⟨rfl, -⟩ := List.cons.inj hline
              rw [opened_mark hdrop] at hopened
              cases hopened
  unfold fenceAt
  rw [hclosed]
  rfl

/-! ### The scan -/

theorem scan_skip (skip : Nat) (text : List Char) : scan skip text = scan 0 (text.drop skip) := by
  induction skip generalizing text with
  | zero => rfl
  | succ k ih =>
      cases text with
      | nil => rfl
      | cons c rest => exact ih rest

theorem leftOpen_skip (skip : Nat) (text : List Char) :
    leftOpen skip text = leftOpen 0 (text.drop skip) := by
  induction skip generalizing text with
  | zero => rfl
  | succ k ih =>
      cases text with
      | nil => rfl
      | cons c rest => exact ih rest

theorem drop_to_after {c : Char} {rest : List Char} {fence : Fence}
    (h : fenceAt (c :: rest) = some fence) :
    rest.drop (rest.length - fence.after.length) = fence.after := by
  have heq := fenceAt_eq h
  obtain ⟨front, hfront⟩ : ∃ front, rest = front ++ fence.after := by
    refine ⟨'`' :: '`' :: (fence.info ++ '\n' :: (fence.body ++ mark)), ?_⟩
    rw [(List.cons.inj heq).2]
    simp [mark]
  rw [hfront, List.length_append, Nat.add_sub_cancel]
  exact List.drop_left

/-- A block that is found is followed by the blocks behind it. -/
theorem scan_fence {text : List Char} {fence : Fence} (h : fenceAt text = some fence) :
    scan 0 text = (fence.info, fence.body) :: scan 0 fence.after := by
  cases text with
  | nil => cases h
  | cons c rest =>
      rw [scan, h]
      show _ :: scan (rest.length - fence.after.length) rest = _
      rw [scan_skip, drop_to_after h]

theorem leftOpen_fence {text : List Char} {fence : Fence} (h : fenceAt text = some fence) :
    leftOpen 0 text = leftOpen 0 fence.after := by
  cases text with
  | nil => cases h
  | cons c rest =>
      rw [leftOpen, h]
      show leftOpen (rest.length - fence.after.length) rest = _
      rw [leftOpen_skip, drop_to_after h]

theorem scan_none {c : Char} {rest : List Char} (h : fenceAt (c :: rest) = none) :
    scan 0 (c :: rest) = scan 0 rest := by
  rw [scan, h]

theorem leftOpen_none {c : Char} {rest : List Char} (h : fenceAt (c :: rest) = none) :
    leftOpen 0 (c :: rest) = ((opened (c :: rest)).isSome || leftOpen 0 rest) := by
  rw [leftOpen, h]

theorem after_length {text : List Char} {fence : Fence} (h : fenceAt text = some fence) :
    fence.after.length < text.length := by
  have heq := congrArg List.length (fenceAt_eq h)
  simp only [List.length_append, List.length_cons, mark] at heq
  omega

/-- **A text that leaves no block open is scanned on its own.** -/
theorem scan_append {text next : List Char} (hclosed : leftOpen 0 text = false)
    (hnext : mark <+: next) : scan 0 (text ++ next) = scan 0 text ++ scan 0 next := by
  induction hn : text.length using Nat.strong_induction_on generalizing text with
  | _ n ih =>
      cases text with
      | nil => rfl
      | cons c rest =>
          cases hfence : fenceAt (c :: rest) with
          | some fence =>
              rw [leftOpen_fence hfence] at hclosed
              have hrest := ih fence.after.length (hn ▸ after_length hfence) hclosed rfl
              rw [scan_fence hfence, scan_fence (fenceAt_append next hfence), hrest]
              rfl
          | none =>
              rw [leftOpen_none hfence, Bool.or_eq_false_iff] at hclosed
              have hopened : opened (c :: rest) = none := by simpa using hclosed.1
              have hrest := ih rest.length (by rw [← hn]; simp) hclosed.2 rfl
              have hnone := fenceAt_append_none (List.cons_ne_nil c rest) hfence hopened hnext
              rw [List.cons_append] at hnone ⊢
              rw [scan_none hfence, scan_none hnone, hrest]

/-- A block as it is written, in front of anything. -/
theorem fenceAt_block {info body : List Char} (hinfo : ∀ c ∈ info, lineChar c = true)
    (hbody : cut (body ++ mark) = some (body, [])) (after : List Char) :
    fenceAt (mark ++ (info ++ '\n' :: (body ++ (mark ++ after)))) = some ⟨info, body, after⟩ := by
  have hdrop : (info ++ '\n' :: (body ++ (mark ++ after))).dropWhile lineChar =
      '\n' :: (body ++ (mark ++ after)) := by
    rw [List.dropWhile_append_of_pos hinfo]
    rfl
  have htake : (info ++ '\n' :: (body ++ (mark ++ after))).takeWhile lineChar = info := by
    rw [List.takeWhile_append_of_pos hinfo]
    simp [lineChar]
  have hcut : cut (body ++ (mark ++ after)) = some (body, after) := by
    have happend := cut_append after hbody
    rw [List.append_assoc] at happend
    exact happend
  unfold fenceAt
  rw [opened_mark hdrop, Option.bind_some, hcut, Option.map_some]
  show some (Fence.mk ((info ++ '\n' :: (body ++ (mark ++ after))).takeWhile lineChar) body after) = _
  rw [htake]

/-- Where a block was found, its first line and its body are such that it can be found again. -/
theorem block_of_scan {text : List Char} {block : List Char × List Char} (h : block ∈ scan 0 text) :
    (∀ c ∈ block.1, lineChar c = true) ∧ cut (block.2 ++ mark) = some (block.2, []) := by
  induction hn : text.length using Nat.strong_induction_on generalizing text with
  | _ n ih =>
      cases text with
      | nil => cases h
      | cons c rest =>
          cases hfence : fenceAt (c :: rest) with
          | none =>
              rw [scan_none hfence] at h
              exact ih rest.length (by rw [← hn]; simp) h rfl
          | some fence =>
              rw [scan_fence hfence] at h
              rcases List.mem_cons.mp h with rfl | hafter
              · unfold fenceAt at hfence
                rw [Option.bind_eq_some_iff] at hfence
                obtain ⟨text, -, hcut⟩ := hfence
                rw [Option.map_eq_some_iff] at hcut
                obtain ⟨⟨body, after⟩, hcut, rfl⟩ := hcut
                exact ⟨fun d hd => List.mem_takeWhile_imp hd, cut_body hcut⟩
              · exact ih fence.after.length (hn ▸ after_length hfence) hafter rfl

/-- A text without a mark has no block, and leaves none open. -/
theorem scan_of_no_mark {text : List Char} (h : ¬ mark <:+: text) :
    scan 0 text = [] ∧ leftOpen 0 text = false := by
  induction text with
  | nil => exact ⟨rfl, rfl⟩
  | cons c rest ih =>
      have hrest : ¬ mark <:+: rest :=
        fun hin => h (hin.trans (List.infix_cons_iff.mpr (Or.inr List.infix_rfl)))
      have hopened : opened (c :: rest) = none := by
        unfold opened
        rw [if_neg]
        rw [List.isPrefixOf_iff_prefix]
        exact fun hpre => h hpre.isInfix
      have hfence : fenceAt (c :: rest) = none := by
        unfold fenceAt
        rw [hopened]
        rfl
      rw [scan_none hfence, leftOpen_none hfence, hopened]
      exact ⟨(ih hrest).1, (ih hrest).2⟩

end Fences
