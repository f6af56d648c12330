/-
Where a part occurs in a text.

A text is cut at the first occurrence of a part.  What stands before and after is enough to say
that a part occurs once, to insert beside it, and to replace what lies between two parts.
-/
import Mathlib.Data.List.Infix

namespace Occurrence

variable {α : Type} [DecidableEq α] {part text before after : List α}

/-- What stands before the first occurrence of a part, and what stands after it. -/
def cutFirst (part : List α) : List α → Option (List α × List α)
  | [] => if part = [] then some ([], []) else none
  | c :: text =>
      if part.isPrefixOf (c :: text) then some ([], (c :: text).drop part.length)
      else (cutFirst part text).map fun cut => (c :: cut.1, cut.2)

/-- Whether the part occurs in the text. -/
def occurs (part text : List α) : Bool := (cutFirst part text).isSome

theorem cutFirst_append (h : cutFirst part text = some (before, after)) :
    text = before ++ (part ++ after) := by
  induction text generalizing before after with
  | nil =>
      unfold cutFirst at h
      split at h
      · rename_i hpart
        cases h
        rw [hpart]
        rfl
      · cases h
  | cons c text ih =>
      unfold cutFirst at h
      split at h
      · rename_i hprefix
        cases h
        obtain ⟨rest, hrest⟩ := List.isPrefixOf_iff_prefix.mp hprefix
        rw [← hrest]
        simp
      · obtain ⟨cut, hcut, heq⟩ := Option.map_eq_some_iff.mp h
        cases heq
        rw [List.cons_append, ← ih hcut]

/-- A part that occurs is found. -/
theorem occurs_iff : occurs part text = true ↔ part <:+: text := by
  unfold occurs
  constructor
  · intro h
    obtain ⟨⟨before, after⟩, hcut⟩ := Option.isSome_iff_exists.mp h
    exact ⟨before, after, by rw [cutFirst_append hcut, List.append_assoc]⟩
  · intro h
    induction text with
    | nil =>
        have hpart : part = [] := List.infix_nil.mp h
        unfold cutFirst
        rw [if_pos hpart]
        rfl
    | cons c text ih =>
        unfold cutFirst
        split
        · rfl
        · rename_i hprefix
          rcases List.infix_cons_iff.mp h with hstart | hlater
          · exact absurd (List.isPrefixOf_iff_prefix.mpr hstart) hprefix
          · rw [Option.isSome_map]
            exact ih hlater

/-- The part occurs, and it does not occur again after its first occurrence. -/
def OccursOnce (part text : List α) : Prop :=
  ∃ before after, cutFirst part text = some (before, after) ∧ ¬ part <:+: after

theorem occursOnce_iff (hcut : cutFirst part text = some (before, after)) :
    OccursOnce part text ↔ occurs part after = false := by
  unfold OccursOnce
  rw [hcut, ← Bool.not_eq_true, occurs_iff]
  constructor
  · rintro ⟨_, _, heq, hnot⟩
    cases heq
    exact hnot
  · intro hnot
    exact ⟨before, after, rfl, hnot⟩

/-- The part occurs at one position and no other; occurrences may overlap. -/
def Sole (part text : List α) : Prop :=
  ∃ before, (∃ after, text = before ++ (part ++ after)) ∧
    ∀ other after, text = other ++ (part ++ after) → other = before

omit [DecidableEq α] in
theorem Sole.unique (h : Sole part text) {other rest : List α} (htext : text = before ++ (part ++ after))
    (hother : text = other ++ (part ++ rest)) : other = before ∧ rest = after := by
  obtain ⟨position, -, hsole⟩ := h
  have heq : other = before := (hsole other rest hother).trans (hsole before after htext).symm
  refine ⟨heq, ?_⟩
  rw [hother, heq] at htext
  exact List.append_cancel_left (List.append_cancel_left htext)

end Occurrence
