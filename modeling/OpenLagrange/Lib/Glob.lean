/-
Texts in segments, and globs over them.

A text is cut at a separator into segments, and segments are joined to a text again.  A part
without the separator stands at the start, at the end or anywhere in a joined text exactly where
it does so in a segment.

A glob is a list of patterns, one for each segment.  In a pattern a star stands for any part of
the segment; a pattern of two stars stands for any number of segments.
-/
import Mathlib.Data.List.Infix

namespace Glob

variable {α : Type} {sep star c : α} {a b w q text : List α} {n last : List α}
  {ns ps front : List (List α)}

/-! ### Parts of a text with a separator in it -/

theorem prefix_cut (hw : sep ∉ w) : w <+: a ++ sep :: b ↔ w <+: a := by
  induction a generalizing w with
  | nil =>
      cases w with
      | nil => simp
      | cons c w =>
          rw [List.nil_append, List.cons_prefix_cons]
          refine ⟨fun h => (hw (by simp [h.1])).elim, fun h => ?_⟩
          cases List.prefix_nil.mp h
  | cons c a ih =>
      cases w with
      | nil => simp
      | cons d w =>
          rw [List.cons_append, List.cons_prefix_cons, List.cons_prefix_cons,
            ih fun h => hw (List.mem_cons_of_mem _ h)]

theorem suffix_cut (hw : sep ∉ w) : w <:+ a ++ sep :: b ↔ w <:+ b := by
  rw [← List.reverse_prefix, ← @List.reverse_prefix _ w b, List.reverse_append,
    List.reverse_cons, List.append_assoc, List.singleton_append]
  exact prefix_cut (by simpa using hw)

theorem infix_cut (hw : sep ∉ w) : w <:+: a ++ sep :: b ↔ w <:+: a ∨ w <:+: b := by
  induction a with
  | nil =>
      have hstart : w <+: sep :: b ↔ w <+: [] := prefix_cut (a := []) hw
      rw [List.nil_append, List.infix_cons_iff, List.infix_nil, hstart, List.prefix_nil]
  | cons c a ih =>
      have hstart : w <+: c :: (a ++ sep :: b) ↔ w <+: c :: a := prefix_cut (a := c :: a) hw
      rw [List.cons_append, List.infix_cons_iff, List.infix_cons_iff, ih, hstart, or_assoc]

/-- A part that ends in the separator stands before the first separator only as a whole. -/
theorem closed_prefix_cut (hq : sep ∉ q) (ha : sep ∉ a) :
    q ++ [sep] <+: a ++ sep :: b ↔ q = a := by
  induction a generalizing q with
  | nil =>
      cases q with
      | nil => simp
      | cons d q =>
          rw [List.nil_append, List.cons_append, List.cons_prefix_cons]
          refine ⟨fun h => (hq (by simp [h.1])).elim, fun h => by cases h⟩
  | cons c a ih =>
      cases q with
      | nil =>
          rw [List.nil_append, List.cons_append, List.cons_prefix_cons]
          refine ⟨fun h => (ha (by simp [h.1])).elim, fun h => by cases h⟩
      | cons d q =>
          rw [List.cons_append, List.cons_append, List.cons_prefix_cons, List.cons.injEq,
            ih (fun h => hq (List.mem_cons_of_mem _ h)) fun h => ha (List.mem_cons_of_mem _ h)]

theorem closed_infix_cut (hq : sep ∉ q) (ha : sep ∉ a) :
    q ++ [sep] <:+: a ++ sep :: b ↔ q <:+ a ∨ q ++ [sep] <:+: b := by
  induction a with
  | nil =>
      have hstart : q ++ [sep] <+: sep :: b ↔ q = [] := closed_prefix_cut (a := []) hq (by simp)
      rw [List.nil_append, List.infix_cons_iff, hstart, List.suffix_nil]
  | cons c a ih =>
      have hstart : q ++ [sep] <+: c :: (a ++ sep :: b) ↔ q = c :: a :=
        closed_prefix_cut (a := c :: a) hq ha
      rw [List.cons_append, List.infix_cons_iff, ih fun h => ha (List.mem_cons_of_mem _ h), hstart,
        List.suffix_cons_iff, or_assoc]

/-! ### Joined segments -/

/-- The segments with the separator between them. -/
def joined (sep : α) : List (List α) → List α
  | [] => []
  | [n] => n
  | n :: next :: ns => n ++ sep :: joined sep (next :: ns)

theorem joined_cons (hns : ns ≠ []) : joined sep (n :: ns) = n ++ sep :: joined sep ns := by
  cases ns with
  | nil => exact (hns rfl).elim
  | cons next ns => rfl

theorem joined_append (hps : ps ≠ []) (hns : ns ≠ []) :
    joined sep (ps ++ ns) = joined sep ps ++ sep :: joined sep ns := by
  induction ps with
  | nil => exact (hps rfl).elim
  | cons p ps ih =>
      by_cases hnil : ps = []
      · subst hnil
        exact joined_cons hns
      · rw [List.cons_append, joined_cons (by simp [hnil]), ih hnil, joined_cons hnil,
          List.append_assoc, List.cons_append]

theorem mem_joined (hc : c ≠ sep) : c ∈ joined sep ns ↔ ∃ n ∈ ns, c ∈ n := by
  induction ns with
  | nil => simp [joined]
  | cons n ns ih =>
      by_cases hnil : ns = []
      · subst hnil
        simp [joined]
      · rw [joined_cons hnil, List.mem_append, List.mem_cons, ih]
        simp [hc]

theorem prefix_joined (hw : sep ∉ w) : w <+: joined sep (n :: ns) ↔ w <+: n := by
  by_cases hnil : ns = []
  · rw [hnil]
    rfl
  · rw [joined_cons hnil, prefix_cut hw]

theorem suffix_joined (hw : sep ∉ w) : w <:+ joined sep (front ++ [last]) ↔ w <:+ last := by
  by_cases hnil : front = []
  · rw [hnil]
    rfl
  · rw [joined_append hnil (by simp), suffix_cut hw]
    rfl

theorem infix_joined (hw : sep ∉ w) : w <:+: joined sep (n :: ns) ↔ ∃ m ∈ n :: ns, w <:+: m := by
  induction ns generalizing n with
  | nil => simp [joined]
  | cons next ns ih =>
      rw [joined_cons (by simp), infix_cut hw, ih]
      simp

/-- A part that ends in the separator stands where a segment with one after it ends. -/
theorem closed_infix_joined (hq : sep ∉ q) (hns : ∀ n ∈ ns, sep ∉ n) :
    q ++ [sep] <:+: joined sep ns ↔
      ∃ front n rest, ns = front ++ n :: rest ∧ rest ≠ [] ∧ q <:+ n := by
  induction ns with
  | nil => simp [joined]
  | cons n ns ih =>
      have ih := ih fun m hm => hns m (List.mem_cons_of_mem _ hm)
      by_cases hnil : ns = []
      · subst hnil
        constructor
        · intro h
          exact (hns n (by simp) (h.subset (by simp))).elim
        · rintro ⟨front, m, rest, heq, hrest, -⟩
          cases front with
          | nil =>
              cases heq
              exact (hrest rfl).elim
          | cons f front => simp at heq
      · rw [joined_cons hnil, closed_infix_cut hq (hns n (by simp)), ih]
        constructor
        · rintro (h | ⟨front, m, rest, rfl, hrest, h⟩)
          · exact ⟨[], n, ns, rfl, hnil, h⟩
          · exact ⟨n :: front, m, rest, rfl, hrest, h⟩
        · rintro ⟨front, m, rest, heq, hrest, h⟩
          cases front with
          | nil =>
              cases heq
              exact Or.inl h
          | cons f front =>
              cases heq
              exact Or.inr ⟨front, m, rest, rfl, hrest, h⟩

/-! ### Cutting a text -/

section Split

variable [DecidableEq α]

/-- The segments of a text. -/
def split (sep : α) : List α → List (List α)
  | [] => [[]]
  | c :: text =>
      match split sep text with
      | [] => [[]]
      | first :: others => if c = sep then [] :: first :: others else (c :: first) :: others

theorem split_ne_nil : split sep text ≠ [] := by
  cases text with
  | nil => simp [split]
  | cons c text =>
      unfold split
      split
      · simp
      · split <;> simp

theorem split_sep : split sep (sep :: text) = [] :: split sep text := by
  cases heq : split sep text with
  | nil => exact (split_ne_nil heq).elim
  | cons first others =>
      rw [split, heq]
      exact if_pos rfl

variable (text) in
theorem split_cons (hc : c ≠ sep) :
    ∃ first others, split sep text = first :: others ∧
      split sep (c :: text) = (c :: first) :: others := by
  cases heq : split sep text with
  | nil => exact (split_ne_nil heq).elim
  | cons first others =>
      refine ⟨first, others, rfl, ?_⟩
      rw [split, heq]
      exact if_neg hc

theorem split_append : split sep (a ++ sep :: b) = split sep a ++ split sep b := by
  induction a with
  | nil => exact split_sep
  | cons c a ih =>
      by_cases hc : c = sep
      · subst hc
        rw [List.cons_append, split_sep, split_sep, ih, List.cons_append]
      · obtain ⟨first, others, hsplit, hcons⟩ := split_cons a hc
        obtain ⟨first', others', hsplit', hcons'⟩ := split_cons (a ++ sep :: b) hc
        rw [List.cons_append, hcons', hcons]
        rw [ih, hsplit, List.cons_append, List.cons.injEq] at hsplit'
        rw [← hsplit'.1, ← hsplit'.2, List.cons_append]

theorem split_free (htext : sep ∉ text) : split sep text = [text] := by
  induction text with
  | nil => rfl
  | cons c text ih =>
      have hc : c ≠ sep := fun h => htext (by simp [h])
      obtain ⟨first, others, hsplit, hcons⟩ := split_cons text hc
      rw [ih fun h => htext (List.mem_cons_of_mem _ h)] at hsplit
      cases hsplit
      exact hcons

/-- Cutting undoes joining. -/
theorem split_joined (hns : ∀ n ∈ ns, sep ∉ n) (hne : ns ≠ []) : split sep (joined sep ns) = ns := by
  induction ns with
  | nil => exact (hne rfl).elim
  | cons n ns ih =>
      by_cases hnil : ns = []
      · subst hnil
        exact split_free (hns n (by simp))
      · rw [joined_cons hnil, split_append, split_free (hns n (by simp)),
          ih (fun m hm => hns m (List.mem_cons_of_mem _ hm)) hnil, List.singleton_append]

variable (sep text) in
/-- Joining undoes cutting. -/
theorem joined_split : joined sep (split sep text) = text := by
  induction text with
  | nil => rfl
  | cons c text ih =>
      by_cases hc : c = sep
      · subst hc
        rw [split_sep, joined_cons split_ne_nil, ih, List.nil_append]
      · obtain ⟨first, others, hsplit, hcons⟩ := split_cons text hc
        rw [hsplit] at ih
        rw [hcons]
        cases others with
        | nil =>
            have hfirst : first = text := ih
            rw [hfirst]
            rfl
        | cons next others =>
            rw [joined_cons (by simp)] at ih
            rw [joined_cons (by simp), List.cons_append, ih]

theorem sep_not_mem_split (h : n ∈ split sep text) : sep ∉ n := by
  induction text generalizing n with
  | nil =>
      rw [split, List.mem_singleton] at h
      rw [h]
      exact List.not_mem_nil
  | cons c text ih =>
      by_cases hc : c = sep
      · subst hc
        rw [split_sep, List.mem_cons] at h
        rcases h with rfl | h
        · exact List.not_mem_nil
        · exact ih h
      · obtain ⟨first, others, hsplit, hcons⟩ := split_cons text hc
        rw [hcons, List.mem_cons] at h
        rcases h with rfl | h
        · rw [List.mem_cons, not_or]
          exact ⟨Ne.symm hc, ih (by simp [hsplit])⟩
        · exact ih (by simp [hsplit, h])

/-- A text with a separator after it starts a joined text where its segments come first. -/
theorem cut_prefix_joined (hns : ∀ n ∈ ns, sep ∉ n) (hne : ns ≠ []) :
    a ++ [sep] <+: joined sep ns ↔ ∃ rest, rest ≠ [] ∧ ns = split sep a ++ rest := by
  constructor
  · rintro ⟨b, hb⟩
    refine ⟨split sep b, split_ne_nil, ?_⟩
    rw [← split_append, ← split_joined hns hne, ← hb, List.append_assoc, List.singleton_append]
  · rintro ⟨rest, hrest, rfl⟩
    rw [joined_append split_ne_nil hrest, joined_split sep a]
    exact ⟨joined sep rest, by simp⟩

end Split

/-! ### Globs -/

/-- A segment is what a pattern describes, in which a star stands for any part. -/
inductive Segment (star : α) : List α → List α → Prop
  | nil : Segment star [] []
  | star {pattern front rest : List α} (h : Segment star pattern rest) :
      Segment star (star :: pattern) (front ++ rest)
  | char {c : α} {pattern rest : List α} (hc : c ≠ star) (h : Segment star pattern rest) :
      Segment star (c :: pattern) (c :: rest)

/-- Segments are what a list of patterns describes, in which two stars stand for any segments. -/
inductive Path (star : α) : List (List α) → List (List α) → Prop
  | nil : Path star [] []
  | deep {patterns front rest : List (List α)} (h : Path star patterns rest) :
      Path star ([star, star] :: patterns) (front ++ rest)
  | segment {pattern segment : List α} {patterns rest : List (List α)}
      (hdeep : pattern ≠ [star, star]) (hsegment : Segment star pattern segment)
      (h : Path star patterns rest) : Path star (pattern :: patterns) (segment :: rest)

end Glob
