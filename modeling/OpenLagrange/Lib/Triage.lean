/-
Going through a list once and keeping some of it.

Each element is judged on what has been kept before it: it is kept too, or put aside with a
reason.  The trail of a run is the list itself with the verdict at each element, so every element
is on one side and in its place; what was kept at an element is the run of the elements before it.
-/
import Mathlib.Data.List.Perm.Basic
import Mathlib.Data.List.Induction

namespace Triage

variable {α ρ : Type}

/-! ### The two sides of a trail -/

/-- What a trail keeps. -/
def kept : List (α × Option ρ) → List α
  | [] => []
  | (a, none) :: rest => a :: kept rest
  | (_, some _) :: rest => kept rest

/-- What a trail puts aside, with the reasons. -/
def aside : List (α × Option ρ) → List (α × ρ)
  | [] => []
  | (_, none) :: rest => aside rest
  | (a, some reason) :: rest => (a, reason) :: aside rest

theorem kept_append (front back : List (α × Option ρ)) :
    kept (front ++ back) = kept front ++ kept back := by
  induction front with
  | nil => rfl
  | cons entry front ih =>
      obtain ⟨a, verdict⟩ := entry
      cases verdict with
      | none => exact congrArg (a :: ·) ih
      | some reason => exact ih

theorem aside_append (front back : List (α × Option ρ)) :
    aside (front ++ back) = aside front ++ aside back := by
  induction front with
  | nil => rfl
  | cons entry front ih =>
      obtain ⟨a, verdict⟩ := entry
      cases verdict with
      | none => exact ih
      | some reason => exact congrArg ((a, reason) :: ·) ih

theorem mem_kept_iff {trail : List (α × Option ρ)} {a : α} : a ∈ kept trail ↔ (a, none) ∈ trail := by
  induction trail with
  | nil => simp [kept]
  | cons entry trail ih =>
      obtain ⟨b, verdict⟩ := entry
      cases verdict with
      | none => simp [kept, ih]
      | some reason => simp [kept, ih]

theorem mem_aside_iff {trail : List (α × Option ρ)} {a : α} {reason : ρ} :
    (a, reason) ∈ aside trail ↔ (a, some reason) ∈ trail := by
  induction trail with
  | nil => simp [aside]
  | cons entry trail ih =>
      obtain ⟨b, verdict⟩ := entry
      cases verdict with
      | none => simp [aside, ih]
      | some reason => simp [aside, ih]

theorem kept_sublist (trail : List (α × Option ρ)) : (kept trail).Sublist (trail.map (·.1)) := by
  induction trail with
  | nil => exact List.Sublist.slnil
  | cons entry trail ih =>
      obtain ⟨a, verdict⟩ := entry
      cases verdict with
      | none => exact ih.cons_cons a
      | some reason => exact ih.cons a

/-- **Everything is on one side.** -/
theorem sides_perm (trail : List (α × Option ρ)) :
    (kept trail ++ (aside trail).map (·.1)).Perm (trail.map (·.1)) := by
  induction trail with
  | nil => exact List.Perm.refl _
  | cons entry trail ih =>
      obtain ⟨a, verdict⟩ := entry
      cases verdict with
      | none => exact ih.cons a
      | some reason => exact List.perm_middle.trans (ih.cons a)

/-! ### Runs -/

section Runs

variable (judge : List α → α → Option ρ)

def step (trail : List (α × Option ρ)) (a : α) : List (α × Option ρ) :=
  trail ++ [(a, judge (kept trail) a)]

/-- The trail of a list. -/
def run (items : List α) : List (α × Option ρ) := items.foldl (step judge) []

variable {judge} {items front back : List α} {a : α}

theorem run_concat (items : List α) (a : α) :
    run judge (items ++ [a]) = run judge items ++ [(a, judge (kept (run judge items)) a)] := by
  unfold run
  rw [List.foldl_append]
  rfl

variable (judge) in
theorem run_map_fst (items : List α) : (run judge items).map (·.1) = items := by
  induction items using List.reverseRecOn with
  | nil => rfl
  | append_singleton items a ih => rw [run_concat, List.map_append, ih]; rfl

variable (judge) in
theorem run_length (items : List α) : (run judge items).length = items.length := by
  have h := congrArg List.length (run_map_fst judge items)
  rwa [List.length_map] at h

variable (judge) in
/-- A longer list only adds to the trail. -/
theorem run_prefix (front back : List α) : run judge front <+: run judge (front ++ back) := by
  induction back using List.reverseRecOn with
  | nil =>
      have hsame : run judge (front ++ []) = run judge front := by rw [List.append_nil]
      exact hsame ▸ List.prefix_refl _
  | append_singleton back a ih =>
      rw [← List.append_assoc, run_concat]
      exact ih.trans (List.prefix_append _ _)

variable (judge) in
/-- **An element is judged on what was kept before it.** -/
theorem run_split (front back : List α) (a : α) :
    ∃ rest, run judge (front ++ a :: back) =
        run judge front ++ (a, judge (kept (run judge front)) a) :: rest ∧
      rest.map (·.1) = back := by
  obtain ⟨rest, hrest⟩ := run_prefix judge (front ++ [a]) back
  rw [run_concat, List.append_assoc, List.append_assoc] at hrest
  refine ⟨rest, hrest.symm, ?_⟩
  have hitems := congrArg (List.map (·.1)) hrest
  simpa [run_map_fst] using hitems

/-- The verdict at an element, read off the trail. -/
theorem verdict_of_split {before after : List (α × Option ρ)} {verdict : Option ρ}
    (h : run judge items = before ++ (a, verdict) :: after) :
    verdict = judge (kept before) a := by
  have hitems := congrArg (List.map (·.1)) h
  rw [run_map_fst, List.map_append, List.map_cons] at hitems
  obtain ⟨rest, hrest, -⟩ := run_split judge (before.map (·.1)) (after.map (·.1)) a
  rw [← hitems, h] at hrest
  have hlength : before.length = (run judge (before.map (·.1))).length := by
    rw [run_length, List.length_map]
  obtain ⟨hbefore, hentry⟩ := List.append_inj hrest hlength
  rw [← hbefore] at hentry
  exact (Prod.mk.inj (List.cons.inj hentry).1).2

theorem run_verdict {verdict : Option ρ} (h : (a, verdict) ∈ run judge items) :
    ∃ front back, items = front ++ a :: back ∧ verdict = judge (kept (run judge front)) a := by
  induction items using List.reverseRecOn with
  | nil => cases h
  | append_singleton items b ih =>
      rw [run_concat] at h
      rcases List.mem_append.mp h with h | h
      · obtain ⟨front, back, rfl, hverdict⟩ := ih h
        exact ⟨front, back ++ [b], by simp, hverdict⟩
      · obtain ⟨rfl, rfl⟩ := Prod.mk.inj (List.mem_singleton.mp h)
        exact ⟨items, [], rfl, rfl⟩

/-- **A property of what is kept holds if every kept element preserves it.** -/
theorem kept_induction {P : List α → Prop} (hnil : P [])
    (hstep : ∀ front, P front → ∀ a, judge front a = none → P (front ++ [a])) (items : List α) :
    P (kept (run judge items)) := by
  induction items using List.reverseRecOn with
  | nil => exact hnil
  | append_singleton items a ih =>
      rw [run_concat, kept_append]
      cases hverdict : judge (kept (run judge items)) a with
      | none => exact hstep _ ih a hverdict
      | some reason => rwa [show kept [(a, some reason)] = ([] : List α) from rfl, List.append_nil]

end Runs

/-! ### Keeping no more than so many -/

section Limited

variable (bar : α → Option ρ) (limit : ρ) (max : Nat)

/-- An element is put aside for what it is, or because there are as many as may be kept. -/
def limited (front : List α) (a : α) : Option ρ :=
  (bar a).or (if front.length ≥ max then some limit else none)

variable {bar limit max}

theorem limited_some {front : List α} {a : α} {reason : ρ} (h : bar a = some reason) :
    limited bar limit max front a = some reason := by
  unfold limited
  rw [h, Option.some_or]

theorem limited_none {front : List α} {a : α} (h : bar a = none) :
    limited bar limit max front a = if front.length ≥ max then some limit else none := by
  unfold limited
  rw [h, Option.none_or]

/-- **The first of those that may be kept are kept.** -/
theorem kept_limited (items : List α) :
    kept (run (limited bar limit max) items) =
      (items.filter fun a => (bar a).isNone).take max := by
  induction items using List.reverseRecOn with
  | nil => exact List.take_nil.symm
  | append_singleton items a ih =>
      rw [run_concat, kept_append, ih, List.filter_append, List.take_append]
      cases hbar : bar a with
      | some reason =>
          have hnone : [a].filter (fun a => (bar a).isNone) = [] :=
            List.filter_cons_of_neg (by simp [hbar])
          rw [limited_some hbar, hnone, List.take_nil]
          rfl
      | none =>
          have hone : [a].filter (fun a => (bar a).isNone) = [a] :=
            List.filter_cons_of_pos (by simp [hbar])
          rw [limited_none hbar, hone, List.length_take]
          by_cases hfull : max ≤ (items.filter fun a => (bar a).isNone).length
          · rw [if_pos (by omega), Nat.sub_eq_zero_of_le hfull, List.take_zero]
            rfl
          · have hroom : [a].length ≤ max - (items.filter fun a => (bar a).isNone).length := by
              rw [List.length_singleton]
              omega
            rw [if_neg (by omega), List.take_of_length_le hroom]
            rfl

/-- **An element is put aside for what it is, or behind as many as may be kept.** -/
theorem aside_limited {items : List α} {a : α} {reason : ρ}
    (h : (a, reason) ∈ aside (run (limited bar limit max) items)) :
    bar a = some reason ∨
      (bar a = none ∧ reason = limit ∧ ∃ front back, items = front ++ a :: back ∧
        max ≤ (front.filter fun a => (bar a).isNone).length) := by
  obtain ⟨front, back, hsplit, hverdict⟩ := run_verdict (mem_aside_iff.mp h)
  cases hbar : bar a with
  | some other =>
      rw [limited_some hbar] at hverdict
      exact Or.inl hverdict.symm
  | none =>
      rw [limited_none hbar, kept_limited, List.length_take] at hverdict
      by_cases hfull : min max (front.filter fun a => (bar a).isNone).length ≥ max
      · rw [if_pos hfull] at hverdict
        exact Or.inr ⟨rfl, Option.some.inj hverdict, front, back, hsplit, by omega⟩
      · rw [if_neg hfull] at hverdict
        cases hverdict

end Limited

end Triage
