/-
What a stable sort forgets.

Sorting by a key that tells different keys apart keeps, for each key, the list of the elements
with that key, and nothing else of the order: two lists sort to the same list exactly if these
lists are the same.
-/
import Mathlib.Data.List.Sort

namespace StableSort

variable {α κ : Type} [DecidableEq κ] {key : α → κ} {le : α → α → Prop}

/-- The elements of a key come out in the order they went in. -/
theorem filter_insertionSort [DecidableRel le] (hrefl : ∀ a b, key a = key b → le a b)
    (items : List α) (k : κ) :
    (items.insertionSort le).filter (key · = k) = items.filter (key · = k) := by
  have hkey : ∀ a ∈ items.filter (key · = k), key a = k := fun a ha =>
    of_decide_eq_true (List.mem_filter.mp ha).2
  have hsorted : (items.filter (key · = k)).Pairwise le :=
    List.pairwise_of_forall_mem_list fun a ha b hb => hrefl a b ((hkey a ha).trans (hkey b hb).symm)
  have hsub : (items.filter (key · = k)).Sublist (items.insertionSort le) :=
    List.sublist_insertionSort hsorted List.filter_sublist
  have hfilter := hsub.filter (key · = k)
  rw [List.filter_filter] at hfilter
  simp only [Bool.and_self] at hfilter
  refine (hfilter.eq_of_length ?_).symm
  exact ((List.perm_insertionSort le items).filter _).length_eq.symm

/-- Sorted lists with the same elements of each key, in the same order, are the same. -/
theorem eq_of_filter_eq (hanti : ∀ a b, le a b → le b a → key a = key b) {as bs : List α}
    (has : as.Pairwise le) (hbs : bs.Pairwise le)
    (h : ∀ k, as.filter (key · = k) = bs.filter (key · = k)) : as = bs := by
  induction as generalizing bs with
  | nil =>
      cases bs with
      | nil => rfl
      | cons b bs =>
          have hb := h (key b)
          rw [List.filter_cons_of_pos (by simp)] at hb
          cases hb
  | cons a as ih =>
      cases bs with
      | nil =>
          have ha := h (key a)
          rw [List.filter_cons_of_pos (by simp)] at ha
          cases ha
      | cons b bs =>
          have hmem : ∀ {c : α} {xs ys : List α}, c ∈ xs →
              (xs.filter (key · = key c) = ys.filter (key · = key c)) → c ∈ ys := by
            intro c xs ys hc heq
            have hc' : c ∈ xs.filter (key · = key c) := List.mem_filter.mpr ⟨hc, by simp⟩
            rw [heq] at hc'
            exact (List.mem_filter.mp hc').1
          have hab : a ∈ b :: bs := hmem List.mem_cons_self (h (key a))
          have hba : b ∈ a :: as := hmem List.mem_cons_self (h (key b)).symm
          -- the first of both lists is least, so the two have one key
          have hkey : key a = key b := by
            rcases List.mem_cons.mp hab with rfl | hab
            · rfl
            · rcases List.mem_cons.mp hba with rfl | hba
              · rfl
              · exact hanti a b (List.rel_of_pairwise_cons has hba)
                  (List.rel_of_pairwise_cons hbs hab)
          have hfirst := h (key a)
          rw [List.filter_cons_of_pos (by simp), List.filter_cons_of_pos (by simp [hkey])] at hfirst
          obtain ⟨rfl, -⟩ := List.cons.inj hfirst
          refine congrArg (a :: ·) (ih has.of_cons hbs.of_cons fun k => ?_)
          have hk := h k
          by_cases hak : key a = k
          · rw [List.filter_cons_of_pos (by simpa using hak),
              List.filter_cons_of_pos (by simpa using hak)] at hk
            exact (List.cons.inj hk).2
          · rwa [List.filter_cons_of_neg (by simpa using hak),
              List.filter_cons_of_neg (by simpa using hak)] at hk

/-- **Lists sort alike exactly if they agree on every key.** -/
theorem insertionSort_eq_iff [DecidableRel le] [Std.Total le] [IsTrans α le]
    (hrefl : ∀ a b, key a = key b → le a b)
    (hanti : ∀ a b, le a b → le b a → key a = key b) {as bs : List α} :
    as.insertionSort le = bs.insertionSort le ↔
      ∀ k, as.filter (key · = k) = bs.filter (key · = k) := by
  have hfilter : ∀ (items : List α) k, (items.insertionSort le).filter (key · = k) =
      items.filter (key · = k) := filter_insertionSort hrefl
  constructor
  · intro h k
    rw [← hfilter as, h, hfilter]
  · intro h
    refine eq_of_filter_eq hanti (List.pairwise_insertionSort le as)
      (List.pairwise_insertionSort le bs) fun k => ?_
    rw [hfilter, hfilter, h]

end StableSort
