/-
Steps over a list that may fail.

Going through a list with a step that may fail either fails or gives a result for each item.  The
results are related to the items one by one.
-/
import Mathlib.Data.List.Forall2

namespace Fallible

theorem forall₂_of_mapM {α β ε : Type} {f : α → Except ε β} :
    ∀ {items : List α} {results : List β}, items.mapM f = .ok results →
      List.Forall₂ (fun item result => f item = .ok result) items results := by
  intro items
  induction items with
  | nil =>
      intro results h
      cases h
      exact List.Forall₂.nil
  | cons item rest ih =>
      intro results h
      rw [List.mapM_cons] at h
      cases hitem : f item with
      | error error =>
          rw [hitem] at h
          cases h
      | ok result =>
          rw [hitem] at h
          cases hrest : rest.mapM f with
          | error error =>
              rw [hrest] at h
              cases h
          | ok others =>
              rw [hrest] at h
              cases h
              exact List.Forall₂.cons hitem (ih hrest)

theorem exists_left {α β : Type} {R : α → β → Prop} {items : List α} {results : List β}
    (h : List.Forall₂ R items results) {result : β} (hmem : result ∈ results) :
    ∃ item ∈ items, R item result := by
  induction h with
  | nil => exact absurd hmem List.not_mem_nil
  | @cons item first _ rest hfirst _ ih =>
      rcases List.mem_cons.mp hmem with rfl | hrest
      · exact ⟨item, List.mem_cons_self, hfirst⟩
      · obtain ⟨other, hother, hrel⟩ := ih hrest
        exact ⟨other, List.mem_cons_of_mem _ hother, hrel⟩

theorem exists_right {α β : Type} {R : α → β → Prop} {items : List α} {results : List β}
    (h : List.Forall₂ R items results) {item : α} (hmem : item ∈ items) :
    ∃ result ∈ results, R item result :=
  exists_left h.flip hmem

/-- If no step fails, the whole does not. -/
theorem mapM_isOk {α β ε : Type} {f : α → Except ε β} {items : List α}
    (h : ∀ item ∈ items, ∃ result, f item = .ok result) : ∃ results, items.mapM f = .ok results := by
  induction items with
  | nil => exact ⟨[], rfl⟩
  | cons item rest ih =>
      obtain ⟨result, hresult⟩ := h item List.mem_cons_self
      obtain ⟨results, hresults⟩ := ih fun other hother => h other (List.mem_cons_of_mem _ hother)
      refine ⟨result :: results, ?_⟩
      rw [List.mapM_cons, hresult, hresults]
      rfl

end Fallible
