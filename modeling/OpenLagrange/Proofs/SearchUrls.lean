/-
When two URLs count as one.

The key of a URL is its text without fragment, with the query sorted by name, and without a slash
at its end.  The sort is stable and the query is written so that it can be read back; so two URLs
have one key exactly if they have the same values of each name, in the same order, and the same
address, where a slash at the end is passed over if no query follows.
-/
import OpenLagrange.Lib.StableSort
import OpenLagrange.Search.SearchTypes

namespace OpenLagrange.Search

/-- The same URL up to the fragment, the order of names in the query, and a slash at the end of
the text. -/
structure SameUrl (u v : ParsedUrl) : Prop where
  values : ∀ name, u.searchParams.filter (·.1 = name) = v.searchParams.filter (·.1 = name)
  address : if u.searchParams = [] then withoutSlash u.address = withoutSlash v.address
    else u.address = v.address

theorem sortFields_eq_iff {us vs : List (String × String)} :
    sortFields us = sortFields vs ↔ ∀ name, us.filter (·.1 = name) = vs.filter (·.1 = name) := by
  refine StableSort.insertionSort_eq_iff ?_ ?_
  · intro a b h
    show unitsLe (utf16 a.1) (utf16 b.1) = true
    rw [h]
    exact (unitsLe_total _ _).elim id id
  · intro a b hab hba
    exact utf16_injective (unitsLe_antisymm hab hba)

theorem sortFields_eq_nil {us : List (String × String)} : sortFields us = [] ↔ us = [] := by
  constructor
  · intro h
    have hlength := List.length_insertionSort fieldLe us
    have h : us.insertionSort fieldLe = [] := h
    rw [h] at hlength
    exact List.eq_nil_of_length_eq_zero hlength.symm
  · rintro rfl
    rfl

/-- The text before the first of a letter can be read back. -/
theorem append_stop_unique {stop : Char} {as bs s t : List Char} (ha : stop ∉ as) (hb : stop ∉ bs)
    (h : as ++ stop :: s = bs ++ stop :: t) : as = bs ∧ s = t := by
  induction as generalizing bs with
  | nil =>
      cases bs with
      | nil => exact ⟨rfl, (List.cons.inj h).2⟩
      | cons b bs => exact (hb (List.mem_cons.mpr (Or.inl (List.cons.inj h).1))).elim
  | cons a as ih =>
      cases bs with
      | nil => exact (ha (List.mem_cons.mpr (Or.inl (List.cons.inj h).1.symm))).elim
      | cons b bs =>
          obtain ⟨rfl, hrest⟩ := List.cons.inj h
          obtain ⟨rfl, hst⟩ := ih (fun hm => ha (List.mem_cons_of_mem _ hm))
            (fun hm => hb (List.mem_cons_of_mem _ hm)) hrest
          exact ⟨rfl, hst⟩

/-- The text of a URL whose query is sorted, without fragment and slash. -/
def urlKey (url : ParsedUrl) : List Char :=
  withoutSlash { url with hash := [], searchParams := sortFields url.searchParams }.text

theorem urlKey_plain {url : ParsedUrl} (h : url.searchParams = []) :
    urlKey url = withoutSlash url.address := by
  unfold urlKey ParsedUrl.text
  rw [h]
  simp [sortFields]

theorem urlKey_query {url : ParsedUrl} (h : url.searchParams ≠ []) :
    urlKey url = url.address ++ '?' :: FormEncoding.formEncode (sortFields url.searchParams) := by
  have hsorted : sortFields url.searchParams ≠ [] := fun hnil => h (sortFields_eq_nil.mp hnil)
  have hencoded := FormEncoding.formEncode_ne_nil hsorted
  have htext : ({ url with hash := [], searchParams := sortFields url.searchParams } :
      ParsedUrl).text =
        url.address ++ '?' :: FormEncoding.formEncode (sortFields url.searchParams) := by
    unfold ParsedUrl.text
    simp [hsorted]
  unfold urlKey withoutSlash
  rw [htext, if_neg]
  -- the last letter is one of the query
  intro hlast
  rw [List.getLast?_append, List.getLast?_cons, Option.some_or] at hlast
  cases hend : (FormEncoding.formEncode (sortFields url.searchParams)).getLast? with
  | none => exact hencoded (List.getLast?_eq_none_iff.mp hend)
  | some c =>
      rw [hend] at hlast
      exact FormEncoding.formEncode_mem (List.mem_of_getLast? hend) (Option.some.inj hlast)

/-- **Two URLs have one key exactly if they are the same.** -/
theorem urlKey_eq_iff {u v : ParsedUrl} (hu : '?' ∉ u.address) (hv : '?' ∉ v.address) :
    urlKey u = urlKey v ↔ SameUrl u v := by
  have hslash : ∀ {text : List Char}, '?' ∉ text → '?' ∉ withoutSlash text := by
    intro text h hmem
    unfold withoutSlash at hmem
    split at hmem
    · exact h (List.mem_of_mem_dropLast hmem)
    · exact h hmem
  by_cases hus : u.searchParams = []
  · by_cases hvs : v.searchParams = []
    · rw [urlKey_plain hus, urlKey_plain hvs]
      constructor
      · intro h
        exact ⟨fun name => by rw [hus, hvs], by rw [if_pos hus]; exact h⟩
      · intro h
        have haddress := h.address
        rwa [if_pos hus] at haddress
    · rw [urlKey_plain hus, urlKey_query hvs]
      refine iff_of_false ?_ ?_
      · intro h
        refine hslash hu ?_
        rw [h]
        exact List.mem_append_right _ List.mem_cons_self
      · intro h
        obtain ⟨pair, rest, hpairs⟩ := List.exists_cons_of_ne_nil hvs
        have hvalues := h.values pair.1
        rw [hus, hpairs, List.filter_cons_of_pos (by simp)] at hvalues
        cases hvalues
  · by_cases hvs : v.searchParams = []
    · rw [urlKey_query hus, urlKey_plain hvs]
      refine iff_of_false ?_ ?_
      · intro h
        refine hslash hv ?_
        rw [← h]
        exact List.mem_append_right _ List.mem_cons_self
      · intro h
        obtain ⟨pair, rest, hpairs⟩ := List.exists_cons_of_ne_nil hus
        have hvalues := h.values pair.1
        rw [hvs, hpairs, List.filter_cons_of_pos (by simp)] at hvalues
        cases hvalues
    · rw [urlKey_query hus, urlKey_query hvs]
      constructor
      · intro h
        obtain ⟨haddress, hquery⟩ := append_stop_unique hu hv h
        exact ⟨sortFields_eq_iff.mp (FormEncoding.formEncode_injective hquery),
          by rw [if_neg hus]; exact haddress⟩
      · intro h
        have haddress := h.address
        rw [if_neg hus] at haddress
        rw [haddress, sortFields_eq_iff.mpr h.values]

end OpenLagrange.Search
