/-
Tables of rows that are told apart by a key.

Writing a row overwrites the one with its key where it stands, and adds it at the end if
there is none.  That is what setting a key does to an insertion-ordered map, and what an
insert that updates on conflict does to a table.

A database hands rows out in the order of a text they carry.  What it does with rows that
carry the same text is its own affair, so a `Sorter` is any of them.
-/
import Mathlib.Algebra.BigOperators.Group.List.Basic
import Mathlib.Data.List.Induction
import Mathlib.Data.List.Nodup
import Mathlib.Data.List.Sort
import Mathlib.Data.String.Basic

namespace Table

/-! ### Rows with a key -/

section Keyed

variable {α β κ : Type} [DecidableEq κ] (key : α → κ)

def upsert (rows : List α) (row : α) : List α :=
  if rows.any fun r => key r = key row then
    rows.map fun r => if key r = key row then row else r
  else rows ++ [row]

/-- The row of a key. -/
def get (rows : List α) (k : κ) : Option α := rows.find? fun row => key row = k

variable {key}

theorem mem_upsert {rows : List α} {row r : α} (hmem : r ∈ upsert key rows row) :
    r = row ∨ (r ∈ rows ∧ key r ≠ key row) := by
  unfold upsert at hmem
  split at hmem
  · obtain ⟨old, hold, hr⟩ := List.mem_map.mp hmem
    by_cases hkey : key old = key row
    · rw [if_pos hkey] at hr
      exact Or.inl hr.symm
    · rw [if_neg hkey] at hr
      subst hr
      exact Or.inr ⟨hold, hkey⟩
  · rename_i hnone
    rcases List.mem_append.mp hmem with hold | hnew
    · refine Or.inr ⟨hold, ?_⟩
      intro hkey
      exact hnone (List.any_eq_true.mpr ⟨r, hold, decide_eq_true hkey⟩)
    · exact Or.inl (List.mem_singleton.mp hnew)

theorem upsert_self (rows : List α) (row : α) : row ∈ upsert key rows row := by
  unfold upsert
  split
  · rename_i hany
    obtain ⟨old, hold, hkey⟩ := List.any_eq_true.mp hany
    refine List.mem_map.mpr ⟨old, hold, ?_⟩
    rw [if_pos (of_decide_eq_true hkey)]
  · exact List.mem_append_right _ (List.mem_singleton_self _)

/-- The rows of other keys stay. -/
theorem upsert_other {rows : List α} {row r : α} (hold : r ∈ rows) (hkey : key r ≠ key row) :
    r ∈ upsert key rows row := by
  unfold upsert
  split
  · refine List.mem_map.mpr ⟨r, hold, ?_⟩
    rw [if_neg hkey]
  · exact List.mem_append_left _ hold

/-- Keys stay different from one another. -/
theorem upsert_nodup {rows : List α} (hnodup : (rows.map key).Nodup) (row : α) :
    ((upsert key rows row).map key).Nodup := by
  unfold upsert
  split
  · have hsame : (rows.map fun r => if key r = key row then row else r).map key = rows.map key := by
      rw [List.map_map]
      refine List.map_congr_left ?_
      intro r _
      by_cases hkey : key r = key row
      · simp [hkey]
      · simp [hkey]
    rw [hsame]
    exact hnodup
  · rename_i hnone
    rw [List.map_append, List.nodup_append]
    refine ⟨hnodup, by simp, ?_⟩
    intro k hk k' hk' heq
    simp only [List.map_cons, List.map_nil, List.mem_singleton] at hk'
    obtain ⟨r, hr, hkey⟩ := List.mem_map.mp hk
    exact hnone (List.any_eq_true.mpr ⟨r, hr, decide_eq_true (hkey.trans (heq.trans hk'))⟩)

/-- Writing what the rows are mapped to. -/
theorem map_upsert {key' : β → κ} {f : α → β} {rows : List α} {row : α}
    (hkey : ∀ r ∈ rows, key' (f r) = key r) (hrow : key' (f row) = key row) :
    (upsert key rows row).map f = upsert key' (rows.map f) (f row) := by
  have hany : (rows.map f).any (fun r => decide (key' r = key' (f row)))
      = rows.any fun r => decide (key r = key row) := by
    rw [List.any_map, Bool.eq_iff_iff, List.any_eq_true, List.any_eq_true]
    refine exists_congr fun r => and_congr_right fun hr => ?_
    rw [Function.comp_apply, hkey r hr, hrow]
  unfold upsert
  rw [hany]
  split
  · rw [List.map_map, List.map_map]
    refine List.map_congr_left ?_
    intro r hr
    simp only [Function.comp_apply, hkey r hr, hrow]
    split <;> rfl
  · simp

/-- Reading what the rows are mapped to. -/
theorem map_get {key' : β → κ} {f : α → β} {rows : List α} (hkey : ∀ r ∈ rows, key' (f r) = key r)
    (k : κ) : (get key rows k).map f = get key' (rows.map f) k := by
  unfold get
  induction rows with
  | nil => rfl
  | cons r rest ih =>
      have hrest := ih fun r' hr' => hkey r' (List.mem_cons_of_mem _ hr')
      rw [List.map_cons, List.find?_cons, List.find?_cons, hkey r List.mem_cons_self]
      split
      · rfl
      · exact hrest

theorem mem_of_get {rows : List α} {k : κ} {row : α} (hget : get key rows k = some row) :
    row ∈ rows ∧ key row = k := by
  have hkey := List.find?_some hget
  exact ⟨List.mem_of_find?_eq_some hget, of_decide_eq_true hkey⟩

/-- Rows of which no two have one key. -/
structure Keyed (key : α → κ) where
  rows : List α
  nodup : (rows.map key).Nodup

namespace Keyed

def empty : Keyed key := ⟨[], List.nodup_nil⟩

def get (table : Keyed key) (k : κ) : Option α := Table.get key table.rows k

def upsert (table : Keyed key) (row : α) : Keyed key :=
  ⟨Table.upsert key table.rows row, upsert_nodup table.nodup row⟩

/-- Changing the row of a key, but not its key. -/
def update (table : Keyed key) (k : κ) (change : α → α) (hchange : ∀ row, key (change row) = key row) :
    Keyed key where
  rows := table.rows.map fun row => if key row = k then change row else row
  nodup := by
    rw [List.map_map]
    have hsame : key ∘ (fun row => if key row = k then change row else row) = key := by
      funext row
      by_cases hkey : key row = k
      · simp [hkey, hchange]
      · simp [hkey]
    rw [hsame]
    exact table.nodup

/-- A table of what other rows are mapped to is written as they are. -/
theorem upsert_mirror {key' : β → κ} {f : α → β} (hkey : ∀ row, key' (f row) = key row)
    {table : Keyed key} {table' : Keyed key'} (hrows : table'.rows = table.rows.map f) (row : α) :
    (table'.upsert (f row)).rows = (table.upsert row).rows.map f := by
  simp only [upsert]
  rw [hrows]
  exact (map_upsert (fun r _ => hkey r) (hkey row)).symm

/-- And it is read as they are, by what undoes the mapping. -/
theorem get_mirror {key' : β → κ} {f : α → β} (g : β → α) (hkey : ∀ row, key' (f row) = key row)
    (hback : ∀ row, g (f row) = row) {table : Keyed key} {table' : Keyed key'}
    (hrows : table'.rows = table.rows.map f) (k : κ) : table.get k = (table'.get k).map g := by
  simp only [get]
  rw [hrows, ← map_get (fun r _ => hkey r), Option.map_map]
  have hid : g ∘ f = id := funext hback
  rw [hid, Option.map_id]
  rfl

omit [DecidableEq κ] in
theorem eq_of_mem {table : Keyed key} {row row' : α} (hrow : row ∈ table.rows)
    (hrow' : row' ∈ table.rows) (hkey : key row = key row') : row = row' :=
  List.inj_on_of_nodup_map table.nodup hrow hrow' hkey

/-- A row is found by its key. -/
theorem get_of_mem {table : Keyed key} {row : α} (hrow : row ∈ table.rows) :
    table.get (key row) = some row := by
  cases hget : table.get (key row) with
  | none =>
      have hnone := List.find?_eq_none.mp hget row hrow
      exact absurd (decide_eq_true rfl) hnone
  | some found =>
      obtain ⟨hmem, hkey⟩ := mem_of_get hget
      rw [eq_of_mem hmem hrow hkey]

/-- After a write the key has what was written, and the others what they had. -/
theorem get_upsert (table : Keyed key) (row : α) :
    (table.upsert row).get = Function.update table.get (key row) (some row) := by
  funext k
  have hself : row ∈ (table.upsert row).rows := upsert_self _ _
  by_cases hk : k = key row
  · subst hk
    rw [Function.update_self, get_of_mem hself]
  · rw [Function.update_of_ne hk]
    cases hget : table.get k with
    | none =>
        have hnone := List.find?_eq_none.mp hget
        refine List.find?_eq_none.mpr ?_
        intro r hr
        rcases mem_upsert hr with hnew | ⟨hold, -⟩
        · rw [hnew, decide_eq_true_iff]
          exact fun heq => hk heq.symm
        · exact hnone r hold
    | some found =>
        obtain ⟨hmem, hkey⟩ := mem_of_get hget
        have hkept : found ∈ (table.upsert row).rows := by
          refine upsert_other hmem ?_
          rw [hkey]
          exact hk
        rw [← hkey]
        exact get_of_mem hkept

/-! ### Writing a number of rows -/

theorem mem_foldl_upsert {row : α} : ∀ {rows : List α} {table : Keyed key},
    row ∈ (rows.foldl upsert table).rows → row ∈ rows ∨ row ∈ table.rows := by
  intro rows
  induction rows with
  | nil =>
      intro table h
      exact Or.inr h
  | cons first rest ih =>
      intro table h
      rcases ih h with hrest | htable
      · exact Or.inl (List.mem_cons_of_mem _ hrest)
      · rcases mem_upsert htable with hfirst | ⟨hold, -⟩
        · exact Or.inl (hfirst ▸ List.mem_cons_self)
        · exact Or.inr hold

/-- Rows of other keys are kept. -/
theorem foldl_upsert_other {row : α} : ∀ {rows : List α} {table : Keyed key},
    row ∈ table.rows → (∀ other ∈ rows, key other ≠ key row) →
      row ∈ (rows.foldl upsert table).rows := by
  intro rows
  induction rows with
  | nil =>
      intro table h _
      exact h
  | cons first rest ih =>
      intro table h hother
      refine ih ?_ fun other hmem => hother other (List.mem_cons_of_mem _ hmem)
      exact upsert_other h fun heq => hother first List.mem_cons_self heq.symm

/-- The last row of a key is the one the key has afterwards. -/
theorem exists_foldl_upsert : ∀ {rows : List α} {row : α} {table : Keyed key},
    row ∈ rows → ∃ last ∈ rows, key last = key row ∧
      last ∈ (rows.foldl upsert table).rows := by
  intro rows
  induction rows with
  | nil =>
      intro row table h
      exact absurd h List.not_mem_nil
  | cons first rest ih =>
      intro row table h
      by_cases hlater : ∃ other ∈ rest, key other = key row
      · obtain ⟨other, hother, hkey⟩ := hlater
        obtain ⟨last, hlast, hsame, hin⟩ := @ih other (table.upsert first) hother
        exact ⟨last, List.mem_cons_of_mem _ hlast, hsame.trans hkey, hin⟩
      · rcases List.mem_cons.mp h with rfl | hrest
        · refine ⟨row, List.mem_cons_self, rfl, ?_⟩
          have hself : row ∈ (table.upsert row).rows := upsert_self _ _
          show row ∈ (rest.foldl upsert (table.upsert row)).rows
          refine foldl_upsert_other hself ?_
          exact fun other hother hkey => hlater ⟨other, hother, hkey⟩
        · exact absurd ⟨row, hrest, rfl⟩ hlater

/-- Rows of new keys are added at the end, one after the other. -/
theorem foldl_upsert_fresh : ∀ {rows : List α} {table : Keyed key},
    ((table.rows ++ rows).map key).Nodup → (rows.foldl upsert table).rows = table.rows ++ rows := by
  intro rows
  induction rows with
  | nil =>
      intro table _
      exact (List.append_nil _).symm
  | cons first rest ih =>
      intro table h
      have hsplit : table.rows ++ first :: rest = table.rows ++ [first] ++ rest := by simp
      have hstep : (table.upsert first).rows = table.rows ++ [first] := by
        refine if_neg ?_
        intro hany
        obtain ⟨old, hold, hkey⟩ := List.any_eq_true.mp hany
        rw [List.map_append, List.nodup_append] at h
        exact h.2.2 _ (List.mem_map_of_mem hold) _ (List.mem_map_of_mem List.mem_cons_self)
          (of_decide_eq_true hkey)
      rw [List.foldl_cons, ih, hstep, ← hsplit]
      rw [hstep, ← hsplit]
      exact h

/-- Rows that agree where their keys do are all written, and the rows of other keys stay. -/
theorem mem_foldl_upsert_iff {rows : List α} {table : Keyed key} {row : α}
    (h : ∀ r ∈ rows, ∀ r' ∈ rows, key r = key r' → r = r') :
    row ∈ (rows.foldl upsert table).rows ↔
      row ∈ rows ∨ row ∈ table.rows ∧ ∀ r ∈ rows, key r ≠ key row := by
  constructor
  · intro hmem
    by_cases hkey : ∃ r ∈ rows, key r = key row
    · obtain ⟨r, hr, hsame⟩ := hkey
      obtain ⟨last, hlast, hlastKey, hin⟩ := @exists_foldl_upsert _ _ _ key rows r table hr
      have heq : last = row := eq_of_mem hin hmem (hlastKey.trans hsame)
      exact Or.inl (heq ▸ hlast)
    · have hnone : ∀ r ∈ rows, key r ≠ key row := fun r hr hsame => hkey ⟨r, hr, hsame⟩
      rcases mem_foldl_upsert hmem with hrow | htable
      · exact Or.inl hrow
      · exact Or.inr ⟨htable, hnone⟩
  · rintro (hrow | ⟨htable, hnone⟩)
    · obtain ⟨last, hlast, hlastKey, hin⟩ := @exists_foldl_upsert _ _ _ key rows row table hrow
      rw [← h last hlast row hrow hlastKey]
      exact hin
    · exact foldl_upsert_other htable hnone

/-! ### Adding up by key -/

section Tally

variable {M : Type} [AddCommMonoid M]

omit [DecidableEq κ] in
theorem sum_map_change {rows : List α} (hnodup : (rows.map key).Nodup) {old row : α}
    (hold : old ∈ rows) (change : α → α) (hchange : change old = row)
    (hother : ∀ r ∈ rows, key r ≠ key old → change r = r) (f : α → M) {w : M}
    (hrow : f row = f old + w) : ((rows.map change).map f).sum = (rows.map f).sum + w := by
  induction rows with
  | nil => exact absurd hold List.not_mem_nil
  | cons first rest ih =>
      rw [List.map_cons, List.nodup_cons] at hnodup
      rw [List.map_cons, List.map_cons, List.sum_cons, List.map_cons, List.sum_cons]
      rcases List.mem_cons.mp hold with rfl | hlater
      · have hrest : rest.map change = rest := by
          have hsame : ∀ r ∈ rest, change r = id r := by
            intro r hr
            refine hother r (List.mem_cons_of_mem _ hr) ?_
            intro heq
            exact hnodup.1 (List.mem_map.mpr ⟨r, hr, heq⟩)
          rw [List.map_congr_left hsame, List.map_id]
        rw [hrest, hchange, hrow]
        exact add_right_comm _ _ _
      · have hfirst : change first = first := by
          refine hother first List.mem_cons_self ?_
          intro heq
          exact hnodup.1 (List.mem_map.mpr ⟨old, hlater, heq.symm⟩)
        rw [hfirst, ih hnodup.2 hlater fun r hr => hother r (List.mem_cons_of_mem _ hr),
          add_assoc]

/-- A write adds to a sum over the rows what it adds to the row of its key. -/
theorem sum_upsert (table : Keyed key) {row : α} (f : α → M) {w : M}
    (hrow : f row = ((table.get (key row)).map f).getD 0 + w) :
    ((table.upsert row).rows.map f).sum = (table.rows.map f).sum + w := by
  unfold upsert Table.upsert
  dsimp only
  cases hget : table.get (key row) with
  | none =>
      have hnone := List.find?_eq_none.mp hget
      rw [if_neg, List.map_append, List.sum_append, List.map_singleton, List.sum_singleton, hrow,
        hget]
      · rw [Option.map_none, Option.getD_none, zero_add]
      · intro hany
        obtain ⟨r, hr, hkey⟩ := List.any_eq_true.mp hany
        exact hnone r hr hkey
  | some old =>
      obtain ⟨hold, hkey⟩ := mem_of_get hget
      rw [if_pos (List.any_eq_true.mpr ⟨old, hold, decide_eq_true hkey⟩)]
      rw [hget, Option.map_some, Option.getD_some] at hrow
      refine sum_map_change table.nodup hold (fun r => if key r = key row then row else r)
        (if_pos hkey) ?_ f hrow
      intro r _ hother
      exact if_neg fun heq => hother (heq.trans hkey.symm)

variable (item : β → κ) (start : κ → α) (add : α → β → α)

/-- An item added to the row of its key, which starts as a row of its own. -/
def enter (table : Keyed key) (x : β) : Keyed key :=
  table.upsert (add ((table.get (item x)).getD (start (item x))) x)

/-- The items added up by their keys. -/
def tally (xs : List β) : Keyed key := xs.foldl (enter item start add) empty

variable {item start add}

theorem tally_append (xs : List β) (x : β) :
    (tally item start add (xs ++ [x]) : Keyed key) =
      enter item start add (tally item start add xs) x := by
  unfold tally
  rw [List.foldl_append]
  rfl

section

variable (hstart : ∀ k, key (start k) = k) (hadd : ∀ row x, key (add row x) = key row)
include hstart hadd

variable (item) in
theorem key_entered (table : Keyed key) (x : β) :
    key (add ((table.get (item x)).getD (start (item x))) x) = item x := by
  rw [hadd]
  cases hget : table.get (item x) with
  | none => exact hstart _
  | some row => exact (mem_of_get hget).2

/-- **The row of a key is what the items of the key add up to.** -/
theorem get_tally (xs : List β) (k : κ) :
    (tally item start add xs : Keyed key).get k =
      if (xs.filter fun x => item x = k) = [] then none
      else some ((xs.filter fun x => item x = k).foldl add (start k)) := by
  induction xs using List.reverseRecOn with
  | nil => rfl
  | append_singleton xs x ih =>
      have hkey := key_entered item hstart hadd (tally item start add xs) x
      rw [tally_append, enter, get_upsert, hkey, List.filter_append]
      by_cases hk : k = item x
      · subst hk
        have hsome : (xs.filter fun y => item y = item x) ++ [x] ≠ [] := by simp
        rw [Function.update_self, List.filter_cons_of_pos (by simp), List.filter_nil,
          if_neg hsome, List.foldl_append, List.foldl_cons, List.foldl_nil, ih]
        split
        · rename_i hnil
          rw [hnil, Option.getD_none, List.foldl_nil]
        · rw [Option.getD_some]
      · rw [Function.update_of_ne hk, ih,
          List.filter_cons_of_neg (by simpa using fun heq => hk heq.symm), List.filter_nil,
          List.append_nil]

/-- **A sum over the rows is the sum over the items.** -/
theorem sum_tally {f : α → M} {weight : β → M} (hzero : ∀ k, f (start k) = 0)
    (hweight : ∀ row x, f (add row x) = f row + weight x) (xs : List β) :
    ((tally item start add xs : Keyed key).rows.map f).sum = (xs.map weight).sum := by
  induction xs using List.reverseRecOn with
  | nil => rfl
  | append_singleton xs x ih =>
      have hkey := key_entered item hstart hadd (tally item start add xs) x
      rw [tally_append, enter, List.map_append, List.sum_append, List.map_singleton,
        List.sum_singleton, ← ih]
      refine sum_upsert _ f ?_
      rw [hkey, hweight]
      cases (tally item start add xs : Keyed key).get (item x) with
      | none => rw [Option.getD_none, hzero, Option.map_none, Option.getD_none]
      | some row => rw [Option.getD_some, Option.map_some, Option.getD_some]

end

end Tally

end Keyed

end Keyed

/-! ### Rows in the order of a text -/

/-- A database's way of ordering rows by a text, and of picking a row whose text is last. -/
structure Sorter {α : Type} (text : α → String) where
  ascending : List α → List α
  perm : ∀ rows, (ascending rows).Perm rows
  ordered : ∀ rows, (ascending rows).Pairwise fun a b => text a ≤ text b
  latest : List α → Option α
  latest_mem : ∀ rows row, latest rows = some row →
    row ∈ rows ∧ ∀ other ∈ rows, text other ≤ text row
  latest_none : ∀ rows, latest rows = none → rows = []

section Ordered

variable {α : Type} {text : α → String}

/-- The row the one search finds first is, for the other, later than every other. -/
def FirstIsLatest (text : α → String) (finds picks : α → Bool) (rows : List α) : Prop :=
  match rows.find? finds with
  | none => ∀ row ∈ rows, picks row = false
  | some row =>
      picks row = true ∧ ∀ other ∈ rows, picks other = true → text other < text row ∨ other = row

/-- **Then both searches end with the same row.** -/
theorem Sorter.latest_eq (sorter : Sorter text) {finds picks : α → Bool} {rows : List α}
    (hfirst : FirstIsLatest text finds picks rows) :
    sorter.latest (rows.filter picks) = rows.find? finds := by
  unfold FirstIsLatest at hfirst
  cases hfind : rows.find? finds with
  | none =>
      rw [hfind] at hfirst
      have hnone : rows.filter picks = [] := by
        rw [List.filter_eq_nil_iff]
        intro row hrow hpick
        rw [hfirst row hrow] at hpick
        exact Bool.false_ne_true hpick
      cases hlatest : sorter.latest (rows.filter picks) with
      | none => rfl
      | some row =>
          have hmem := (sorter.latest_mem _ row hlatest).1
          rw [hnone] at hmem
          exact absurd hmem List.not_mem_nil
  | some row =>
      rw [hfind] at hfirst
      have hrow : row ∈ rows.filter picks :=
        List.mem_filter.mpr ⟨List.mem_of_find?_eq_some hfind, hfirst.1⟩
      cases hlatest : sorter.latest (rows.filter picks) with
      | none =>
          rw [sorter.latest_none _ hlatest] at hrow
          exact absurd hrow List.not_mem_nil
      | some found =>
          obtain ⟨hfound, hlast⟩ := sorter.latest_mem _ found hlatest
          obtain ⟨hmem, hpick⟩ := List.mem_filter.mp hfound
          rcases hfirst.2 found hmem hpick with hearlier | hsame
          · exact absurd (hlast row hrow) (not_le.mpr hearlier)
          · rw [hsame]

/-- **Rows that go up strictly are in the only order there is.** -/
theorem Sorter.ascending_eq (sorter : Sorter text) {rows rows' : List α} (hperm : rows.Perm rows')
    (hup : rows'.Pairwise fun a b => text a < text b) : sorter.ascending rows = rows' := by
  refine List.Perm.eq_of_pairwise ?_ (sorter.ordered rows) (hup.imp le_of_lt)
    ((sorter.perm rows).trans hperm)
  intro a b ha hb hab hba
  have hmem : a ∈ rows' := hperm.subset ((sorter.perm rows).subset ha)
  have hdiffer : (rows'.map text).Nodup := by
    rw [List.Nodup, List.pairwise_map]
    exact hup.imp fun h => ne_of_lt h
  exact List.inj_on_of_nodup_map hdiffer hmem hb (le_antisymm hab hba)

/-- Rows that are read off others. -/
theorem FirstIsLatest.map {β : Type} {text : β → String} {f : α → β} {finds picks : β → Bool}
    {rows : List α}
    (hfirst : FirstIsLatest (fun row => text (f row)) (fun row => finds (f row))
      (fun row => picks (f row)) rows) : FirstIsLatest text finds picks (rows.map f) := by
  unfold FirstIsLatest at hfirst ⊢
  rw [List.find?_map]
  simp only [Function.comp_def]
  cases hfind : rows.find? fun row => finds (f row) with
  | none =>
      rw [hfind] at hfirst
      intro row hrow
      obtain ⟨a, ha, rfl⟩ := List.mem_map.mp hrow
      exact hfirst a ha
  | some first =>
      rw [hfind] at hfirst
      refine ⟨hfirst.1, ?_⟩
      intro row hrow hpick
      obtain ⟨a, ha, rfl⟩ := List.mem_map.mp hrow
      exact (hfirst.2 a ha hpick).imp_right fun hsame => by rw [hsame]

/-- The way that leaves rows with the same text in the order they stand in. -/
def Sorter.stable (text : α → String) : Sorter text where
  ascending rows := rows.insertionSort fun a b => text a ≤ text b
  perm rows := List.perm_insertionSort _ rows
  ordered rows := by
    have htotal : Std.Total fun a b : α => text a ≤ text b := ⟨fun a b => le_total _ _⟩
    have htrans : IsTrans α fun a b => text a ≤ text b := ⟨fun a b c => le_trans⟩
    exact List.pairwise_insertionSort _ rows
  latest rows := (rows.insertionSort fun a b => text a ≤ text b).getLast?
  latest_mem rows row hlast := by
    have htotal : Std.Total fun a b : α => text a ≤ text b := ⟨fun a b => le_total _ _⟩
    have htrans : IsTrans α fun a b => text a ≤ text b := ⟨fun a b c => le_trans⟩
    have hordered := List.pairwise_insertionSort (fun a b => text a ≤ text b) rows
    obtain ⟨before, hsorted⟩ := List.getLast?_eq_some_iff.mp hlast
    have hmem : ∀ other, other ∈ rows ↔ other ∈ before ++ [row] := by
      intro other
      rw [← hsorted]
      exact (List.mem_insertionSort _).symm
    refine ⟨(hmem row).mpr (List.mem_append_right _ (List.mem_singleton_self _)), ?_⟩
    intro other hother
    rw [hsorted, List.pairwise_append] at hordered
    rcases List.mem_append.mp ((hmem other).mp hother) with hbefore | hrow
    · exact hordered.2.2 other hbefore row (List.mem_singleton_self _)
    · rw [List.mem_singleton.mp hrow]
  latest_none rows hnone := by
    have hnil := List.getLast?_eq_none_iff.mp hnone
    have hlength := (List.perm_insertionSort (fun a b => text a ≤ text b) rows).length_eq
    rw [hnil] at hlength
    exact List.length_eq_zero_iff.mp hlength.symm

end Ordered

end Table
