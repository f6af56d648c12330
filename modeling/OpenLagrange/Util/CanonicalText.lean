/-
What the canonical text of a value says about it.

The canonical text is the text of the value with the properties of every object sorted by
name.  So it is the same for values that differ in the order of properties, and plain values
with the same canonical text differ in nothing else.

A lookup does not see the order either.  The order of names is one of code units, and it
tells different names apart.
-/
import OpenLagrange.Util.Json

namespace OpenLagrange

/-! ### The order of names -/

theorem unitsLe_total (a b : List Nat) : unitsLe a b = true ∨ unitsLe b a = true := by
  induction a generalizing b with
  | nil => exact Or.inl rfl
  | cons x a ih =>
      cases b with
      | nil => exact Or.inr rfl
      | cons y b =>
          unfold unitsLe
          rcases Nat.lt_trichotomy x y with h | rfl | h
          · exact Or.inl (if_pos h)
          · simpa using ih b
          · exact Or.inr (if_pos h)

theorem unitsLe_trans {a b c : List Nat} (hab : unitsLe a b = true) (hbc : unitsLe b c = true) :
    unitsLe a c = true := by
  induction a generalizing b c with
  | nil => rfl
  | cons x a ih =>
      cases b with
      | nil => cases hab
      | cons y b =>
          cases c with
          | nil => cases hbc
          | cons z c =>
              unfold unitsLe at hab hbc ⊢
              split at hab
              · split at hbc
                · rw [if_pos (by omega)]
                · split at hbc
                  · cases hbc
                  · rw [if_pos (by omega)]
              · split at hab
                · cases hab
                · split at hbc
                  · rw [if_pos (by omega)]
                  · split at hbc
                    · cases hbc
                    · rw [if_neg (by omega), if_neg (by omega)]
                      exact ih hab hbc

/-- Properties by name, in the order of code units. -/
def fieldLe {α : Type} (a b : String × α) : Prop := unitsLe (utf16 a.1) (utf16 b.1) = true

instance {α : Type} (a b : String × α) : Decidable (fieldLe a b) :=
  inferInstanceAs (Decidable (_ = true))

instance {α : Type} : Std.Total (fieldLe (α := α)) := ⟨fun a b => unitsLe_total (utf16 a.1) (utf16 b.1)⟩

instance {α : Type} : IsTrans (String × α) fieldLe := ⟨fun _ _ _ => unitsLe_trans⟩

/-- The properties sorted by name. -/
def sortFields {α : Type} (fields : List (String × α)) : List (String × α) := fields.insertionSort fieldLe

theorem sortFields_sorted {α : Type} (fields : List (String × α)) :
    sortFields (sortFields fields) = sortFields fields :=
  (List.pairwise_insertionSort fieldLe fields).insertionSort_eq

theorem sortFields_map {α β : Type} (f : α → β) (fields : List (String × α)) :
    sortFields (fields.map fun field => (field.1, f field.2)) =
      (sortFields fields).map fun field => (field.1, f field.2) :=
  (List.map_insertionSort fieldLe fieldLe (fun field => (field.1, f field.2)) fields
    fun _ _ _ _ => Iff.rfl).symm

theorem mem_sortFields {α : Type} {fields : List (String × α)} {field : String × α} :
    field ∈ sortFields fields ↔ field ∈ fields := List.mem_insertionSort fieldLe

/-- Sorting keeps the first property of a name the first one. -/
theorem find?_sortFields {α : Type} (fields : List (String × α)) (name : String) :
    (sortFields fields).find? (fun field => field.1 = name) = fields.find? fun field => field.1 = name := by
  have hinsert : ∀ (field : String × α) (sorted : List (String × α)),
      (sorted.orderedInsert fieldLe field).find? (fun field => field.1 = name) =
        (field :: sorted).find? fun field => field.1 = name := by
    intro field sorted
    induction sorted with
    | nil => rfl
    | cons other sorted ih =>
        rw [List.orderedInsert_cons]
        split
        · rfl
        · rename_i hafter
          rw [List.find?_cons, ih, List.find?_cons, List.find?_cons]
          by_cases hfield : field.1 = name
          · -- a property of the same name would come after the one that is inserted
            have hother : other.1 ≠ name := by
              intro hother
              refine hafter ?_
              show unitsLe (utf16 field.1) (utf16 other.1) = true
              rw [hfield, hother]
              exact (unitsLe_total _ _).elim id id
            simp [hfield, hother]
          · simp [hfield, List.find?_cons]
  unfold sortFields
  induction fields with
  | nil => rfl
  | cons field fields ih =>
      rw [List.insertionSort_cons, hinsert, List.find?_cons, List.find?_cons, ih]

/-! ### Values up to the order of properties -/

/-- What holds of a list or an object when it holds of its parts, and of every other value, holds
of all values. -/
theorem Value.parts {motive : Value → Prop} (undefined : motive .undefined) (null : motive .null)
    (bool : ∀ b, motive (.bool b)) (num : ∀ text, motive (.num text)) (str : ∀ s, motive (.str s))
    (native : ∀ name, motive (.native name))
    (arr : ∀ items, (∀ v ∈ items, motive v) → motive (.arr items))
    (obj : ∀ fields, (∀ f ∈ fields, motive f.2) → motive (.obj fields)) : ∀ v, motive v
  | .undefined => undefined
  | .null => null
  | .bool b => bool b
  | .num text => num text
  | .str s => str s
  | .native name => native name
  | .arr items => arr items fun v _hmem =>
      Value.parts undefined null bool num str native arr obj v
  | .obj fields => obj fields fun f _hmem =>
      Value.parts undefined null bool num str native arr obj f.2
termination_by v => sizeOf v
decreasing_by
  · have hlt := List.sizeOf_lt_of_mem _hmem
    simp only [Value.arr.sizeOf_spec]
    omega
  · have hlt := List.sizeOf_lt_of_mem _hmem
    obtain ⟨key, value⟩ := f
    simp only [Value.obj.sizeOf_spec, Prod.mk.sizeOf_spec] at hlt ⊢
    omega

mutual

/-- The value with the properties of every object sorted. -/
def Value.sorted : Value → Value
  | .arr items => .arr (sortedItems items)
  | .obj fields => .obj (sortFields (sortedFields fields))
  | .undefined => .undefined
  | .null => .null
  | .bool b => .bool b
  | .num text => .num text
  | .str s => .str s
  | .native name => .native name

def sortedItems : List Value → List Value
  | [] => []
  | item :: rest => item.sorted :: sortedItems rest

def sortedFields : List (String × Value) → List (String × Value)
  | [] => []
  | (key, value) :: rest => (key, value.sorted) :: sortedFields rest

end

/-- The values are the same but for the order in which properties are listed. -/
def SameValue (v w : Value) : Prop := v.sorted = w.sorted

theorem sortedItems_eq (items : List Value) : sortedItems items = items.map Value.sorted := by
  induction items with
  | nil => rfl
  | cons item rest ih => rw [sortedItems, ih, List.map_cons]

theorem sortedFields_eq (fields : List (String × Value)) :
    sortedFields fields = fields.map fun field => (field.1, field.2.sorted) := by
  induction fields with
  | nil => rfl
  | cons field rest ih =>
      obtain ⟨key, value⟩ := field
      rw [sortedFields, ih, List.map_cons]

theorem sorted_obj (fields : List (String × Value)) :
    (Value.obj fields).sorted = .obj (sortFields (fields.map fun field => (field.1, field.2.sorted))) := by
  rw [Value.sorted, sortedFields_eq]

theorem sorted_arr (items : List Value) : (Value.arr items).sorted = .arr (items.map Value.sorted) := by
  rw [Value.sorted, sortedItems_eq]

theorem sorted_sorted (v : Value) : v.sorted.sorted = v.sorted := by
  induction v using Value.parts with
  | undefined | null | bool _ | num _ | str _ | native _ => rfl
  | arr items ih =>
      rw [sorted_arr, sorted_arr, List.map_map]
      exact congrArg Value.arr (List.map_congr_left ih)
  | obj fields ih =>
      rw [sorted_obj, sorted_obj, ← sortFields_map, sortFields_sorted, List.map_map]
      refine congrArg (fun fields => Value.obj (sortFields fields)) (List.map_congr_left fun f hf => ?_)
      exact Prod.ext rfl (ih f hf)

/-! ### The canonical text -/

theorem stableItems_eq (items : List Value) :
    stableItems items = items.map fun v => (stableStringify v).getD "" := by
  induction items with
  | nil => rfl
  | cons item rest ih => rw [stableItems, ih, List.map_cons]

theorem stableFields_eq (fields : List (String × Value)) :
    stableFields fields = fields.map fun f => (f.1, (stableStringify f.2).getD "undefined") := by
  induction fields with
  | nil => rfl
  | cons field rest ih =>
      obtain ⟨key, value⟩ := field
      rw [stableFields, ih, List.map_cons]

theorem plain_sorted (v : Value) (h : v.plain = true) : v.sorted.plain = true := by
  induction v using Value.parts with
  | undefined | native _ => cases h
  | null | bool _ | num _ | str _ => exact h
  | arr items ih =>
      rw [sorted_arr, Value.plain, plainItems_iff]
      intro w hw
      obtain ⟨v, hmem, rfl⟩ := List.mem_map.mp hw
      exact ih v hmem (plainItems_iff.mp h v hmem)
  | obj fields ih =>
      rw [sorted_obj, Value.plain, plainFields_iff]
      intro g hg
      obtain ⟨f, hmem, rfl⟩ := List.mem_map.mp (mem_sortFields.mp hg)
      exact ih f hmem (plainFields_iff.mp h f hmem)

/-- **The canonical text of a plain value is the text of the value with its properties sorted.** -/
theorem stableStringify_plain (v : Value) (h : v.plain = true) :
    stableStringify v = some (String.ofList v.sorted.chars) := by
  induction v using Value.parts with
  | undefined | native _ => cases h
  | null => simp [stableStringify, Value.sorted, Value.chars]
  | bool b => simp [stableStringify, Value.sorted, Value.chars]
  | num text =>
      have htext : numberText text = true := h
      simp [stableStringify, Value.sorted, Value.chars, jsonNumber_of_numberText htext]
  | str s => simp [stableStringify, Value.sorted, Value.chars]
  | arr items ih =>
      have hplain := plain_sorted (.arr items) h
      rw [sorted_arr] at hplain
      have htexts : stableItems items = jsonItems (items.map Value.sorted) := by
        rw [stableItems_eq, jsonItems_plain _ hplain, List.map_map]
        refine List.map_congr_left fun v hv => ?_
        rw [ih v hv (plainItems_iff.mp h v hv)]
        rfl
      rw [stableStringify, htexts, ← jsonStringify_plain _ (plain_sorted _ h), sorted_arr, jsonStringify]
  | obj fields ih =>
      have hplain := plain_sorted (.obj fields) h
      rw [sorted_obj] at hplain
      have htexts : stableFields fields = (fields.map fun f => (f.1, f.2.sorted)).map fun f =>
          (f.1, String.ofList f.2.chars) := by
        rw [stableFields_eq, List.map_map]
        refine List.map_congr_left fun f hf => ?_
        rw [ih f hf (plainFields_iff.mp h f hf)]
        rfl
      have hsort : (stableFields fields).insertionSort (fun a b => unitsLe (utf16 a.1) (utf16 b.1) = true) =
          (sortFields (fields.map fun f => (f.1, f.2.sorted))).map fun f => (f.1, String.ofList f.2.chars) := by
        rw [htexts]
        exact sortFields_map (fun v : Value => String.ofList v.chars) _
      rw [stableStringify, hsort, ← jsonStringify_plain _ (plain_sorted _ h), sorted_obj, jsonStringify,
        jsonFields_plain _ hplain, List.map_map]
      rfl

/-- **Plain values have the same canonical text exactly if they differ at most in the order of
properties.** -/
theorem stableStringify_eq_iff {v w : Value} (hv : v.plain = true) (hw : w.plain = true) :
    stableStringify v = stableStringify w ↔ SameValue v w := by
  rw [stableStringify_plain v hv, stableStringify_plain w hw,
    ← jsonStringify_plain _ (plain_sorted v hv), ← jsonStringify_plain _ (plain_sorted w hw)]
  exact ⟨jsonStringify_injective (plain_sorted v hv) (plain_sorted w hw), fun h => by rw [h]⟩

/-! ### Lookups -/

section Same

variable {v w : Value} {fields fields' : List (String × Value)}

theorem SameValue.refl (v : Value) : SameValue v v := rfl

theorem SameValue.symm (h : SameValue v w) : SameValue w v := Eq.symm h

theorem sameValue_str {s : String} : SameValue (.str s) w ↔ w = .str s := by
  cases w <;> simp [SameValue, Value.sorted, eq_comm]

theorem sameValue_bool {b : Bool} : SameValue (.bool b) w ↔ w = .bool b := by
  cases w <;> simp [SameValue, Value.sorted, eq_comm]

theorem SameValue.isNullish (h : SameValue v w) : v.isNullish = w.isNullish := by
  cases v <;> cases w <;> simp_all [SameValue, Value.sorted, Value.isNullish]

theorem SameValue.items {items items' : List Value} (h : SameValue (.arr items) (.arr items')) :
    List.Forall₂ SameValue items items' := by
  unfold SameValue at h
  rw [sorted_arr, sorted_arr, Value.arr.injEq] at h
  have hboth : List.Forall₂ (· = ·) (items.map Value.sorted) (items'.map Value.sorted) := by
    rw [h]
    exact List.forall₂_same.mpr fun _ _ => rfl
  rw [List.forall₂_map_left_iff, List.forall₂_map_right_iff] at hboth
  exact hboth

/-- The properties of a name are found in both objects or in neither, and are the same. -/
theorem find?_same (h : SameValue (.obj fields) (.obj fields')) (name : String) :
    (fields.find? fun f => f.1 = name).map (fun f => f.2.sorted) =
      (fields'.find? fun f => f.1 = name).map fun f => f.2.sorted := by
  have hlist : sortFields (fields.map fun f => (f.1, f.2.sorted)) =
      sortFields (fields'.map fun f => (f.1, f.2.sorted)) := by
    unfold SameValue at h
    rwa [sorted_obj, sorted_obj, Value.obj.injEq] at h
  have hfind := congrArg (fun list => (list.find? fun f => decide (f.1 = name)).map (·.2)) hlist
  simpa only [find?_sortFields, List.find?_map, Option.map_map, Function.comp_def] using hfind

/-- **The same name finds the same in both objects.** -/
theorem property_same (h : SameValue (.obj fields) (.obj fields')) (name : String) :
    SameValue (Value.property fields name) (Value.property fields' name) := by
  have hfind := find?_same h name
  unfold Value.property
  cases hleft : fields.find? fun f => f.1 = name with
  | none =>
      rw [hleft, Option.map_none, eq_comm, Option.map_eq_none_iff] at hfind
      rw [hfind]
      exact .refl _
  | some f =>
      rw [hleft, Option.map_some, eq_comm, Option.map_eq_some_iff] at hfind
      obtain ⟨g, hright, hsame⟩ := hfind
      rw [hright]
      exact hsame.symm

end Same

/-! ### Lists of texts -/

/-- The code units of one character. -/
def charUnits (c : Char) : List Nat :=
  if c.toNat < 0x10000 then [c.toNat]
  else [0xD800 + (c.toNat - 0x10000) / 0x400, 0xDC00 + (c.toNat - 0x10000) % 0x400]

theorem char_range (c : Char) : c.toNat < 0xD800 ∨ 0xDFFF < c.toNat ∧ c.toNat < 0x110000 := c.valid

theorem charUnits_free (c d : Char) : PrefixCode.Free charUnits c d := by
  intro hfront
  have hc := char_range c
  have hd := char_range d
  unfold charUnits at hfront
  refine Char.toNat_inj.mp ?_
  split at hfront
  · split at hfront
    · exact (List.cons_prefix_cons.mp hfront).1
    · have hhead := (List.cons_prefix_cons.mp hfront).1
      omega
  · split at hfront
    · have htail := (List.cons_prefix_cons.mp hfront).2
      rw [List.prefix_nil] at htail
      cases htail
    · obtain ⟨hhigh, hrest⟩ := List.cons_prefix_cons.mp hfront
      have hlow := (List.cons_prefix_cons.mp hrest).1
      omega

/-- The order of code units tells different texts apart. -/
theorem utf16_injective : Function.Injective utf16 := by
  intro a b h
  have hflat : a.toList.flatMap charUnits ++ [0x10000] = b.toList.flatMap charUnits ++ [0x10000] :=
    congrArg (· ++ [0x10000]) h
  refine String.toList_inj.mp (PrefixCode.body_unique charUnits_free ?_ hflat).1
  intro c
  have hc := char_range c
  unfold charUnits
  split
  · exact ⟨_, [], rfl, by omega⟩
  · exact ⟨_, _, rfl, by omega⟩

theorem unitsLe_antisymm {a b : List Nat} (hab : unitsLe a b = true) (hba : unitsLe b a = true) :
    a = b := by
  induction a generalizing b with
  | nil =>
      cases b with
      | nil => rfl
      | cons y b => cases hba
  | cons x a ih =>
      cases b with
      | nil => cases hab
      | cons y b =>
          unfold unitsLe at hab hba
          rcases Nat.lt_trichotomy x y with h | rfl | h
          · rw [if_neg (by omega), if_pos h] at hba
            cases hba
          · rw [if_neg (by omega), if_neg (by omega)] at hab hba
            rw [ih hab hba]
          · rw [if_neg (by omega), if_pos h] at hab
            cases hab

theorem nodup_distinct (items : List String) : (distinct items).Nodup := by
  have hfold : ∀ (items seen : List String), seen.Nodup → (items.foldl
      (fun seen item => if item ∈ seen then seen else seen ++ [item]) seen).Nodup := by
    intro items
    induction items with
    | nil => exact fun _ h => h
    | cons item rest ih =>
        intro seen hseen
        rw [List.foldl_cons]
        refine ih _ ?_
        split
        · exact hseen
        · rename_i hnew
          exact List.nodup_append.mpr ⟨hseen, List.nodup_singleton item, by
            rintro a ha b hb rfl
            exact hnew (List.mem_singleton.mp hb ▸ ha)⟩
  exact hfold items [] List.nodup_nil

/-- Texts in the order of code units. -/
def textLe (a b : String) : Prop := unitsLe (utf16 a) (utf16 b) = true

instance : DecidableRel textLe := fun _ _ => inferInstanceAs (Decidable (_ = true))

instance : Std.Total textLe := ⟨fun a b => unitsLe_total (utf16 a) (utf16 b)⟩

instance : IsTrans String textLe := ⟨fun _ _ _ => unitsLe_trans⟩

theorem sorted_sortTexts (values : List String) : (sortTexts values).Pairwise textLe :=
  List.pairwise_insertionSort textLe values

/-- **Two sets of texts are listed alike exactly if they are the same set.** -/
theorem unique_eq_iff {a b : List String} : unique a = unique b ↔ ∀ text, text ∈ a ↔ text ∈ b := by
  constructor
  · intro h text
    rw [← mem_unique, h, mem_unique]
  · intro h
    have hperm : (unique a).Perm (unique b) := by
      unfold unique sortTexts
      refine (List.perm_insertionSort _ _).trans (.trans ?_ (List.perm_insertionSort _ _).symm)
      refine (List.perm_ext_iff_of_nodup (nodup_distinct a) (nodup_distinct b)).mpr fun text => ?_
      rw [mem_distinct, mem_distinct, h]
    refine hperm.eq_of_pairwise (fun a b _ _ hab hba => ?_) (sorted_sortTexts _) (sorted_sortTexts _)
    exact utf16_injective (unitsLe_antisymm hab hba)

end OpenLagrange
