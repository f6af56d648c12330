/-
The canonical text of JSON values, and what hashes of it tell apart.

`EqUpToOrder` says directly when two values are equal but for the order in which their objects list
their properties.  On JSON values it is the relation that sorting decides, so the canonical texts of
two values are the same exactly then, and reading the text gives the value back up to that order.
Where the hash does not identify any two of the texts, it inherits all of this; the digest of a
capability is the hash of one object with a property for each covered field.
-/
import OpenLagrange.Proofs.CanonicalPlan
import OpenLagrange.Proofs.PackRegistry
import OpenLagrange.Util.JsonParse

namespace OpenLagrange

/-! ### Equal up to the order of properties -/

mutual

/-- Equal but for the order of properties, at any depth. -/
inductive EqUpToOrder : Value → Value → Prop
  | null : EqUpToOrder .null .null
  | bool (b : Bool) : EqUpToOrder (.bool b) (.bool b)
  | num (text : String) : EqUpToOrder (.num text) (.num text)
  | str (s : String) : EqUpToOrder (.str s) (.str s)
  | arr {items items' : List Value} (same : EqItems items items') :
      EqUpToOrder (.arr items) (.arr items')
  | obj {fields fields' : List (String × Value)} (same : EqFields fields fields') :
      EqUpToOrder (.obj fields) (.obj fields')

/-- Item by item. -/
inductive EqItems : List Value → List Value → Prop
  | nil : EqItems [] []
  | cons {v w : Value} {items items' : List Value} (first : EqUpToOrder v w)
      (rest : EqItems items items') : EqItems (v :: items) (w :: items')

/-- Each property of the one is somewhere in the other. -/
inductive EqFields : List (String × Value) → List (String × Value) → Prop
  | nil : EqFields [] []
  | cons {key : String} {v w : Value} {fields before after : List (String × Value)}
      (first : EqUpToOrder v w) (rest : EqFields fields (before ++ after)) :
      EqFields ((key, v) :: fields) (before ++ (key, w) :: after)

end

variable {v w : Value} {items items' : List Value} {fields fields' : List (String × Value)}
  {number : String → Prop}

def sortedField (field : String × Value) : String × Value := (field.1, field.2.sorted)

/-- Properties of different names are sorted alike in whatever order they are listed. -/
theorem sortFields_perm (hnames : (fields.map Prod.fst).Nodup) (h : fields.Perm fields') :
    sortFields fields = sortFields fields' := by
  have hperm : (sortFields fields).Perm (sortFields fields') :=
    (List.perm_insertionSort fieldLe fields).trans
      (h.trans (List.perm_insertionSort fieldLe fields').symm)
  refine hperm.eq_of_pairwise ?_ (List.pairwise_insertionSort fieldLe fields)
    (List.pairwise_insertionSort fieldLe fields')
  intro f g hf hg hfg hgf
  have hname : f.1 = g.1 := utf16_injective (unitsLe_antisymm hfg hgf)
  have hf' : f ∈ fields := mem_sortFields.mp hf
  have hg' : g ∈ fields := h.symm.subset (mem_sortFields.mp hg)
  exact List.inj_on_of_nodup_map hnames hf' hg' hname

theorem EqItems.sorted (hall : ∀ v ∈ items, ∀ w, EqUpToOrder v w → v.sorted = w.sorted)
    (h : EqItems items items') : items.map Value.sorted = items'.map Value.sorted := by
  induction items generalizing items' with
  | nil =>
      cases h
      rfl
  | cons v items ih =>
      cases h with
      | cons first rest =>
          rw [List.map_cons, List.map_cons, hall v List.mem_cons_self _ first,
            ih (fun u hu => hall u (List.mem_cons_of_mem _ hu)) rest]

theorem EqFields.sorted (hall : ∀ f ∈ fields, ∀ w, EqUpToOrder f.2 w → f.2.sorted = w.sorted)
    (h : EqFields fields fields') : (fields.map sortedField).Perm (fields'.map sortedField) := by
  induction fields generalizing fields' with
  | nil =>
      cases h
      exact .refl _
  | cons field fields ih =>
      cases h with
      | @cons key v w _ before after first rest =>
          have hfirst : sortedField (key, v) = sortedField (key, w) :=
            congrArg (Prod.mk key) (hall _ List.mem_cons_self _ first)
          have hrest := ih (fun g hg => hall g (List.mem_cons_of_mem _ hg)) rest
          rw [List.map_append] at hrest
          rw [List.map_append, List.map_cons, List.map_cons, hfirst]
          exact (hrest.cons _).trans List.perm_middle.symm

theorem map_fst_sortedField (fields : List (String × Value)) :
    (fields.map sortedField).map Prod.fst = fields.map Prod.fst := by
  rw [List.map_map]
  rfl

theorem EqUpToOrder.sameValue (hv : v.IsJson number) (h : EqUpToOrder v w) : SameValue v w := by
  induction hv generalizing w with
  | null | bool _ | num _ _ | str _ =>
      cases h
      rfl
  | arr items json ih =>
      cases h with
      | arr same =>
          unfold SameValue
          rw [sorted_arr, sorted_arr, same.sorted fun v hv w hvw => ih v hv hvw]
  | obj fields distinct json ih =>
      cases h with
      | obj same =>
          have hperm := same.sorted fun f hf w hfw => ih f hf hfw
          unfold SameValue
          rw [sorted_obj, sorted_obj]
          exact congrArg Value.obj
            (sortFields_perm ((map_fst_sortedField fields).symm ▸ distinct) hperm)

theorem eqItems_of_sorted (hall : ∀ v ∈ items, ∀ w, SameValue v w → EqUpToOrder v w)
    (h : List.Forall₂ SameValue items items') : EqItems items items' := by
  induction h with
  | nil => exact .nil
  | cons first _ ih =>
      exact .cons (hall _ List.mem_cons_self _ first)
        (ih fun u hu => hall u (List.mem_cons_of_mem _ hu))

theorem eqFields_of_sorted (hall : ∀ f ∈ fields, ∀ w, SameValue f.2 w → EqUpToOrder f.2 w)
    (h : (fields.map sortedField).Perm (fields'.map sortedField)) : EqFields fields fields' := by
  induction fields generalizing fields' with
  | nil =>
      have hnil := h.symm.eq_nil
      rw [List.map_eq_nil_iff] at hnil
      rw [hnil]
      exact .nil
  | cons field fields ih =>
      obtain ⟨key, v⟩ := field
      rw [List.map_cons] at h
      obtain ⟨g, hg, hsame⟩ := List.mem_map.mp (h.subset List.mem_cons_self)
      obtain ⟨before, after, rfl⟩ := List.append_of_mem hg
      obtain ⟨name, w⟩ := g
      obtain ⟨rfl, hvalue⟩ := Prod.mk.inj hsame
      rw [List.map_append, List.map_cons, hsame] at h
      have hrest := (h.trans List.perm_middle).cons_inv
      rw [← List.map_append] at hrest
      exact .cons (hall _ List.mem_cons_self _ hvalue.symm)
        (ih (fun f hf => hall f (List.mem_cons_of_mem _ hf)) hrest)

theorem SameValue.eqUpToOrder (hv : v.IsJson number) (h : SameValue v w) : EqUpToOrder v w := by
  induction hv generalizing w with
  | null =>
      cases w <;> cases h
      exact .null
  | bool b =>
      cases w <;> cases h
      exact .bool b
  | num text _ =>
      cases w <;> cases h
      exact .num text
  | str s =>
      cases w <;> cases h
      exact .str s
  | arr items json ih =>
      cases w with
      | arr items' => exact .arr (eqItems_of_sorted (fun v hv w hvw => ih v hv hvw) h.items)
      | _ => cases h
  | obj fields distinct json ih =>
      cases w with
      | obj fields' =>
          unfold SameValue at h
          rw [sorted_obj, sorted_obj, Value.obj.injEq] at h
          have hperm := (List.perm_insertionSort fieldLe (fields.map sortedField)).symm.trans
            ((List.Perm.of_eq h).trans (List.perm_insertionSort fieldLe (fields'.map sortedField)))
          exact .obj (eqFields_of_sorted (fun f hf w hfw => ih f hf hfw) hperm)
      | _ => cases h

/-- **Sorting decides equality up to the order of properties.** -/
theorem eqUpToOrder_iff (hv : v.IsJson number) : EqUpToOrder v w ↔ SameValue v w :=
  ⟨EqUpToOrder.sameValue hv, SameValue.eqUpToOrder hv⟩

theorem eqUpToOrder_str {s t : String} : EqUpToOrder (.str s) (.str t) ↔ s = t := by
  constructor
  · intro h
    cases h
    rfl
  · rintro rfl
    exact .str s

theorem eqUpToOrder_num {s t : String} : EqUpToOrder (.num s) (.num t) ↔ s = t := by
  constructor
  · intro h
    cases h
    rfl
  · rintro rfl
    exact .num s

theorem eqUpToOrder_bool {s t : Bool} : EqUpToOrder (.bool s) (.bool t) ↔ s = t := by
  constructor
  · intro h
    cases h
    rfl
  · rintro rfl
    exact .bool s

theorem eqUpToOrder_arr : EqUpToOrder (.arr items) (.arr items') ↔ EqItems items items' := by
  constructor
  · intro h
    cases h with
    | arr same => exact same
  · exact .arr

theorem eqUpToOrder_obj : EqUpToOrder (.obj fields) (.obj fields') ↔ EqFields fields fields' := by
  constructor
  · intro h
    cases h with
    | obj same => exact same
  · exact .obj

theorem eqItems_strings {a b : List String} : EqItems (a.map .str) (b.map .str) ↔ a = b := by
  constructor
  · intro h
    induction a generalizing b with
    | nil =>
        cases b with
        | nil => rfl
        | cons t b => cases h
    | cons s a ih =>
        cases b with
        | nil => cases h
        | cons t b =>
            cases h with
            | cons first rest => rw [eqUpToOrder_str.mp first, ih rest]
  · rintro rfl
    induction a with
    | nil => exact .nil
    | cons s a ih => exact .cons (.str s) ih

/-- Objects that list the same names in the same order are compared property by property. -/
theorem eqFields_iff (hnames : fields.map Prod.fst = fields'.map Prod.fst)
    (hdistinct : (fields.map Prod.fst).Nodup) :
    EqFields fields fields' ↔ List.Forall₂ (fun f g => EqUpToOrder f.2 g.2) fields fields' := by
  induction fields generalizing fields' with
  | nil =>
      cases fields' with
      | nil => exact ⟨fun _ => .nil, fun _ => .nil⟩
      | cons g fields' => cases hnames
  | cons f fields ih =>
      cases fields' with
      | nil => cases hnames
      | cons g fields' =>
          obtain ⟨key, v⟩ := f
          obtain ⟨name, w⟩ := g
          obtain ⟨hname, hrest⟩ := List.cons.inj hnames
          have hname : key = name := hname
          subst hname
          obtain ⟨hfresh, hdistinct⟩ := List.nodup_cons.mp hdistinct
          rw [List.forall₂_cons, ← ih hrest hdistinct]
          constructor
          · intro h
            generalize hlist : (key, w) :: fields' = list at h
            cases h with
            | @cons _ _ u _ before after first rest =>
                cases before with
                | nil =>
                    obtain ⟨hhead, htail⟩ := List.cons.inj hlist
                    cases hhead
                    rw [htail]
                    exact ⟨first, rest⟩
                | cons g before =>
                    obtain ⟨-, htail⟩ := List.cons.inj hlist
                    refine absurd ?_ hfresh
                    have hmem : (key, u) ∈ fields' := by
                      rw [htail]
                      exact List.mem_append_right before List.mem_cons_self
                    have hrest : fields.map Prod.fst = fields'.map Prod.fst := hrest
                    rw [hrest]
                    exact List.mem_map.mpr ⟨_, hmem, rfl⟩
          · intro h
            exact @EqFields.cons key v w fields [] fields' h.1 h.2

/-! ### The canonical text -/

theorem Value.IsJson.sorted (hv : v.IsJson number) : v.sorted.IsJson number := by
  induction hv with
  | null => exact .null
  | bool b => exact .bool b
  | num text printed => exact .num text printed
  | str s => exact .str s
  | arr items json ih =>
      rw [sorted_arr]
      refine .arr _ ?_
      intro w hw
      obtain ⟨v, hv, rfl⟩ := List.mem_map.mp hw
      exact ih v hv
  | obj fields distinct json ih =>
      have hperm := List.perm_insertionSort fieldLe (fields.map sortedField)
      rw [sorted_obj]
      refine .obj _ ?_ ?_
      · refine (hperm.map Prod.fst).nodup_iff.mpr ?_
        rw [map_fst_sortedField]
        exact distinct
      · intro g hg
        obtain ⟨f, hf, rfl⟩ := List.mem_map.mp (hperm.subset hg)
        exact ih f hf

variable {readNumber : List Char → String}

theorem Value.IsJson.toPlain (hv : v.IsJson (printedNumber readNumber)) : v.plain = true :=
  (hv.mono printedNumber.text).plain

/-- **The canonical texts of JSON values are equal exactly if the values are, up to the order of
properties.** -/
theorem stableStringify_json (hv : v.IsJson (numberText · = true))
    (hw : w.IsJson (numberText · = true)) :
    stableStringify v = stableStringify w ↔ EqUpToOrder v w :=
  (stableStringify_eq_iff hv.plain hw.plain).trans (eqUpToOrder_iff hv).symm

/-- **Reading the canonical text gives the value back, up to the order of properties.** -/
theorem parseJson_stableStringify (hv : v.IsJson (printedNumber readNumber)) :
    ∃ text, stableStringify v = some text ∧
      ∃ read, parseJson readNumber text.toList = some read ∧ EqUpToOrder read v := by
  refine ⟨_, stableStringify_plain v hv.toPlain, v.sorted, ?_, ?_⟩
  · rw [String.toList_ofList]
    exact parseJson_chars hv.sorted
  · exact SameValue.eqUpToOrder hv.sorted (sorted_sorted v)

/-! ### Hashes of it -/

/-- The text that is hashed. -/
def hashedText (v : Value) : String := (stableStringify v).getD ""

/-- Where the hash identifies no two of the texts, the hashes of JSON values are equal exactly if
the values are, up to the order of properties. -/
theorem stableHash_json {sha256 : String → String} {texts : Set String}
    (hfree : Set.InjOn sha256 texts) (hv : v.IsJson (numberText · = true))
    (hw : w.IsJson (numberText · = true)) (hvtext : hashedText v ∈ texts)
    (hwtext : hashedText w ∈ texts) :
    stableHash sha256 v = stableHash sha256 w ↔ EqUpToOrder v w := by
  rw [← stableStringify_json hv hw]
  constructor
  · intro h
    have htext := hfree hvtext hwtext h
    unfold hashedText at htext
    rw [stableStringify_plain v hv.plain, stableStringify_plain w hw.plain] at htext ⊢
    exact congrArg some htext
  · intro h
    unfold stableHash
    rw [h]

namespace CapabilitySdk

variable {Code : Type} {P : SdkPlatform Code} {a b : DescriptorInput}

/-- Two definitions agree in every field that the digest covers. -/
structure SameCovered (a b : DescriptorInput) : Prop where
  capabilityId : a.capabilityId = b.capabilityId
  packId : a.packId = b.packId
  name : a.name = b.name
  description : a.description = b.description
  inputSchema : EqUpToOrder a.inputSchema b.inputSchema
  outputSchema : EqUpToOrder a.outputSchema b.outputSchema
  riskLevel : a.riskLevel = b.riskLevel
  sideEffectKind : a.sideEffectKind = b.sideEffectKind
  requiresApproval : a.requiresApproval = b.requiresApproval
  idempotencyMode : a.idempotencyMode = b.idempotencyMode
  timeoutMs : a.timeoutMs = b.timeoutMs
  maxAttempts : a.maxAttempts = b.maxAttempts
  scopes : a.scopes = b.scopes
  tags : a.tags = b.tags
  examples : EqItems a.examples b.examples

/-- The parts of a definition that are JSON values already. -/
structure JsonParts (number : String → Prop) (a : DescriptorInput) : Prop where
  inputSchema : a.inputSchema.IsJson number
  outputSchema : a.outputSchema.IsJson number
  examples : ∀ v ∈ a.examples, v.IsJson number

theorem JsonParts.mono {number number' : String → Prop} (h : JsonParts number a)
    (hnumber : ∀ text, number text → number' text) : JsonParts number' a where
  inputSchema := h.inputSchema.mono hnumber
  outputSchema := h.outputSchema.mono hnumber
  examples v hv := (h.examples v hv).mono hnumber

/-- The text that the digest of a definition is the hash of. -/
def digestText (P : SdkPlatform Code) (definition : CapabilityDefinition Code) : String :=
  hashedText (.obj (definition.descriptor.fields P.printNumber))

theorem failing_eq_nil {checks : List (String × Bool)} :
    failing checks = [] ↔ ∀ check ∈ checks, check.2 = true := by
  unfold failing
  rw [List.map_eq_nil_iff, List.filter_eq_nil_iff]
  refine forall₂_congr ?_
  intro check _
  rw [Bool.not_eq_true, Bool.not_eq_false']

/-- An accepted definition has positive whole numbers. -/
theorem finalizeDescriptor_numbers {definition : CapabilityDefinition Code}
    {descriptor : CapabilityDescriptor} (h : finalizeDescriptor P definition = .ok descriptor) :
    positiveInt definition.descriptor.timeoutMs = true ∧
      positiveInt definition.descriptor.maxAttempts = true := by
  unfold finalizeDescriptor CapabilityDescriptor.parse at h
  split at h
  · rename_i hnone
    have hall := failing_eq_nil.mp hnone
    have htimeout := hall ("timeout_ms", positiveInt definition.descriptor.timeoutMs)
    have hattempts := hall ("max_attempts", positiveInt definition.descriptor.maxAttempts)
    exact ⟨htimeout (by simp only [List.mem_cons, true_or, or_true]),
      hattempts (by simp only [List.mem_cons, true_or, or_true])⟩
  · cases h

/-- What a definition has to pass. -/
theorem finalizeDescriptor_accepted {definition : CapabilityDefinition Code}
    (hid : nonempty definition.descriptor.capabilityId = true)
    (hpack : nonempty definition.descriptor.packId = true)
    (hname : nonempty definition.descriptor.name = true)
    (hinput : isRecord definition.descriptor.inputSchema = true)
    (houtput : isRecord definition.descriptor.outputSchema = true)
    (htimeout : positiveInt definition.descriptor.timeoutMs = true)
    (hattempts : positiveInt definition.descriptor.maxAttempts = true)
    (hdigest : isSha256Hex (P.sha256 (digestText P definition)) = true) :
    finalizeDescriptor P definition = .ok
      ⟨definition.descriptor, capabilityDigest P.sha256 P.printNumber definition.descriptor⟩ := by
  have hdigest : isSha256Hex (capabilityDigest P.sha256 P.printNumber definition.descriptor) =
    true := hdigest
  unfold finalizeDescriptor CapabilityDescriptor.parse
  simp only [failing, hid, hpack, hname, hinput, houtput, htimeout, hattempts, hdigest,
    List.filter_cons, List.filter_nil, Bool.not_true, Bool.false_eq_true, if_false, List.map_nil]

theorem positiveInt_nat {n : ℚ} (h : positiveInt n = true) :
    ∃ k : ℕ, n = k ∧ k ≤ 9007199254740991 := by
  unfold positiveInt at h
  simp only [Bool.and_eq_true, decide_eq_true_eq] at h
  obtain ⟨⟨hden, hpos⟩, hmax⟩ := h
  have hvalue : (n.num : ℚ) = n := Rat.coe_int_num_of_den_eq_one hden
  rw [← hvalue] at hpos hmax
  have hpos' : (1 : ℤ) ≤ n.num := by exact_mod_cast hpos
  have hmax' : n.num ≤ 9007199254740991 := by exact_mod_cast hmax
  refine ⟨n.num.toNat, ?_, by omega⟩
  rw [← hvalue]
  have hnat : ((n.num.toNat : ℤ) : ℚ) = (n.num : ℚ) := by rw [Int.toNat_of_nonneg (by omega)]
  rw [← hnat]
  rfl

/-- The platform prints whole numbers with their digits. -/
def PrintsDigits (printNumber : ℚ → String) : Prop :=
  ∀ k : ℕ, k ≤ 9007199254740991 → printNumber k = toString k

theorem printNumber_injective {printNumber : ℚ → String} (h : PrintsDigits printNumber) {m n : ℚ}
    (hm : positiveInt m = true) (hn : positiveInt n = true) :
    printNumber m = printNumber n ↔ m = n := by
  obtain ⟨j, rfl, hj⟩ := positiveInt_nat hm
  obtain ⟨k, rfl, hk⟩ := positiveInt_nat hn
  rw [h j hj, h k hk]
  constructor
  · intro heq
    rw [Nat.repr_injective heq]
  · intro heq
    rw [Nat.cast_inj.mp heq]

theorem sideEffectKind_text {s t : SideEffectKind} : s.text = t.text ↔ s = t := by
  cases s <;> cases t <;> decide

theorem idempotencyMode_text {s t : IdempotencyMode} :
    IdempotencyMode.text s = IdempotencyMode.text t ↔ s = t := by
  cases s <;> cases t <;> decide

theorem fields_json {printNumber : ℚ → String} {number : String → Prop}
    (hparts : JsonParts number a) (htimeout : number (printNumber a.timeoutMs))
    (hattempts : number (printNumber a.maxAttempts)) :
    (Value.obj (a.fields printNumber)).IsJson number := by
  have hstrings : ∀ texts : List String,
      (Value.arr (texts.map .str)).IsJson number := by
    intro texts
    refine .arr _ ?_
    intro v hv
    obtain ⟨s, -, rfl⟩ := List.mem_map.mp hv
    exact .str s
  refine .obj _ ?_ ?_
  · simp [DescriptorInput.fields]
  · intro f hf
    simp only [DescriptorInput.fields, List.mem_cons, List.not_mem_nil, or_false] at hf
    rcases hf with rfl | rfl | rfl | rfl | rfl | rfl | rfl | rfl | rfl | rfl | rfl | rfl | rfl |
      rfl | rfl
    · exact .str _
    · exact .str _
    · exact .str _
    · exact .str _
    · exact hparts.inputSchema
    · exact hparts.outputSchema
    · exact .str _
    · exact .str _
    · exact .bool _
    · exact .str _
    · exact .num _ htimeout
    · exact .num _ hattempts
    · exact hstrings _
    · exact hstrings _
    · exact .arr _ hparts.examples

theorem numberText_printNumber {printNumber : ℚ → String} (h : PrintsDigits printNumber) {n : ℚ}
    (hn : positiveInt n = true) : numberText (printNumber n) = true := by
  obtain ⟨k, rfl, hk⟩ := positiveInt_nat hn
  rw [h k hk]
  exact plain_nat k

/-- The hashed objects of two definitions are the same exactly if the covered fields are. -/
theorem fields_eqUpToOrder_iff {printNumber : ℚ → String} (h : PrintsDigits printNumber)
    (ha : positiveInt a.timeoutMs = true ∧ positiveInt a.maxAttempts = true)
    (hb : positiveInt b.timeoutMs = true ∧ positiveInt b.maxAttempts = true) :
    EqUpToOrder (.obj (a.fields printNumber)) (.obj (b.fields printNumber)) ↔ SameCovered a b := by
  have hdistinct : ((a.fields printNumber).map Prod.fst).Nodup := by
    simp [DescriptorInput.fields]
  have hnames : (a.fields printNumber).map Prod.fst = (b.fields printNumber).map Prod.fst := rfl
  rw [eqUpToOrder_obj, eqFields_iff hnames hdistinct]
  simp only [DescriptorInput.fields, List.forall₂_cons, eqUpToOrder_str, eqUpToOrder_bool,
    eqUpToOrder_num, eqUpToOrder_arr, eqItems_strings, risk_text.eq_iff, sideEffectKind_text,
    idempotencyMode_text, printNumber_injective h ha.1 hb.1, printNumber_injective h ha.2 hb.2]
  constructor
  · rintro ⟨h1, h2, h3, h4, h5, h6, h7, h8, h9, h10, h11, h12, h13, h14, h15, -⟩
    exact ⟨h1, h2, h3, h4, h5, h6, h7, h8, h9, h10, h11, h12, h13, h14, h15⟩
  · intro ⟨h1, h2, h3, h4, h5, h6, h7, h8, h9, h10, h11, h12, h13, h14, h15⟩
    exact ⟨h1, h2, h3, h4, h5, h6, h7, h8, h9, h10, h11, h12, h13, h14, h15, .nil⟩

/-- **Digests of accepted definitions are equal exactly if all covered fields are.** -/
theorem capabilityDigest_iff {texts : Set String} (hfree : Set.InjOn P.sha256 texts)
    (hprint : PrintsDigits P.printNumber) {x y : CapabilityDefinition Code}
    {dx dy : CapabilityDescriptor} (hx : finalizeDescriptor P x = .ok dx)
    (hy : finalizeDescriptor P y = .ok dy) (hxparts : JsonParts (numberText · = true) x.descriptor)
    (hyparts : JsonParts (numberText · = true) y.descriptor) (hxtext : digestText P x ∈ texts)
    (hytext : digestText P y ∈ texts) :
    dx.capabilityDigest = dy.capabilityDigest ↔ SameCovered x.descriptor y.descriptor := by
  have hxnumbers := finalizeDescriptor_numbers hx
  have hynumbers := finalizeDescriptor_numbers hy
  have hxjson := fields_json hxparts (numberText_printNumber hprint hxnumbers.1)
    (numberText_printNumber hprint hxnumbers.2)
  have hyjson := fields_json hyparts (numberText_printNumber hprint hynumbers.1)
    (numberText_printNumber hprint hynumbers.2)
  rw [(CapabilityDescriptor.parse_ok hx).1, (CapabilityDescriptor.parse_ok hy).1,
    ← fields_eqUpToOrder_iff hprint hxnumbers hynumbers]
  exact stableHash_json hfree hxjson hyjson hxtext hytext

/-- **The canonical text is faithful, and so are the hashes of it.** -/
theorem canonical_text_faithful {readNumber : List Char → String} {texts : Set String}
    (hfree : Set.InjOn P.sha256 texts) (hprint : PrintsDigits P.printNumber) :
    (∀ v w : Value, v.IsJson (printedNumber readNumber) → w.IsJson (printedNumber readNumber) →
      (stableStringify v = stableStringify w ↔ EqUpToOrder v w) ∧
        (hashedText v ∈ texts → hashedText w ∈ texts →
          (stableHash P.sha256 v = stableHash P.sha256 w ↔ EqUpToOrder v w))) ∧
      (∀ v : Value, v.IsJson (printedNumber readNumber) →
        ∃ text, stableStringify v = some text ∧
          ∃ read, parseJson readNumber text.toList = some read ∧ EqUpToOrder read v) ∧
      ∀ (x y : CapabilityDefinition Code) (dx dy : CapabilityDescriptor),
        finalizeDescriptor P x = .ok dx → finalizeDescriptor P y = .ok dy →
          JsonParts (printedNumber readNumber) x.descriptor →
            JsonParts (printedNumber readNumber) y.descriptor →
            digestText P x ∈ texts → digestText P y ∈ texts →
              (dx.capabilityDigest = dy.capabilityDigest ↔
                SameCovered x.descriptor y.descriptor) := by
  refine ⟨?_, ?_, ?_⟩
  · intro v w hv hw
    have hv' := hv.mono printedNumber.text
    have hw' := hw.mono printedNumber.text
    exact ⟨stableStringify_json hv' hw', stableHash_json hfree hv' hw'⟩
  · intro v hv
    exact parseJson_stableStringify hv
  · intro x y dx dy hx hy hxparts hyparts hxtext hytext
    exact capabilityDigest_iff hfree hprint hx hy (hxparts.mono printedNumber.text)
      (hyparts.mono printedNumber.text) hxtext hytext

/-! ### Two capabilities that differ in a description -/

def readNote (description : String) : CapabilityDefinition Nat :=
  ⟨⟨"notes.read", "notes", "read", description, .obj [], .obj [], .read, .filesystemRead, false,
    .recommended, 1000, 1, ["notes"], [], []⟩, 0⟩

def printWhole (n : ℚ) : String := toString n.num.toNat

/-- The object that the digest of the capability is the hash of. -/
def readNoteObject (description : String) : Value :=
  .obj ((readNote description).descriptor.fields printWhole)

/-- A platform that knows the hashes of the two objects. -/
def noteSdk : SdkPlatform Nat where
  sha256 text :=
    if text = hashedText (readNoteObject "Reads a note.") then
      "94b2d080d4159c71d82995552aab1188599a88f1e685476cede27451a3e7bcc0"
    else "949f4d7b26741a3a4d770669feca0f20b5800b8025d51869b67fae643d324747"
  printNumber := printWhole
  localeCompare := compare
  Result := Nat
  executeDefinition definition _ _ := definition.execute

def noteTexts : Set String :=
  {hashedText (readNoteObject "Reads a note."), hashedText (readNoteObject "Reads any note.")}

theorem noteSdk_injOn : Set.InjOn noteSdk.sha256 noteTexts := by
  have hdigests : "94b2d080d4159c71d82995552aab1188599a88f1e685476cede27451a3e7bcc0" ≠
      "949f4d7b26741a3a4d770669feca0f20b5800b8025d51869b67fae643d324747" := by decide
  have hboth : ∀ text ∈ noteTexts, text ≠ hashedText (readNoteObject "Reads a note.") →
      text = hashedText (readNoteObject "Reads any note.") := by
    intro text hmem hne
    exact (Set.mem_insert_iff.mp hmem).resolve_left hne
  intro s hs t ht h
  have h : (if s = hashedText (readNoteObject "Reads a note.") then _ else _) =
    (if t = hashedText (readNoteObject "Reads a note.") then _ else _) := h
  by_cases hleft : s = hashedText (readNoteObject "Reads a note.")
  · by_cases hright : t = hashedText (readNoteObject "Reads a note.")
    · rw [hleft, hright]
    · rw [if_pos hleft, if_neg hright] at h
      exact absurd h hdigests
  · by_cases hright : t = hashedText (readNoteObject "Reads a note.")
    · rw [if_neg hleft, if_pos hright] at h
      exact absurd h.symm hdigests
    · rw [hboth s hs hleft, hboth t ht hright]

theorem printWhole_digits : PrintsDigits printWhole := by
  intro k _
  unfold printWhole
  rw [Rat.num_natCast, Int.toNat_natCast]

theorem readNote_parts {number : String → Prop} (description : String) :
    JsonParts number (readNote description).descriptor where
  inputSchema := .obj [] List.nodup_nil (fun _ h => absurd h List.not_mem_nil)
  outputSchema := .obj [] List.nodup_nil (fun _ h => absurd h List.not_mem_nil)
  examples := fun _ h => absurd h List.not_mem_nil

theorem printed_1000 : printedNumber String.ofList (printWhole 1000) :=
  ⟨by decide +kernel, by decide +kernel, String.ofList_toList⟩

theorem printed_1 : printedNumber String.ofList (printWhole 1) :=
  ⟨by decide +kernel, by decide +kernel, String.ofList_toList⟩

theorem readNoteObject_json (description : String) :
    (readNoteObject description).IsJson (printedNumber String.ofList) :=
  fields_json (readNote_parts description) printed_1000 printed_1

theorem noteSdk_hex (text : String) : isSha256Hex (noteSdk.sha256 text) = true := by
  show isSha256Hex (if text = _ then _ else _) = true
  split
  · decide +kernel
  · decide +kernel

theorem positiveInt_1000 : positiveInt 1000 = true := by decide +kernel

theorem positiveInt_1 : positiveInt 1 = true := by decide +kernel

theorem readNote_timeout (description : String) :
    (readNote description).descriptor.timeoutMs = 1000 := rfl

theorem readNote_attempts (description : String) :
    (readNote description).descriptor.maxAttempts = 1 := rfl

theorem readNote_accepted (description : String) :
    ∃ descriptor, finalizeDescriptor noteSdk (readNote description) = .ok descriptor := by
  refine ⟨_, finalizeDescriptor_accepted rfl rfl rfl rfl rfl ?_ ?_ (noteSdk_hex _)⟩
  · rw [readNote_timeout]
    exact positiveInt_1000
  · rw [readNote_attempts]
    exact positiveInt_1

theorem readNote_apart : ¬ SameCovered (readNote "Reads a note.").descriptor
    (readNote "Reads any note.").descriptor := by
  intro h
  exact absurd h.description (by decide)

/-- Their objects have different texts, the text is read back, and the digests differ. -/
theorem noteDigests_differ :
    stableStringify (readNoteObject "Reads a note.") ≠
        stableStringify (readNoteObject "Reads any note.") ∧
      (∃ text, stableStringify (readNoteObject "Reads a note.") = some text ∧
        ∃ read, parseJson String.ofList text.toList = some read ∧
          EqUpToOrder read (readNoteObject "Reads a note.")) ∧
      ∃ dx dy, finalizeDescriptor noteSdk (readNote "Reads a note.") = .ok dx ∧
        finalizeDescriptor noteSdk (readNote "Reads any note.") = .ok dy ∧
          dx.capabilityDigest ≠ dy.capabilityDigest := by
  obtain ⟨htexts, hread, hdigests⟩ := @canonical_text_faithful Nat noteSdk String.ofList noteTexts
    noteSdk_injOn printWhole_digits
  obtain ⟨dx, hx⟩ := readNote_accepted "Reads a note."
  obtain ⟨dy, hy⟩ := readNote_accepted "Reads any note."
  have hapart := (hdigests _ _ dx dy hx hy (readNote_parts _) (readNote_parts _)
    (Set.mem_insert _ _) (Set.mem_insert_of_mem _ rfl)).not.mpr readNote_apart
  refine ⟨?_, hread _ (readNoteObject_json _), dx, dy, hx, hy, hapart⟩
  rw [Ne, (htexts _ _ (readNoteObject_json _) (readNoteObject_json _)).1]
  exact (fields_eqUpToOrder_iff printWhole_digits (finalizeDescriptor_numbers hx)
    (finalizeDescriptor_numbers hy)).not.mpr readNote_apart

end CapabilitySdk

end OpenLagrange
