/-
What resolving the templates of a value does to it.

The value keeps its shape: lists keep their items and objects their names, in order, and a text
without a reference stays.  A text that is one reference becomes what its path leads to, and in any
other text each reference is replaced by the text of that value; either way what is put in is not
looked at again.  A path goes from value to value, except that a name on a list takes the rest of
the path along to each item; so paths compose as long as no list is met.
-/
import OpenLagrange.Planning.TemplateErrors
import OpenLagrange.Util.JsonParse

namespace OpenLagrange

variable {outputs : Outputs} {value : Value} {id path : List Char}

/-! ### What stays -/

mutual

/-- The second value is the first with nothing changed but texts that hold a reference. -/
inductive Keeps : Value → Value → Prop
  | null : Keeps .null .null
  | bool (b : Bool) : Keeps (.bool b) (.bool b)
  | num (text : String) : Keeps (.num text) (.num text)
  | text (s : String) (plain : stringRefs s = []) : Keeps (.str s) (.str s)
  | reference (s : String) (r : Value) (refers : stringRefs s ≠ []) : Keeps (.str s) r
  | arr {items items' : List Value} (kept : KeepsItems items items') :
      Keeps (.arr items) (.arr items')
  | obj {fields fields' : List (String × Value)} (kept : KeepsFields fields fields') :
      Keeps (.obj fields) (.obj fields')

inductive KeepsItems : List Value → List Value → Prop
  | nil : KeepsItems [] []
  | cons {v w : Value} {items items' : List Value} (first : Keeps v w)
      (rest : KeepsItems items items') : KeepsItems (v :: items) (w :: items')

/-- The names stay, and their order. -/
inductive KeepsFields : List (String × Value) → List (String × Value) → Prop
  | nil : KeepsFields [] []
  | cons (key : String) {v w : Value} {fields fields' : List (String × Value)} (first : Keeps v w)
      (rest : KeepsFields fields fields') : KeepsFields ((key, v) :: fields) ((key, w) :: fields')

end

theorem templatePieces_plain {text : List Char}
    (h : (templatePieces 0 text).flatMap (·.refs) = []) : templatePieces 0 text = text.map .char := by
  induction text with
  | nil => rfl
  | cons c rest ih =>
      rw [templatePieces] at h ⊢
      cases hfound : bracedOutput (c :: rest) with
      | some found =>
          rw [hfound] at h
          cases h
      | none =>
          rw [hfound] at h
          simp only [List.flatMap_cons, TemplatePiece.refs, List.nil_append] at h ⊢
          rw [ih h, List.map_cons]

/-- The text that pieces come to. -/
def piecesText (outputs : Outputs) (pieces : List TemplatePiece) : List Char :=
  (String.join (pieces.map (pieceText outputs))).toList

theorem piecesText_chars (text : List Char) (pieces : List TemplatePiece) :
    piecesText outputs (text.map .char ++ pieces) = text ++ piecesText outputs pieces := by
  unfold piecesText
  rw [String.toList_join, String.toList_join, List.map_append, List.flatMap_append, List.map_map,
    List.flatMap_map]
  congr 1
  induction text with
  | nil => rfl
  | cons c text ih =>
      rw [List.flatMap_cons, ih]
      simp [pieceText]

theorem resolveString_plain {s : String} (h : stringRefs s = []) :
    resolveTemplateString s outputs = .str s ∧ stringThrows outputs s = false := by
  unfold stringRefs at h
  unfold resolveTemplateString stringThrows
  cases hwhole : wholeOutput s.toList with
  | some id =>
      rw [hwhole] at h
      cases h
  | none =>
      rw [hwhole] at h
      cases hexact : exactOutput s.toList with
      | some found =>
          rw [hexact] at h
          cases h
      | none =>
          rw [hexact] at h
          have hpieces := templatePieces_plain h
          have htext := @piecesText_chars outputs s.toList []
          rw [List.append_nil] at htext
          unfold piecesText at htext
          simp only [hpieces]
          constructor
          · have hnil : (String.join (([] : List TemplatePiece).map (pieceText outputs))).toList = [] :=
              rfl
            rw [hnil, List.append_nil] at htext
            rw [String.toList_inj.mp htext]
          · rw [Option.isNone_none, Option.isNone_none, Bool.true_and, Bool.true_and,
              List.any_eq_false]
            intro piece hpiece
            obtain ⟨c, -, rfl⟩ := List.mem_map.mp hpiece
            exact Bool.false_ne_true

theorem resolveItems_eq (items : List Value) :
    resolveItems outputs items = items.map (resolveTemplates outputs) := by
  induction items with
  | nil => rfl
  | cons item rest ih => rw [resolveItems, ih, List.map_cons]

theorem resolveFields_eq (fields : List (String × Value)) :
    resolveFields outputs fields = fields.map fun f => (f.1, resolveTemplates outputs f.2) := by
  induction fields with
  | nil => rfl
  | cons field rest ih =>
      obtain ⟨key, item⟩ := field
      rw [resolveFields, ih, List.map_cons]

theorem keepsItems_map {f : Value → Value} {items : List Value} (h : ∀ v ∈ items, Keeps v (f v)) :
    KeepsItems items (items.map f) := by
  induction items with
  | nil => exact .nil
  | cons v items ih =>
      exact .cons (h v List.mem_cons_self) (ih fun w hw => h w (List.mem_cons_of_mem _ hw))

theorem keepsFields_map {f : Value → Value} {fields : List (String × Value)}
    (h : ∀ g ∈ fields, Keeps g.2 (f g.2)) :
    KeepsFields fields (fields.map fun g => (g.1, f g.2)) := by
  induction fields with
  | nil => exact .nil
  | cons g fields ih =>
      exact .cons g.1 (h g List.mem_cons_self) (ih fun w hw => h w (List.mem_cons_of_mem _ hw))

/-- **Resolving keeps everything but the texts that hold a reference.** -/
theorem keeps_resolveTemplates (h : value.IsJson fun _ => True) :
    Keeps value (resolveTemplates outputs value) := by
  induction h with
  | null => exact .null
  | bool b => exact .bool b
  | num text _ => exact .num text
  | str s =>
      rw [resolveTemplates]
      by_cases hplain : stringRefs s = []
      · rw [(resolveString_plain hplain).1]
        exact .text s hplain
      · exact .reference s _ hplain
  | arr items _ ih =>
      rw [resolveTemplates, resolveItems_eq]
      exact .arr (keepsItems_map ih)
  | obj fields _ _ ih =>
      rw [resolveTemplates, resolveFields_eq]
      exact .obj (keepsFields_map ih)

theorem itemRefs_eq (items : List Value) : itemRefs items = items.flatMap templateRefs := by
  induction items with
  | nil => rfl
  | cons item rest ih => rw [itemRefs, ih, List.flatMap_cons]

theorem fieldRefs_eq (fields : List (String × Value)) :
    fieldRefs fields = fields.flatMap fun f => templateRefs f.2 := by
  induction fields with
  | nil => rfl
  | cons field rest ih =>
      obtain ⟨key, item⟩ := field
      rw [fieldRefs, ih, List.flatMap_cons]

theorem itemTemplatesThrow_eq (items : List Value) :
    itemTemplatesThrow outputs items = items.any (templatesThrow outputs) := by
  induction items with
  | nil => rfl
  | cons item rest ih => rw [itemTemplatesThrow, ih, List.any_cons]

theorem fieldTemplatesThrow_eq (fields : List (String × Value)) :
    fieldTemplatesThrow outputs fields = fields.any fun f => templatesThrow outputs f.2 := by
  induction fields with
  | nil => rfl
  | cons field rest ih =>
      obtain ⟨key, item⟩ := field
      rw [fieldTemplatesThrow, ih, List.any_cons]

/-- **A value without references is what it resolves to.** -/
theorem resolveTemplates_plain (h : value.IsJson fun _ => True) (hrefs : templateRefs value = []) :
    resolveTemplates outputs value = value ∧ templatesThrow outputs value = false := by
  induction h with
  | null | bool _ | num _ _ => exact ⟨rfl, rfl⟩
  | str s =>
      rw [resolveTemplates, templatesThrow]
      exact resolveString_plain hrefs
  | arr items _ ih =>
      rw [templateRefs, itemRefs_eq, List.flatMap_eq_nil_iff] at hrefs
      rw [resolveTemplates, resolveItems_eq, templatesThrow, itemTemplatesThrow_eq,
        List.any_eq_false]
      constructor
      · rw [List.map_congr_left fun v hv => (ih v hv (hrefs v hv)).1, List.map_id']
      · intro v hv
        rw [(ih v hv (hrefs v hv)).2]
        exact Bool.false_ne_true
  | obj fields _ _ ih =>
      rw [templateRefs, fieldRefs_eq, List.flatMap_eq_nil_iff] at hrefs
      rw [resolveTemplates, resolveFields_eq, templatesThrow, fieldTemplatesThrow_eq,
        List.any_eq_false]
      constructor
      · have hsame : ∀ f ∈ fields, (f.1, resolveTemplates outputs f.2) = f := by
          intro f hf
          rw [(ih f hf (hrefs f hf)).1]
        rw [List.map_congr_left hsame, List.map_id']
      · intro f hf
        rw [(ih f hf (hrefs f hf)).2]
        exact Bool.false_ne_true

/-! ### References -/

/-- What may stand for a node in a reference. -/
def ReferableId (id : List Char) : Prop := id ≠ [] ∧ '.' ∉ id

/-- What may stand for a path in a text that is one reference. -/
def ReferablePath (path : List Char) : Prop := path ≠ [] ∧ path.any lineTerminator = false

def outputReference (id : List Char) : List Char := "$nodes.".toList ++ id ++ ".output".toList

def pathReference (id path : List Char) : List Char :=
  "$nodes.".toList ++ id ++ ".output.".toList ++ path

theorem after_front (start rest : List Char) : after start (start ++ rest) = some rest := by
  induction start with
  | nil => rfl
  | cons c start ih => exact (if_pos rfl).trans ih

theorem upTo_front {stop : Char} {front rest : List Char} (h : stop ∉ front) :
    upTo stop (front ++ stop :: rest) = some (front, rest) := by
  induction front with
  | nil => exact if_pos rfl
  | cons c front ih =>
      have hne : c ≠ stop := fun heq => h (heq ▸ List.mem_cons_self)
      rw [List.cons_append, upTo, if_neg hne, ih fun hmem => h (List.mem_cons_of_mem _ hmem)]
      rfl

theorem nodeReference_front {opening rest : List Char} (hid : ReferableId id) :
    nodeReference opening (opening ++ (id ++ '.' :: rest)) = some (String.ofList id, rest) := by
  unfold nodeReference
  obtain ⟨c, others, hcons⟩ := List.exists_cons_of_ne_nil hid.1
  rw [after_front, Option.bind_some, upTo_front hid.2, hcons]

theorem wholeOutput_reference (hid : ReferableId id) :
    wholeOutput (outputReference id) = some (String.ofList id) := by
  have hsplit : outputReference id = "$nodes.".toList ++ (id ++ '.' :: "output".toList) :=
    List.append_assoc _ _ _
  unfold wholeOutput
  rw [hsplit, nodeReference_front hid]
  rfl

theorem pathReference_parts (hid : ReferableId id) (hpath : ReferablePath path) :
    wholeOutput (pathReference id path) = none ∧
      exactOutput (pathReference id path) = some (String.ofList id, path) := by
  have hsplit : pathReference id path =
      "$nodes.".toList ++ (id ++ '.' :: ("output.".toList ++ path)) := by
    unfold pathReference
    rw [List.append_assoc, List.append_assoc]
    rfl
  have hlonger : "output.".toList ++ path ≠ "output".toList := by
    intro heq
    have hlength := congrArg List.length heq
    rw [List.length_append] at hlength
    have hseven : "output.".toList.length = 7 := rfl
    have hsix : "output".toList.length = 6 := rfl
    omega
  obtain ⟨c, others, hcons⟩ := List.exists_cons_of_ne_nil hpath.1
  constructor
  · unfold wholeOutput
    rw [hsplit, nodeReference_front hid]
    exact if_neg hlonger
  · unfold exactOutput
    rw [hsplit, nodeReference_front hid]
    simp only [after_front]
    have hplain := hpath.2
    rw [hcons] at hplain ⊢
    simp only [hplain, Bool.false_eq_true, if_false]

/-! ### Paths -/

/-- Whether `item !== undefined`. -/
def isDefined : Value → Bool
  | .undefined => false
  | _ => true

theorem stepItems_eq (part : List Char) (next : Value → Value) (items : List Value) :
    stepItems part next items = items.map (stepInto part next) := by
  induction items with
  | nil => rfl
  | cons item rest ih => rw [stepItems, ih, List.map_cons]

/-- A number leads to an item of a list. -/
theorem pathPartsValue_index {part : List Char} {n : Nat} (h : partIndex part = some n)
    (rest : List (List Char)) (items : List Value) :
    pathPartsValue (part :: rest) (.arr items) = pathPartsValue rest (items.getD n .undefined) := by
  rw [pathPartsValue, stepInto, h]

/-- A name leads the rest of the path into each item, and what is undefined is dropped. -/
theorem pathPartsValue_items {part : List Char} (h : partIndex part = none)
    (rest : List (List Char)) (items : List Value) :
    pathPartsValue (part :: rest) (.arr items) =
      .arr ((items.map (pathPartsValue (part :: rest))).filter isDefined) := by
  rw [pathPartsValue, stepInto, h]
  simp only [stepItems_eq]
  congr 1

theorem pathPartsValue_member (part : List Char) (rest : List (List Char))
    (fields : List (String × Value)) :
    pathPartsValue (part :: rest) (.obj fields) =
      pathPartsValue rest (Value.property fields (String.ofList part)) := by
  rw [pathPartsValue, stepInto]

theorem pathPartsValue_undefined (parts : List (List Char)) :
    pathPartsValue parts .undefined = .undefined := by
  cases parts <;> rfl

def isArray : Value → Bool
  | .arr _ => true
  | _ => false

/-- Whether a step of the path is taken on a list. -/
def CrossesArray : List (List Char) → Value → Prop
  | [], _ => False
  | part :: rest, source =>
      isArray source = true ∨ CrossesArray rest (pathPartsValue [part] source)

/-- A step that is not on a list leads to one value. -/
theorem pathPartsValue_step (h : isArray value = false) (part : List Char)
    (rest : List (List Char)) :
    pathPartsValue (part :: rest) value = pathPartsValue rest (pathPartsValue [part] value) := by
  cases value with
  | arr items => cases h
  | obj fields => rw [pathPartsValue_member, pathPartsValue_member, pathPartsValue]
  | native name =>
      simp only [pathPartsValue, stepInto]
      split
      · rfl
      · exact (pathPartsValue_undefined rest).symm
  | undefined | null | bool _ | num _ | str _ => exact (pathPartsValue_undefined rest).symm

theorem pathPartsValue_append {parts : List (List Char)} (h : ¬ CrossesArray parts value)
    (others : List (List Char)) :
    pathPartsValue (parts ++ others) value = pathPartsValue others (pathPartsValue parts value) := by
  induction parts generalizing value with
  | nil => rfl
  | cons part parts ih =>
      obtain ⟨hnot, hrest⟩ := not_or.mp h
      have harray : isArray value = false := Bool.eq_false_iff.mpr hnot
      rw [List.cons_append, pathPartsValue_step harray, ih hrest,
        pathPartsValue_step harray part parts]

theorem splitAtChar_ne_nil (stop : Char) (text : List Char) : splitAtChar stop text ≠ [] := by
  cases text with
  | nil => exact List.cons_ne_nil _ _
  | cons c rest =>
      rw [splitAtChar]
      split
      · exact List.cons_ne_nil _ _
      · split
        · exact List.cons_ne_nil _ _
        · exact List.cons_ne_nil _ _

theorem splitAtChar_append (stop : Char) (front rest : List Char) :
    splitAtChar stop (front ++ stop :: rest) = splitAtChar stop front ++ splitAtChar stop rest := by
  induction front with
  | nil => exact if_pos rfl
  | cons c front ih =>
      rw [List.cons_append, splitAtChar, ih, splitAtChar]
      split
      · rfl
      · obtain ⟨first, others, hsplit⟩ := List.exists_cons_of_ne_nil (splitAtChar_ne_nil stop front)
        rw [hsplit]
        rfl

/-- **Paths compose where no list is met.** -/
theorem pathValue_append (h : ¬ CrossesArray (splitAtChar '.' path) value) (others : List Char) :
    pathValue value (path ++ '.' :: others) = pathValue (pathValue value path) others := by
  unfold pathValue
  rw [splitAtChar_append, pathPartsValue_append h]

/-! ### References inside a text -/

/-- What may stand for a path in a reference in braces. -/
def BraceablePath (path : List Char) : Prop := path ≠ [] ∧ '\x7d' ∉ path

def bracedReference (id path : List Char) : List Char :=
  "\x7b\x7bnodes.".toList ++ id ++ ".output.".toList ++ path ++ "\x7d\x7d".toList

theorem bracedReference_append (id path rest : List Char) : bracedReference id path ++ rest =
    "\x7b\x7bnodes.".toList ++
      (id ++ '.' :: ("output.".toList ++ (path ++ '\x7d' :: '\x7d' :: rest))) := by
  unfold bracedReference
  simp only [List.append_assoc]
  rfl

theorem bracedOutput_reference (hid : ReferableId id) (hpath : BraceablePath path)
    (rest : List Char) : bracedOutput (bracedReference id path ++ rest) =
      some ((String.ofList id, path), (bracedReference id path).length) := by
  have hlength : (bracedReference id path ++ rest).length - rest.length =
      (bracedReference id path).length := by
    rw [List.length_append]
    omega
  obtain ⟨c, others, hcons⟩ := List.exists_cons_of_ne_nil hpath.1
  unfold bracedOutput
  generalize (bracedReference id path ++ rest).length = whole at hlength ⊢
  rw [bracedReference_append, nodeReference_front hid]
  have htail : (after "output.".toList ("output.".toList ++ (path ++ '\x7d' :: '\x7d' :: rest))).bind
      (upTo '\x7d') = some (path, '\x7d' :: rest) := by
    rw [after_front, Option.bind_some, upTo_front hpath.2]
  simp only [htail]
  rw [← hlength, hcons]
  rfl

/-- No reference begins in the front part. -/
def Unreferenced (front rest : List Char) : Prop :=
  ∀ n < front.length, bracedOutput ((front ++ rest).drop n) = none

theorem templatePieces_front {front rest : List Char} (h : Unreferenced front rest) :
    templatePieces 0 (front ++ rest) = front.map .char ++ templatePieces 0 rest := by
  induction front with
  | nil => rfl
  | cons c front ih =>
      have hfirst := h 0 (Nat.succ_pos _)
      rw [List.drop_zero, List.cons_append] at hfirst
      have hrest : Unreferenced front rest := by
        intro n hn
        exact h (n + 1) (Nat.succ_lt_succ hn)
      rw [List.cons_append, templatePieces, hfirst]
      simp only [List.map_cons, List.cons_append, ih hrest]

theorem templatePieces_skip (skip : Nat) (text : List Char) :
    templatePieces skip text = templatePieces 0 (text.drop skip) := by
  induction text generalizing skip with
  | nil => cases skip <;> rfl
  | cons c rest ih =>
      cases skip with
      | zero => rfl
      | succ skip => exact ih skip

theorem templatePieces_reference (hid : ReferableId id) (hpath : BraceablePath path)
    (rest : List Char) : templatePieces 0 (bracedReference id path ++ rest) =
      .output (String.ofList id) path :: templatePieces 0 rest := by
  have hfound := bracedOutput_reference hid hpath rest
  obtain ⟨c, others, hcons⟩ : ∃ c others, bracedReference id path = c :: others := ⟨_, _, rfl⟩
  rw [hcons] at hfound ⊢
  rw [List.cons_append] at hfound ⊢
  rw [templatePieces, hfound]
  simp only [List.length_cons, Nat.add_sub_cancel]
  rw [templatePieces_skip, List.drop_left]

/-- **A reference inside a text is replaced by the text of its value, which is not looked at
again.** -/
theorem piecesText_reference (hid : ReferableId id) (hpath : BraceablePath path)
    {front rest : List Char} (h : Unreferenced front (bracedReference id path ++ rest)) :
    piecesText outputs (templatePieces 0 (front ++ (bracedReference id path ++ rest))) =
      front ++ (pieceText outputs (.output (String.ofList id) path)).toList ++
        piecesText outputs (templatePieces 0 rest) := by
  rw [templatePieces_front h, piecesText_chars, templatePieces_reference hid hpath,
    List.append_assoc]
  congr 1
  unfold piecesText
  rw [String.toList_join, String.toList_join, List.map_cons, List.flatMap_cons]

/-! ### Every call ends -/

/-- A call that looking a path up makes, below the call that makes it. -/
inductive PathCall : List (List Char) × Value → List (List Char) × Value → Prop
  | index {part : List Char} {rest : List (List Char)} {items : List Value} {n : Nat}
      (number : partIndex part = some n) :
      PathCall (rest, items.getD n .undefined) (part :: rest, .arr items)
  | item {part : List Char} {rest : List (List Char)} {items : List Value} {item : Value}
      (name : partIndex part = none) (mem : item ∈ items) :
      PathCall (part :: rest, item) (part :: rest, .arr items)
  | member {part : List Char} {rest : List (List Char)} {fields : List (String × Value)} :
      PathCall (rest, Value.property fields (String.ofList part)) (part :: rest, .obj fields)

/-- The path gets shorter, or the value smaller on the same path. -/
theorem pathCall_wf : WellFounded PathCall := by
  refine Subrelation.wf (r := InvImage (Prod.Lex (· < ·) (· < ·))
    fun call => (call.1.length, sizeOf call.2)) ?_
    (InvImage.wf _ (WellFounded.prod_lex Nat.lt_wfRel.wf Nat.lt_wfRel.wf))
  intro below call h
  cases h with
  | index number => exact Prod.Lex.left _ _ (Nat.lt_succ_self _)
  | @item part rest items item name mem =>
      refine Prod.Lex.right _ ?_
      have hsize := List.sizeOf_lt_of_mem mem
      show sizeOf item < sizeOf (Value.arr items)
      rw [Value.arr.sizeOf_spec]
      omega
  | member => exact Prod.Lex.left _ _ (Nat.lt_succ_self _)

/-- A call that resolving a value makes, below the call that makes it. -/
inductive ResolveCall : Value → Value → Prop
  | item {items : List Value} {v : Value} (mem : v ∈ items) : ResolveCall v (.arr items)
  | member {fields : List (String × Value)} {f : String × Value} (mem : f ∈ fields) :
      ResolveCall f.2 (.obj fields)

theorem resolveCall_wf : WellFounded ResolveCall := by
  refine Subrelation.wf (r := InvImage (· < ·) sizeOf) ?_ (InvImage.wf _ Nat.lt_wfRel.wf)
  intro below call h
  cases h with
  | @item items v mem =>
      have hsize := List.sizeOf_lt_of_mem mem
      show sizeOf below < sizeOf (Value.arr items)
      rw [Value.arr.sizeOf_spec]
      omega
  | @member fields f mem =>
      have hsize := List.sizeOf_lt_of_mem mem
      obtain ⟨key, v⟩ := f
      show sizeOf v < sizeOf (Value.obj fields)
      rw [Prod.mk.sizeOf_spec] at hsize
      rw [Value.obj.sizeOf_spec]
      omega

/-! ### The laws together -/

/-- What holds of resolving templates with these outputs. -/
structure ResolutionLaws (outputs : Outputs) : Prop where
  /-- Nothing changes but texts that hold a reference. -/
  keeps : ∀ value r : Value, (value.IsJson fun _ => True) →
    tryResolveTemplates outputs value = .ok r → Keeps value r
  /-- A value without references is resolved, to itself. -/
  plain : ∀ value : Value, (value.IsJson fun _ => True) → templateRefs value = [] →
    tryResolveTemplates outputs value = .ok value
  /-- A reference to a node is its output. -/
  output : ∀ id, ReferableId id →
    tryResolveTemplates outputs (.str (String.ofList (outputReference id))) =
      .ok (outputs (String.ofList id))
  /-- A reference with a path is what the path leads to. -/
  path : ∀ id path, ReferableId id → ReferablePath path →
    tryResolveTemplates outputs (.str (String.ofList (pathReference id path))) =
      .ok (pathValue (outputs (String.ofList id)) path)
  /-- In any other text a reference is replaced by the text of its value as it is. -/
  within : ∀ id path front rest, ReferableId id → BraceablePath path →
    Unreferenced front (bracedReference id path ++ rest) →
      ∀ text, text = front ++ (bracedReference id path ++ rest) →
        wholeOutput text = none → exactOutput text = none →
          ∀ r, tryResolveTemplates outputs (.str (String.ofList text)) = .ok r →
            r = .str (String.ofList (front ++
              (pieceText outputs (.output (String.ofList id) path)).toList ++
                piecesText outputs (templatePieces 0 rest)))

theorem tryResolve_string {text : List Char} {r : Value}
    (hwhole : wholeOutput text = none) (hexact : exactOutput text = none)
    (h : tryResolveTemplates outputs (.str (String.ofList text)) = .ok r) :
    r = .str (String.ofList (piecesText outputs (templatePieces 0 text))) := by
  unfold tryResolveTemplates at h
  split at h
  · cases h
  · rw [resolveTemplates] at h
    unfold resolveTemplateString at h
    simp only [String.toList_ofList, hwhole, hexact] at h
    rw [← Except.ok.inj h]
    unfold piecesText
    rw [String.ofList_toList]

/-- A text that is one reference is not turned into a text, so nothing is thrown. -/
theorem tryResolve_whole {text : List Char}
    (h : (wholeOutput text).isSome = true ∨ (exactOutput text).isSome = true) :
    tryResolveTemplates outputs (.str (String.ofList text)) =
      .ok (resolveTemplateString (String.ofList text) outputs) := by
  have hthrows : templatesThrow outputs (.str (String.ofList text)) = false := by
    rw [templatesThrow]
    unfold stringThrows
    rw [String.toList_ofList]
    rcases h with h | h
    · rw [Option.isNone_eq_false_iff.mpr h, Bool.false_and, Bool.false_and]
    · rw [Option.isNone_eq_false_iff.mpr h, Bool.and_false, Bool.false_and]
  unfold tryResolveTemplates
  rw [hthrows, resolveTemplates]
  rfl

/-- **Resolving templates obeys the laws, whatever the outputs are.** -/
theorem resolutionLaws (outputs : Outputs) : ResolutionLaws outputs where
  keeps value r hvalue h := by
    unfold tryResolveTemplates at h
    split at h
    · cases h
    · rw [← Except.ok.inj h]
      exact keeps_resolveTemplates hvalue
  plain value hvalue hrefs := by
    obtain ⟨hsame, hthrows⟩ := @resolveTemplates_plain outputs value hvalue hrefs
    unfold tryResolveTemplates
    rw [hthrows, hsame]
    rfl
  output id hid := by
    have hwhole := wholeOutput_reference hid
    rw [tryResolve_whole (.inl (by rw [hwhole]; rfl))]
    unfold resolveTemplateString
    rw [String.toList_ofList, hwhole]
  path id path hid hpath := by
    obtain ⟨hwhole, hexact⟩ := pathReference_parts hid hpath
    rw [tryResolve_whole (.inr (by rw [hexact]; rfl))]
    unfold resolveTemplateString
    rw [String.toList_ofList, hwhole, hexact]
  within id path front rest hid hpath hfront text htext hwhole hexact r h := by
    rw [tryResolve_string hwhole hexact h, htext, piecesText_reference hid hpath hfront]

/-- An output for a node, and none for any other. -/
def outputsOf (id : String) (output : Value) : Outputs :=
  fun other => if other = id then output else .undefined

theorem unresolved_dot : tryResolveTemplates (outputsOf "a.b" (.obj [("x", .null)]))
    (.str (String.ofList (pathReference ['a', '.', 'b'] ['x']))) =
      .ok (.str (String.ofList (pathReference ['a', '.', 'b'] ['x']))) := by
  refine (resolutionLaws _).plain _ (.str _) ?_
  rw [templateRefs]
  unfold stringRefs
  rw [String.toList_ofList]
  decide +kernel

theorem unresolved_lineBreak : tryResolveTemplates (outputsOf "a" (.obj [("x\n", .null)]))
    (.str (String.ofList (pathReference ['a'] ['x', '\n']))) =
      .ok (.str (String.ofList (pathReference ['a'] ['x', '\n']))) := by
  refine (resolutionLaws _).plain _ (.str _) ?_
  rw [templateRefs]
  unfold stringRefs
  rw [String.toList_ofList]
  decide +kernel

theorem unresolved_toString :
    tryResolveTemplates (outputsOf "a" (.obj [("x", .obj [("toString", .null)])]))
      (.str (String.ofList (bracedReference ['a'] ['x']))) =
        .error "Cannot convert object to primitive value" := by
  refine if_pos ?_
  rw [templatesThrow]
  unfold stringThrows
  rw [String.toList_ofList]
  decide +kernel

end OpenLagrange
