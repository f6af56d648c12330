/-
When composed parameters stay data.

The composer puts what was taken from the prompt into the inputs of a template, and the runner
looks for references in the inputs that come out.  It cannot tell the text of the template from
the text of the prompt, so a reference in the prompt is resolved like one of the template.

To say what should be delivered, every character of an input is marked: does it come from the
prompt or the context, or from the template?  `delivered` resolves the references that stand in
the text of the template and leaves every marked character alone.
-/
import OpenLagrange.Planning.IntentComposer
import OpenLagrange.Proofs.Runner

namespace OpenLagrange

/-! ### What should be delivered -/

/-- The parameters taken from the prompt or the context. -/
def userParameters : List String :=
  ["topic", "objective", "title", "url", "urls", "provider_id", "repo_path"]

/-- The characters of a piece, each with whether it is a user's. -/
def ParameterPiece.marked (parameters : List (String × Value)) : ParameterPiece → List (Char × Bool)
  | .char c => [(c, false)]
  | .parameter key => (parameterText parameters key).map (·, decide (key ∈ userParameters))

def markedText (parameters : List (String × Value)) (value : String) : List (Char × Bool) :=
  (parameterPieces 0 value.toList).flatMap (·.marked parameters)

/-- The text of the template up to the first character of a user. -/
def ownRun (text : List (Char × Bool)) : List Char :=
  (text.takeWhile fun c => !c.2).map (·.1)

/-- The pieces of a text in which only the template's own text is looked at for references. -/
def ownPieces : Nat → List (Char × Bool) → List TemplatePiece
  | _, [] => []
  | skip + 1, _ :: rest => ownPieces skip rest
  | 0, c :: rest =>
      match bracedOutput (ownRun (c :: rest)) with
      | some ((id, path), length) => .output id path :: ownPieces (length - 1) rest
      | none => .char c.1 :: ownPieces 0 rest

def deliveredText (outputs : Outputs) (text : List (Char × Bool)) : Value :=
  .str (String.join ((ownPieces 0 text).map (pieceText outputs)))

def deliveredString (outputs : Outputs) (parameters : List (String × Value)) (value : String) :
    Value :=
  match exactParameter value.toList with
  | some key =>
      let parameter := Value.property parameters key
      if key ∈ userParameters then parameter else resolveTemplates outputs parameter.stripUndefined
  | none =>
      let text := markedText parameters value
      if text.any (·.2) then deliveredText outputs text
      else resolveTemplateString (String.ofList (text.map (·.1))) outputs

mutual

/-- What a value of a template should be delivered as. -/
def delivered (outputs : Outputs) (parameters : List (String × Value)) : Value → Value
  | .str s => deliveredString outputs parameters s
  | .arr items => .arr (deliveredItems outputs parameters items)
  | .obj fields => .obj (deliveredFields outputs parameters fields)
  | .native name => if name = "__proto__" then .obj [] else .native name
  | .undefined => .undefined
  | .null => .null
  | .bool b => .bool b
  | .num text => .num text

def deliveredItems (outputs : Outputs) (parameters : List (String × Value)) :
    List Value → List Value
  | [] => []
  | item :: rest => delivered outputs parameters item :: deliveredItems outputs parameters rest

def deliveredFields (outputs : Outputs) (parameters : List (String × Value)) :
    List (String × Value) → List (String × Value)
  | [] => []
  | (key, item) :: rest =>
      match resolveParameters parameters item with
      | .undefined => deliveredFields outputs parameters rest
      | _ => (key, delivered outputs parameters item) :: deliveredFields outputs parameters rest

end

/-- An input that comes to nothing is an empty object. -/
def deliveredInput (outputs : Outputs) (parameters : List (String × Value)) (value : Value) :
    Value :=
  if (resolveParameters parameters value).isNullish then .obj []
  else delivered outputs parameters value

/-- The steps of the node of an entry ask for what should be delivered, whatever other nodes output. -/
def EntryDelivered (plan : Planfile) (parameters : List (String × Value))
    (entry : String × Value) : Prop :=
  ∀ state node outputs capabilityRef descriptor context, node.id = entry.1 →
    (PlanRunner.stepInput plan state node outputs capabilityRef descriptor context).input =
      deliveredInput outputs parameters entry.2

/-- Every step of a node with a template input asks for what should be delivered. -/
def ParametersDelivered (plan : Planfile) (parameters : List (String × Value))
    (template : PlanTemplate) : Prop :=
  ∀ entry ∈ fromEntries (templateInputs template), EntryDelivered plan parameters entry

/-! ### The condition -/

/-- The runner finds no other references in the text than the template's own. -/
structure Inert (text : List (Char × Bool)) : Prop where
  whole : wholeOutput (text.map (·.1)) = none
  exact : exactOutput (text.map (·.1)) = none
  pieces : templatePieces 0 (text.map (·.1)) = ownPieces 0 text

def StringStays (parameters : List (String × Value)) (value : String) : Prop :=
  match exactParameter value.toList with
  | some key => key ∈ userParameters → templateRefs (Value.property parameters key) = []
  | none => (markedText parameters value).any (·.2) = true → Inert (markedText parameters value)

mutual

/-- **The user's text stays data.**  A parameter that is all of a text refers to no output, and in
a text that holds a parameter the runner finds only the references of the template. -/
def DataStays (parameters : List (String × Value)) : Value → Prop
  | .str s => StringStays parameters s
  | .arr items => ItemsStay parameters items
  | .obj fields => FieldsStay parameters fields
  | _ => True

def ItemsStay (parameters : List (String × Value)) : List Value → Prop
  | [] => True
  | item :: rest => DataStays parameters item ∧ ItemsStay parameters rest

def FieldsStay (parameters : List (String × Value)) : List (String × Value) → Prop
  | [] => True
  | (_, item) :: rest => DataStays parameters item ∧ FieldsStay parameters rest

end

variable {parameters : List (String × Value)} {text : List (Char × Bool)} {chars more : List Char}
  {id : String} {path : List Char} {length : Nat}

/-! ### A reference found in a part is found in the whole -/

theorem after_append {start rest : List Char} (h : after start chars = some rest) :
    after start (chars ++ more) = some (rest ++ more) := by
  induction start generalizing chars with
  | nil =>
      cases h
      rfl
  | cons c start ih =>
      cases chars with
      | nil => cases h
      | cons d chars =>
          simp only [after] at h
          simp only [List.cons_append, after]
          split at h
          · rename_i heq
            rw [if_pos heq]
            exact ih h
          · cases h

theorem upTo_append {stop : Char} {found : List Char × List Char} (h : upTo stop chars = some found) :
    upTo stop (chars ++ more) = some (found.1, found.2 ++ more) := by
  induction chars generalizing found with
  | nil => cases h
  | cons c chars ih =>
      simp only [upTo] at h
      simp only [List.cons_append, upTo]
      split at h
      · rename_i heq
        cases h
        rw [if_pos heq]
      · rename_i hne
        rw [if_neg hne]
        obtain ⟨found', hfound, rfl⟩ := Option.map_eq_some_iff.mp h
        rw [ih hfound]
        rfl

theorem nodeReference_append {opening rest : List Char}
    (h : nodeReference opening chars = some (id, rest)) :
    nodeReference opening (chars ++ more) = some (id, rest ++ more) := by
  unfold nodeReference at h ⊢
  cases hafter : after opening chars with
  | none =>
      rw [hafter] at h
      cases h
  | some following =>
      rw [hafter, Option.bind_some] at h
      rw [after_append hafter, Option.bind_some]
      cases hup : upTo '.' following with
      | none =>
          rw [hup] at h
          cases h
      | some found =>
          rw [hup] at h
          rw [upTo_append hup]
          obtain ⟨name, rest'⟩ := found
          cases name with
          | nil => cases h
          | cons c name =>
              cases h
              rfl

variable (more) in
theorem bracedOutput_append (h : bracedOutput chars = some ((id, path), length)) :
    bracedOutput (chars ++ more) = some ((id, path), length) := by
  unfold bracedOutput at h ⊢
  cases hnode : nodeReference "\x7b\x7bnodes.".toList chars with
  | none =>
      rw [hnode] at h
      cases h
  | some found =>
      obtain ⟨name, rest⟩ := found
      rw [hnode] at h
      rw [nodeReference_append hnode]
      dsimp only at h ⊢
      cases hafter : after "output.".toList rest with
      | none =>
          rw [hafter] at h
          cases h
      | some following =>
          rw [hafter, Option.bind_some] at h
          rw [after_append hafter, Option.bind_some]
          cases hup : upTo '\x7d' following with
          | none =>
              rw [hup] at h
              cases h
          | some found =>
              obtain ⟨key, rest'⟩ := found
              rw [hup] at h
              rw [upTo_append hup]
              split at h
              · rename_i c name rest'' heq
                cases heq
                cases h
                simp only [List.cons_append, List.length_append, Nat.add_sub_add_right]
              · cases h

/-! ### The first difference shows -/

/-- An output that has this text under a path. -/
def nested (text : String) : List (List Char) → Value
  | [] => .str text
  | part :: rest => .obj [(String.ofList part, nested text rest)]

theorem pathPartsValue_nested {text : String} (parts : List (List Char)) :
    pathPartsValue parts (nested text parts) = .str text := by
  induction parts with
  | nil => rfl
  | cons part rest ih =>
      simp only [nested, pathPartsValue, stepInto, Value.property, List.find?_cons, decide_true]
      exact ih

theorem pathValue_undefined : pathValue .undefined path = .undefined := by
  unfold pathValue
  cases hsplit : splitAtChar '.' path with
  | nil => rfl
  | cons part rest => simp only [pathPartsValue, stepInto]

/-- A reference in braces begins with a brace. -/
theorem bracedOutput_head {c : Char} {rest : List Char}
    (h : bracedOutput (c :: rest) = some ((id, path), length)) : c = '\x7b' := by
  by_contra hne
  have hnone : nodeReference "\x7b\x7bnodes.".toList (c :: rest) = none := by
    unfold nodeReference
    have hafter : after "\x7b\x7bnodes.".toList (c :: rest) = none := by
      have hlist : "\x7b\x7bnodes.".toList = '\x7b' :: "\x7bnodes.".toList := by decide
      rw [hlist, after, if_neg (Ne.symm hne)]
    rw [hafter]
    rfl
  unfold bracedOutput at h
  rw [hnone] at h
  cases h

/-- Where other outputs always give the same text, the same pieces are found. -/
theorem pieces_eq {skip : Nat}
    (h : ∀ outputs : Outputs, String.join ((templatePieces skip (text.map (·.1))).map (pieceText outputs)) =
      String.join ((ownPieces skip text).map (pieceText outputs))) :
    templatePieces skip (text.map (·.1)) = ownPieces skip text := by
  induction text generalizing skip with
  | nil => cases skip <;> rfl
  | cons c rest ih =>
      cases skip with
      | succ skip => exact ih h
      | zero =>
          simp only [List.map_cons, templatePieces, ownPieces] at h ⊢
          have hrun : ∃ more, c.1 :: rest.map (·.1) = ownRun (c :: rest) ++ more := by
            refine ⟨((c :: rest).dropWhile fun c => !c.2).map (·.1), ?_⟩
            unfold ownRun
            rw [← List.map_append, List.takeWhile_append_dropWhile]
            rfl
          obtain ⟨more, hmore⟩ := hrun
          cases hown : bracedOutput (ownRun (c :: rest)) with
          | some found =>
              obtain ⟨⟨id, path⟩, length⟩ := found
              have hbraced := bracedOutput_append more hown
              rw [← hmore] at hbraced
              rw [hown, hbraced] at h
              rw [hbraced]
              dsimp only at h ⊢
              congr 1
              refine ih fun outputs => ?_
              have hjoin := h outputs
              simp only [List.map_cons, String.join_cons] at hjoin
              exact String.append_right_inj _ |>.mp hjoin
          | none =>
              rw [hown] at h
              dsimp only at h ⊢
              cases hbraced : bracedOutput (c.1 :: rest.map (·.1)) with
              | none =>
                  rw [hbraced] at h
                  dsimp only at h ⊢
                  congr 1
                  refine ih fun outputs => ?_
                  have hjoin := h outputs
                  simp only [List.map_cons, String.join_cons] at hjoin
                  exact String.append_right_inj _ |>.mp hjoin
              | some found =>
                  obtain ⟨⟨id, path⟩, length⟩ := found
                  -- An output with another text where the runner looks shows the difference.
                  rw [hbraced] at h
                  have hjoin := h fun _ => nested "x" (splitAtChar '.' path)
                  have hvalue : pathValue (nested "x" (splitAtChar '.' path)) path = .str "x" :=
                    pathPartsValue_nested _
                  have hhead := bracedOutput_head hbraced
                  simp only [List.map_cons, String.join_cons, pieceText, hvalue, jsText, hhead] at hjoin
                  have hlist := congrArg String.toList hjoin
                  simp at hlist

/-! ### One text -/

theorem resolveTemplateString_ofList {outputs : Outputs} :
    resolveTemplateString (String.ofList chars) outputs =
      match wholeOutput chars with
      | some id => outputs id
      | none =>
          match exactOutput chars with
          | some (id, path) => pathValue (outputs id) path
          | none => .str (String.join ((templatePieces 0 chars).map (pieceText outputs))) := by
  unfold resolveTemplateString
  rw [String.toList_ofList] <;> rfl

variable (text) in
/-- **A marked text is delivered, whatever the outputs, exactly when it is inert.** -/
theorem inert_iff : (∀ outputs, resolveTemplateString (String.ofList (text.map (·.1))) outputs =
    deliveredText outputs text) ↔ Inert text := by
  constructor
  · intro h
    have hplain := h fun _ => .undefined
    rw [resolveTemplateString_ofList] at hplain
    have hwhole : wholeOutput (text.map (·.1)) = none := by
      cases hwhole : wholeOutput (text.map (·.1)) with
      | none => rfl
      | some id =>
          rw [hwhole] at hplain
          cases hplain
    rw [hwhole] at hplain
    have hexact : exactOutput (text.map (·.1)) = none := by
      cases hexact : exactOutput (text.map (·.1)) with
      | none => rfl
      | some found =>
          rw [hexact] at hplain
          simp only [pathValue_undefined] at hplain
          cases hplain
    refine ⟨hwhole, hexact, pieces_eq fun outputs => ?_⟩
    have hvalue := h outputs
    rw [resolveTemplateString_ofList, hwhole, hexact] at hvalue
    exact Value.str.inj hvalue
  · intro hinert outputs
    rw [resolveTemplateString_ofList, hinert.whole, hinert.exact, hinert.pieces]
    rfl

/-- In a text that is a user's from end to end no reference is the template's own. -/
theorem ownPieces_marked : ownPieces 0 (chars.map (·, true)) = chars.map .char := by
  induction chars with
  | nil => rfl
  | cons c chars ih =>
      simp only [List.map_cons, ownPieces, ih]
      rfl

theorem deliveredText_marked {outputs : Outputs} :
    deliveredText outputs (chars.map (·, true)) = .str (String.ofList chars) := by
  unfold deliveredText
  rw [ownPieces_marked, List.map_map]
  congr 1
  induction chars with
  | nil => rfl
  | cons c chars ih =>
      rw [List.map_cons, String.join_cons, ih]
      apply String.toList_injective
      simp [pieceText]

/-- A text without references is kept character by character. -/
theorem templatePieces_of_refs (h : (templatePieces 0 chars).flatMap (·.refs) = []) :
    templatePieces 0 chars = chars.map .char := by
  induction chars with
  | nil => rfl
  | cons c chars ih =>
      rw [templatePieces] at h ⊢
      cases hbraced : bracedOutput (c :: chars) with
      | some found =>
          rw [hbraced] at h
          simp [TemplatePiece.refs] at h
      | none =>
          rw [hbraced] at h
          simp only [List.flatMap_cons, TemplatePiece.refs, List.nil_append] at h
          exact congrArg _ (ih h)

theorem refs_of_chars : (chars.map TemplatePiece.char).flatMap (·.refs) = [] := by
  simp [List.flatMap_map, TemplatePiece.refs]

/-- A user's text is inert exactly when it refers to nothing. -/
theorem inert_marked_iff {s : String} : Inert (s.toList.map (·, true)) ↔ stringRefs s = [] := by
  have hchars : (s.toList.map (·, true)).map (·.1) = s.toList := by
    rw [List.map_map]
    exact List.map_id _
  unfold stringRefs
  constructor
  · rintro ⟨hwhole, hexact, hpieces⟩
    rw [hchars] at hwhole hexact hpieces
    rw [hwhole, hexact, hpieces, ownPieces_marked]
    exact refs_of_chars
  · intro h
    cases hwhole : wholeOutput s.toList with
    | some id =>
        rw [hwhole] at h
        cases h
    | none =>
        cases hexact : exactOutput s.toList with
        | some found =>
            rw [hwhole, hexact] at h
            cases h
        | none =>
            rw [hwhole, hexact] at h
            refine ⟨by rw [hchars, hwhole], by rw [hchars, hexact], ?_⟩
            rw [hchars, ownPieces_marked]
            exact templatePieces_of_refs h

/-- **A user's text reaches the capability, whatever the outputs, exactly when it refers to none.** -/
theorem verbatim_iff {s : String} :
    (∀ outputs, resolveTemplates outputs (.str s) = .str s) ↔ templateRefs (.str s) = [] := by
  have hchars : (s.toList.map (·, true)).map (·.1) = s.toList := by
    rw [List.map_map]
    exact List.map_id _
  have hinert := inert_iff (s.toList.map (·, true))
  rw [hchars, String.ofList_toList] at hinert
  simp only [deliveredText_marked, String.ofList_toList] at hinert
  simp only [resolveTemplates, templateRefs]
  rw [hinert, inert_marked_iff]

theorem verbatim_items_iff {texts : List String} :
    (∀ outputs, resolveItems outputs (texts.map .str) = texts.map .str) ↔
      itemRefs (texts.map .str) = [] := by
  induction texts with
  | nil => exact iff_of_true (fun _ => rfl) rfl
  | cons s texts ih =>
      simp only [List.map_cons, resolveItems, List.cons.injEq, itemRefs, List.append_eq_nil_iff]
      rw [forall_and, verbatim_iff, ih]

/-- Every parameter of a user is a text, a list of texts, or not there. -/
def UserTexts (parameters : List (String × Value)) : Prop :=
  ∀ key ∈ userParameters, Value.property parameters key = .undefined ∨
    (∃ s, Value.property parameters key = .str s) ∨
    ∃ texts : List String, Value.property parameters key = .arr (texts.map .str)

theorem strip_texts {texts : List String} : stripItems (texts.map .str) = texts.map .str := by
  induction texts with
  | nil => rfl
  | cons s texts ih =>
      simp only [List.map_cons, stripItems, Value.stripUndefined, ih]

theorem user_iff (h : UserTexts parameters) {key : String} (hkey : key ∈ userParameters) :
    (∀ outputs, resolveTemplates outputs (Value.property parameters key).stripUndefined =
        Value.property parameters key) ↔ templateRefs (Value.property parameters key) = [] := by
  rcases h key hkey with hvalue | ⟨s, hvalue⟩ | ⟨texts, hvalue⟩
  · rw [hvalue]
    exact iff_of_true (fun _ => by simp only [Value.stripUndefined, resolveTemplates])
      (by simp only [templateRefs])
  · rw [hvalue]
    simp only [Value.stripUndefined]
    exact verbatim_iff
  · rw [hvalue]
    simp only [Value.stripUndefined, strip_texts, resolveTemplates, Value.arr.injEq, templateRefs]
    exact verbatim_items_iff

/-- Text of a template is nobody's. -/
theorem marked_chars : (chars.map ParameterPiece.char).flatMap (·.marked parameters) =
    chars.map (·, false) := by
  rw [List.flatMap_map]
  exact List.flatMap_pure_eq_map ..

theorem markedText_chars {value : String} : (markedText parameters value).map (·.1) =
    (parameterPieces 0 value.toList).flatMap (·.text parameters) := by
  unfold markedText
  rw [List.map_flatMap]
  refine List.flatMap_congr fun piece _ => ?_
  cases piece with
  | char c => rfl
  | parameter key =>
      simp only [ParameterPiece.marked, ParameterPiece.text, List.map_map]
      exact List.map_id _

theorem string_iff (h : UserTexts parameters) {value : String} :
    (∀ outputs, resolveTemplates outputs (resolveParameterString parameters value).stripUndefined =
      deliveredString outputs parameters value) ↔ StringStays parameters value := by
  unfold resolveParameterString deliveredString StringStays
  cases hexact : exactParameter value.toList with
  | some key =>
      dsimp only
      by_cases hkey : key ∈ userParameters
      · simp only [if_pos hkey]
        rw [user_iff h hkey]
        exact ⟨fun hrefs _ => hrefs, fun hrefs => hrefs hkey⟩
      · simp only [if_neg hkey]
        exact iff_of_true (fun _ => trivial) fun hmem => (hkey hmem).elim
  | none =>
      dsimp only
      rw [← markedText_chars]
      simp only [Value.stripUndefined, resolveTemplates]
      by_cases hany : (markedText parameters value).any (·.2) = true
      · simp only [if_pos hany]
        rw [inert_iff _]
        exact ⟨fun hinert _ => hinert, fun hinert => hinert hany⟩
      · simp only [if_neg hany]
        exact iff_of_true (fun _ => trivial) fun hmem => (hany hmem).elim

/-! ### All of an input -/

theorem value_undefined_or (value : Value) : value = .undefined ∨ value ≠ .undefined := by
  cases value <;> simp

theorem stripFields_cons {key : String} {item : Value} {rest : List (String × Value)}
    (h : item ≠ .undefined) :
    stripFields ((key, item) :: rest) = (key, item.stripUndefined) :: stripFields rest := by
  cases item with
  | undefined => exact (h rfl).elim
  | _ => simp only [stripFields]

theorem deliveredFields_cons {key : String} {item : Value} {rest : List (String × Value)}
    {outputs : Outputs} (h : resolveParameters parameters item ≠ .undefined) :
    deliveredFields outputs parameters ((key, item) :: rest) =
      (key, delivered outputs parameters item) :: deliveredFields outputs parameters rest := by
  rw [deliveredFields]
  cases hvalue : resolveParameters parameters item with
  | undefined => exact (h hvalue).elim
  | _ => rfl

/-- What comes to nothing stays data. -/
theorem dataStays_of_nullish (h : UserTexts parameters) {value : Value}
    (hvalue : (resolveParameters parameters value).isNullish = true) :
    DataStays parameters value := by
  cases value with
  | str s =>
      simp only [resolveParameters] at hvalue
      simp only [DataStays]
      unfold resolveParameterString at hvalue
      unfold StringStays
      cases hexact : exactParameter s.toList with
      | none =>
          rw [hexact] at hvalue
          cases hvalue
      | some key =>
          rw [hexact] at hvalue
          dsimp only at hvalue
          intro hkey
          rcases h key hkey with hnone | ⟨text, hsome⟩ | ⟨texts, hsome⟩
          · rw [hnone]
            simp only [templateRefs]
          · rw [hsome] at hvalue
            cases hvalue
          · rw [hsome] at hvalue
            cases hvalue
  | arr items =>
      simp only [resolveParameters] at hvalue
      cases hvalue
  | obj fields =>
      simp only [resolveParameters] at hvalue
      cases hvalue
  | _ => simp only [DataStays]

mutual

theorem data_iff (h : UserTexts parameters) : ∀ value : Value,
    (∀ outputs, resolveTemplates outputs (resolveParameters parameters value).stripUndefined =
      delivered outputs parameters value) ↔ DataStays parameters value
  | .str s => by
      simp only [resolveParameters, delivered, DataStays]
      exact string_iff h
  | .arr items => by
      simp only [resolveParameters, Value.stripUndefined, resolveTemplates, delivered, DataStays,
        Value.arr.injEq]
      exact items_iff h items
  | .obj fields => by
      simp only [resolveParameters, Value.stripUndefined, resolveTemplates, delivered, DataStays,
        Value.obj.injEq]
      exact fields_iff h fields
  | .native name => by
      simp only [resolveParameters, delivered, DataStays, iff_true]
      intro outputs
      by_cases hproto : name = "__proto__"
      · simp only [if_pos hproto, Value.stripUndefined, stripFields, resolveTemplates, resolveFields]
      · simp only [if_neg hproto, Value.stripUndefined, resolveTemplates]
  | .undefined | .null | .bool _ | .num _ => by
      simp only [resolveParameters, Value.stripUndefined, resolveTemplates, delivered, DataStays,
        implies_true]

theorem items_iff (h : UserTexts parameters) : ∀ items : List Value,
    (∀ outputs, resolveItems outputs (stripItems (resolveParameterItems parameters items)) =
      deliveredItems outputs parameters items) ↔ ItemsStay parameters items
  | [] => by
      simp only [resolveParameterItems, stripItems, resolveItems, deliveredItems, ItemsStay,
        implies_true]
  | item :: rest => by
      simp only [resolveParameterItems, stripItems, resolveItems, deliveredItems, ItemsStay,
        List.cons.injEq]
      rw [forall_and, data_iff h item, items_iff h rest]

theorem fields_iff (h : UserTexts parameters) : ∀ fields : List (String × Value),
    (∀ outputs, resolveFields outputs (stripFields (resolveParameterFields parameters fields)) =
      deliveredFields outputs parameters fields) ↔ FieldsStay parameters fields
  | [] => by
      simp only [resolveParameterFields, stripFields, resolveFields, deliveredFields, FieldsStay,
        implies_true]
  | (key, item) :: rest => by
      simp only [resolveParameterFields, FieldsStay]
      rcases value_undefined_or (resolveParameters parameters item) with hnone | hsome
      · -- The property is left out, on either side.
        have hstays : DataStays parameters item := dataStays_of_nullish h (by rw [hnone]; rfl)
        simp only [hnone, stripFields, deliveredFields, hstays, true_and]
        exact fields_iff h rest
      · simp only [stripFields_cons hsome, deliveredFields_cons hsome, resolveFields,
          List.cons.injEq, Prod.mk.injEq, true_and]
        rw [forall_and, data_iff h item, fields_iff h rest]

end

/-! ### The composed plan -/

theorem fromEntries_map {α β : Type} (f : α → β) (entries : List (String × α)) :
    fromEntries (entries.map fun entry => (entry.1, f entry.2)) =
      (fromEntries entries).map fun entry => (entry.1, f entry.2) := by
  have hfold : ∀ (entries fields : List (String × α)),
      (entries.map fun entry => (entry.1, f entry.2)).foldl (fun fields entry =>
        if fields.any (·.1 = entry.1) then
          fields.map fun field => if field.1 = entry.1 then entry else field
        else fields ++ [entry]) (fields.map fun entry => (entry.1, f entry.2)) =
      (entries.foldl (fun fields entry =>
        if fields.any (·.1 = entry.1) then
          fields.map fun field => if field.1 = entry.1 then entry else field
        else fields ++ [entry]) fields).map fun entry => (entry.1, f entry.2) := by
    intro entries
    induction entries with
    | nil => exact fun _ => rfl
    | cons entry rest ih =>
        intro fields
        rw [List.map_cons, List.foldl_cons, List.foldl_cons, ← ih]
        congr 1
        by_cases hany : fields.any (·.1 = entry.1) = true
        · rw [if_pos hany, if_pos (by simpa [List.any_map, Function.comp_def] using hany), List.map_map,
            List.map_map]
          refine List.map_congr_left fun field _ => ?_
          simp only [Function.comp_apply]
          split <;> rfl
        · rw [if_neg hany, if_neg (by simpa [List.any_map, Function.comp_def] using hany),
            List.map_append]
          rfl
  exact hfold entries []

theorem fromEntries_nodup {α : Type} (entries : List (String × α)) :
    ((fromEntries entries).map (·.1)).Nodup := by
  have hfold : ∀ (entries fields : List (String × α)), (fields.map (·.1)).Nodup →
      ((entries.foldl (fun fields entry =>
        if fields.any (·.1 = entry.1) then
          fields.map fun field => if field.1 = entry.1 then entry else field
        else fields ++ [entry]) fields).map (·.1)).Nodup := by
    intro entries
    induction entries with
    | nil => exact fun _ h => h
    | cons entry rest ih =>
        intro fields hnodup
        rw [List.foldl_cons]
        refine ih _ ?_
        by_cases hany : fields.any (·.1 = entry.1) = true
        · rw [if_pos hany, List.map_map]
          have hkeys : fields.map ((·.1) ∘ fun field => if field.1 = entry.1 then entry else field) =
              fields.map (·.1) := by
            refine List.map_congr_left fun field _ => ?_
            simp only [Function.comp_apply]
            split
            · rename_i heq
              exact heq.symm
            · rfl
          rw [hkeys]
          exact hnodup
        · rw [if_neg hany, List.map_append, List.nodup_append]
          refine ⟨hnodup, List.nodup_singleton _, ?_⟩
          rintro key hkey _ hentry rfl
          obtain ⟨field, hfield, rfl⟩ := List.mem_map.mp hkey
          refine hany (List.any_eq_true.mpr ⟨field, hfield, ?_⟩)
          simpa using hentry
  exact hfold entries [] List.nodup_nil

theorem property_of_mem (fields : List (String × Value)) (hnodup : (fields.map (·.1)).Nodup)
    {entry : String × Value} (hmem : entry ∈ fields) : Value.property fields entry.1 = entry.2 := by
  induction fields with
  | nil => cases hmem
  | cons field rest ih =>
      rw [List.map_cons, List.nodup_cons] at hnodup
      unfold Value.property
      rw [List.find?_cons]
      rcases List.mem_cons.mp hmem with rfl | hmem
      · rw [decide_eq_true rfl]
      · have hne : field.1 ≠ entry.1 := by
          intro heq
          exact hnodup.1 (List.mem_map.mpr ⟨entry, hmem, heq.symm⟩)
        rw [decide_eq_false hne]
        exact ih hnodup.2 hmem

theorem stripFields_objects {entries : List (String × Value)}
    {f : Value → List (String × Value)} :
    stripFields (entries.map fun entry => (entry.1, Value.obj (f entry.2))) =
      entries.map fun entry => (entry.1, Value.obj (stripFields (f entry.2))) := by
  induction entries with
  | nil => rfl
  | cons entry rest ih =>
      simp only [List.map_cons, stripFields, Value.stripUndefined, ih]

/-- The input that the composed plan configures for a node. -/
theorem nodeInput_composed {plan : Planfile} {template : PlanTemplate}
    (hcontext : plan.contextField "nodes" = configuredNodes parameters template)
    {entry : String × Value} (hmem : entry ∈ fromEntries (templateInputs template)) :
    nodeInput plan entry.1 =
      if (resolveParameters parameters entry.2).isNullish then .obj []
      else (resolveParameters parameters entry.2).stripUndefined := by
  have hnodes : configuredNodes parameters template =
      .obj ((fromEntries (templateInputs template)).map fun entry =>
        (entry.1, Value.obj (stripFields [("input", resolveParameters parameters entry.2)]))) := by
    unfold configuredNodes
    rw [fromEntries_map fun value => Value.obj [("input", resolveParameters parameters value)],
      Value.stripUndefined,
      stripFields_objects (f := fun value => [("input", resolveParameters parameters value)])]
  have hproperty := property_of_mem ((fromEntries (templateInputs template)).map fun entry =>
      (entry.1, Value.obj (stripFields [("input", resolveParameters parameters entry.2)])))
    (by rw [List.map_map]; exact fromEntries_nodup _) (List.mem_map_of_mem hmem)
  unfold nodeInput
  rw [hcontext, hnodes]
  dsimp only at hproperty ⊢
  rw [hproperty]
  cases hvalue : resolveParameters parameters entry.2 with
  | native name =>
      by_cases hproto : name = "__proto__" <;>
        simp [stripFields, Value.stripUndefined, Value.property, Value.isNullish, hproto]
  | _ =>
      simp [stripFields, Value.stripUndefined, Value.property, Value.inherited, Value.inheritedNames,
        Value.isNullish]

theorem composedContext_nodes {intent : IntentFrame} {template : PlanTemplate}
    {input : ComposePlanfileInput} :
    Value.property (composedContext intent template input) "nodes" =
      configuredNodes (compositionParameters intent template input) template := by
  unfold composedContext Value.property
  cases intent.scheduleIntent with
  | none =>
      cases input.context.bind (·.repoPath) with
      | none => simp
      | some repoPath => by_cases hempty : repoPath = "" <;> simp [hempty]
  | some schedule =>
      cases hrequested : schedule.requested <;>
        (cases input.context.bind (·.repoPath) with
        | none => simp [hrequested]
        | some repoPath => by_cases hempty : repoPath = "" <;> simp [hempty, hrequested])

/-- What the composer takes from the prompt and the context are texts. -/
theorem userTexts_composition {intent : IntentFrame} {template : PlanTemplate}
    {input : ComposePlanfileInput} :
    UserTexts (compositionParameters intent template input) := by
  intro key hkey
  unfold compositionParameters templateParameters
  dsimp only
  generalize (extractUrl intent.originalPrompt.toList).map String.ofList = url
  generalize input.context.bind (·.providerPreference) = provider
  generalize input.context.bind (·.repoPath) = repoPath
  simp only [userParameters, List.mem_cons, List.not_mem_nil, or_false] at hkey
  rcases hkey with rfl | rfl | rfl | rfl | rfl | rfl | rfl <;> cases url <;> cases provider <;>
    cases repoPath <;>
    simp [stripFields, Value.stripUndefined, Value.property, Value.inherited, Value.inheritedNames]
  -- What is left are the URLs: none, or the one of the prompt.
  all_goals first
    | exact ⟨[], rfl⟩
    | exact ⟨[_], rfl⟩

theorem composed_ok {P : Platform} {intent : IntentFrame} {template : PlanTemplate}
    {input : ComposePlanfileInput} {now : String}
    (h : (composedPlanfile P intent template input now).refined P.isDatetime = true) :
    planfileFromTemplate P intent template input now =
      .ok (composedPlanfile P intent template input now) := by
  unfold planfileFromTemplate
  dsimp only
  rw [if_pos h]

/-- **One input of the template.** -/
theorem entry_iff {P : Platform} {intent : IntentFrame} {template : PlanTemplate}
    {input : ComposePlanfileInput} {now : String} {plan : Planfile}
    (hplan : planfileFromTemplate P intent template input now = .ok plan) {entry : String × Value}
    (hmem : entry ∈ fromEntries (templateInputs template)) :
    EntryDelivered (withCanonicalPlanDigest P.sha256 plan)
        (compositionParameters intent template input) entry ↔
      DataStays (compositionParameters intent template input) entry.2 := by
  have hcontext : (withCanonicalPlanDigest P.sha256 plan).contextField "nodes" =
      configuredNodes (compositionParameters intent template input) template := by
    unfold planfileFromTemplate at hplan
    dsimp only at hplan
    split at hplan
    · obtain rfl := Except.ok.inj hplan
      exact composedContext_nodes
    · cases hplan
  have htexts : UserTexts (compositionParameters intent template input) := userTexts_composition
  have hinput := nodeInput_composed hcontext hmem
  cases hnullish : (resolveParameters (compositionParameters intent template input)
      entry.2).isNullish with
  | true =>
      refine iff_of_true ?_ (dataStays_of_nullish htexts hnullish)
      intro state node outputs capabilityRef descriptor context hid
      unfold PlanRunner.stepInput deliveredInput
      dsimp only
      rw [hid, hinput, hnullish]
      rfl
  | false =>
      rw [← data_iff htexts]
      constructor
      · intro h outputs
        have hstep := h (initialPlanState P plan "")
          (planNodeFromTemplate ⟨entry.1, .inspect, "", "", "", [], none, [], none, none⟩ .live)
          outputs "" ⟨"", "", "", "", .null, .null, .read, false, [], ""⟩
          ⟨"", "", "", "", "", "", [], [], [], .read, [], "", "", "", none⟩ rfl
        unfold PlanRunner.stepInput deliveredInput at hstep
        dsimp only [planNodeFromTemplate] at hstep
        rw [hinput, hnullish] at hstep
        exact hstep
      · intro h state node outputs capabilityRef descriptor context hid
        unfold PlanRunner.stepInput deliveredInput
        dsimp only
        rw [hid, hinput, hnullish]
        exact h outputs

/-- **When composed parameters stay data.**  Of a composed plan every step asks for its template's
input with the parameters of the prompt and the context as they are, whatever the other nodes
output, exactly when those parameters stay data in each input of the template. -/
theorem parameters_delivered_iff (P : Platform) (intent : IntentFrame) (template : PlanTemplate)
    (input : ComposePlanfileInput) (now : String) (plan : Planfile)
    (hplan : planfileFromTemplate P intent template input now = .ok plan) :
    ParametersDelivered (withCanonicalPlanDigest P.sha256 plan)
        (compositionParameters intent template input) template ↔
      ∀ entry ∈ fromEntries (templateInputs template),
        DataStays (compositionParameters intent template input) entry.2 := by
  unfold ParametersDelivered
  exact forall₂_congr fun entry hmem => entry_iff hplan hmem

/-! ### A sample template -/

def briefIntent (prompt : String) : IntentFrame where
  intentId := "intent"
  originalPrompt := prompt
  interpretedGoal := "Create a cited research brief."
  domain := .research
  action := .createBrief
  outputExpectation := some ⟨.markdownBrief, some .markdown⟩
  scheduleIntent := none
  constraints := []
  nonGoals := []
  assumptions := []
  ambiguityLevel := .low
  ambiguityQuestions := []
  ambiguityBlocking := false
  requiredCapabilityKinds := []
  sideEffectExpectation := .artifactWrite
  riskLevel := .read

/-- A search for the topic, and a brief about what it found. -/
def briefTemplate : PlanTemplate where
  templateId := "research.brief"
  packId := "research"
  nodesTemplate :=
    [⟨"search", .inspect, "Search", "Search", "Search for the topic.", [], some "research.search",
        ["Sources"], some (.obj [("query", .str "$parameters.topic")]), none⟩,
      ⟨"brief", .analyze, "Brief", "Brief", "Write the brief.", ["search"], some "research.brief",
        ["Brief"], some (.obj [("topic", .str "$parameters.topic"),
          ("sources", .str "$nodes.search.output.sources"),
          ("heading", .str "On \x7b\x7bparameters.topic\x7d\x7d: \x7b\x7bnodes.search.output.count\x7d\x7d")]),
        none⟩]
  outputKind := "markdown_brief"

def briefInput : ComposePlanfileInput := ⟨none, .dryRun⟩

def composedBrief (prompt : String) : Planfile :=
  composedPlanfile samplePlatform (briefIntent prompt) briefTemplate briefInput "2026-01-01T00:00:00Z"

deriving instance DecidableEq for TemplatePiece

theorem briefInputs : fromEntries (templateInputs briefTemplate) =
    [("search", .obj [("query", .str "$parameters.topic")]),
      ("brief", .obj [("topic", .str "$parameters.topic"),
        ("sources", .str "$nodes.search.output.sources"),
        ("heading", .str "On \x7b\x7bparameters.topic\x7d\x7d: \x7b\x7bnodes.search.output.count\x7d\x7d")])] :=
  rfl

theorem exact_topic : exactParameter "$parameters.topic".toList = some "topic" := by decide +kernel

theorem exact_sources : exactParameter "$nodes.search.output.sources".toList = none := by
  decide +kernel

/-- The topic of a prompt that holds no URL. -/
theorem brief_topic {prompt : String} (topic : List Char)
    (hurl : extractUrl prompt.toList = none) (htopic : cleanTopic prompt.toList none = topic) :
    Value.property (compositionParameters (briefIntent prompt) briefTemplate briefInput) "topic" =
      .str (String.ofList topic) := by
  unfold compositionParameters templateParameters
  simp only [briefIntent, hurl, htopic, stripFields, Value.stripUndefined, Value.property,
    List.find?_cons, decide_true]

theorem rivers_topic :
    Value.property (compositionParameters (briefIntent "research rivers") briefTemplate briefInput)
      "topic" = .str "rivers" :=
  brief_topic "rivers".toList (by decide +kernel) (by decide +kernel)

/-- The heading around the topic: the runner finds the one reference of the template in it. -/
theorem rivers_heading : Inert (markedText
    (compositionParameters (briefIntent "research rivers") briefTemplate briefInput)
    "On \x7b\x7bparameters.topic\x7d\x7d: \x7b\x7bnodes.search.output.count\x7d\x7d") := by
  have htext : markedText
      (compositionParameters (briefIntent "research rivers") briefTemplate briefInput)
      "On \x7b\x7bparameters.topic\x7d\x7d: \x7b\x7bnodes.search.output.count\x7d\x7d" =
      "On ".toList.map (·, false) ++ "rivers".toList.map (·, true) ++
        ": \x7b\x7bnodes.search.output.count\x7d\x7d".toList.map (·, false) := by
    have hpieces : parameterPieces 0
        "On \x7b\x7bparameters.topic\x7d\x7d: \x7b\x7bnodes.search.output.count\x7d\x7d".toList =
        "On ".toList.map .char ++ .parameter "topic" ::
          ": \x7b\x7bnodes.search.output.count\x7d\x7d".toList.map .char := by
      decide +kernel
    unfold markedText
    rw [hpieces, List.flatMap_append, List.flatMap_cons, marked_chars, marked_chars]
    simp only [ParameterPiece.marked, parameterText, rivers_topic, Value.isNullish, jsText,
      Bool.false_eq_true, if_false, userParameters, List.mem_cons, true_or, decide_true,
      List.append_assoc]
  rw [htext]
  exact ⟨by decide +kernel, by decide +kernel, by decide +kernel⟩

/-- A topic without references is delivered. -/
theorem rivers_delivered : ParametersDelivered
    (withCanonicalPlanDigest samplePlatform.sha256 (composedBrief "research rivers"))
    (compositionParameters (briefIntent "research rivers") briefTemplate briefInput) briefTemplate := by
  refine (parameters_delivered_iff samplePlatform (briefIntent "research rivers") briefTemplate
    briefInput "2026-01-01T00:00:00Z" (composedBrief "research rivers") (composed_ok (by decide))).mpr ?_
  have htopic : StringStays (compositionParameters (briefIntent "research rivers") briefTemplate
      briefInput) "$parameters.topic" := by
    unfold StringStays
    rw [exact_topic]
    dsimp only
    rw [rivers_topic]
    intro _
    decide +kernel
  have hsources : StringStays (compositionParameters (briefIntent "research rivers") briefTemplate
      briefInput) "$nodes.search.output.sources" := by
    have hpieces : parameterPieces 0 "$nodes.search.output.sources".toList =
        "$nodes.search.output.sources".toList.map .char := by decide +kernel
    unfold StringStays markedText
    rw [exact_sources, hpieces, marked_chars]
    intro hany
    simp at hany
  intro entry hmem
  rw [briefInputs] at hmem
  rcases List.mem_cons.mp hmem with rfl | hmem
  · simp only [DataStays, FieldsStay, and_true]
    exact htopic
  · obtain rfl := List.mem_singleton.mp hmem
    simp only [DataStays, FieldsStay, and_true]
    refine ⟨htopic, hsources, ?_⟩
    have hexact : exactParameter
        "On \x7b\x7bparameters.topic\x7d\x7d: \x7b\x7bnodes.search.output.count\x7d\x7d".toList = none := by
      decide +kernel
    unfold StringStays
    rw [hexact]
    exact fun _ => rivers_heading

/-- The prompt pulls the sources of the search into the topic of the brief. -/
theorem reference_pulls_output :
    planfileFromTemplate samplePlatform (briefIntent "research $nodes.search.output.sources") briefTemplate
        briefInput "2026-01-01T00:00:00Z" =
      .ok (composedBrief "research $nodes.search.output.sources") ∧
    ¬ ParametersDelivered
      (withCanonicalPlanDigest samplePlatform.sha256
        (composedBrief "research $nodes.search.output.sources"))
      (compositionParameters (briefIntent "research $nodes.search.output.sources") briefTemplate briefInput)
      briefTemplate := by
  have hplan : planfileFromTemplate samplePlatform
      (briefIntent "research $nodes.search.output.sources") briefTemplate briefInput
      "2026-01-01T00:00:00Z" = .ok (composedBrief "research $nodes.search.output.sources") :=
    composed_ok (by decide)
  refine ⟨hplan, fun h => ?_⟩
  have hstays := (entry_iff hplan (briefInputs ▸ List.mem_cons_self)).mp (h _ (briefInputs ▸ List.mem_cons_self))
  simp only [DataStays, FieldsStay, and_true] at hstays
  unfold StringStays at hstays
  rw [exact_topic] at hstays
  have hrefs := hstays (by decide)
  rw [brief_topic "$nodes.search.output.sources".toList (by decide +kernel) (by decide +kernel)] at hrefs
  exact absurd hrefs (by decide +kernel)

end OpenLagrange
