/-
What the digest of a scope request covers, and what an envelope gives back.

The digest is taken over an object that may have an undefined property, which the canonical text
spells out as a word.  No JSON value begins as that word does, so the text still tells such
objects apart, and two requests with the same digest are the same in every field it covers, unless
the hash identifies their two texts.  The payload of an envelope is read back as it was written.
-/
import OpenLagrange.Proofs.CanonicalDigest
import OpenLagrange.Repository.ScopeApproval

namespace OpenLagrange

/-! ### Objects with undefined properties -/

/-- A plain value, or undefined. -/
def Value.told (v : Value) : Prop := v = .undefined ∨ v.plain = true

/-- How such a value is written as a property. -/
def toldChars (v : Value) : List Char :=
  match v with
  | .undefined => "undefined".toList
  | v => v.chars

def toldField (field : String × Value) : List Char :=
  (jsonString field.1).toList ++ ':' :: toldChars field.2

theorem toldChars_plain {v : Value} (h : v.plain = true) : toldChars v = v.chars := by
  cases v with
  | undefined => cases h
  | _ => rfl

/-- No plain value begins as the word does. -/
theorem chars_ne_undefined {v : Value} (h : v.plain = true) {s t : List Char} :
    v.chars ++ s ≠ "undefined".toList ++ t := by
  have hkind : leadKind 'u' = 7 := by decide
  exact chars_ne_close h hkind (t := "ndefined".toList ++ t)

theorem told_splits {v w : Value} (hv : v.told) (hw : w.told) :
    PrefixCode.Splits Follows toldChars v w := by
  intro s t hs ht h
  rcases hv with rfl | hv
  · rcases hw with rfl | hw
    · exact ⟨rfl, List.append_cancel_left h⟩
    · rw [toldChars_plain hw] at h
      exact absurd h.symm (chars_ne_undefined hw)
  · rcases hw with rfl | hw
    · rw [toldChars_plain hv] at h
      exact absurd h (chars_ne_undefined hv)
    · rw [toldChars_plain hv, toldChars_plain hw] at h
      exact chars_splits v hv w hw s t hs ht h

theorem toldField_splits {f g : String × Value} (hf : f.2.told) (hg : g.2.told) :
    PrefixCode.Splits Follows toldField f g := by
  intro s t hs ht h
  simp only [toldField, List.append_assoc, List.cons_append] at h
  obtain ⟨hkey, hrest⟩ := jsonString_splits (fun _ => True) f.1 g.1 _ _ trivial trivial h
  obtain ⟨hvalue, hst⟩ := told_splits hf hg s t hs ht (List.cons.inj hrest).2
  exact ⟨Prod.ext hkey hvalue, hst⟩

theorem told_sorted {v : Value} (h : v.told) : v.sorted.told := by
  rcases h with rfl | h
  · exact Or.inl rfl
  · exact Or.inr (plain_sorted v h)

theorem text_told {v : Value} (h : v.told) :
    (stableStringify v).getD "undefined" = String.ofList (toldChars v.sorted) := by
  rcases h with rfl | h
  · rfl
  · rw [stableStringify_plain v h, toldChars_plain (plain_sorted v h)]
    rfl

/-- The canonical text of an object with such properties. -/
theorem stableStringify_told {fields : List (String × Value)} {first : String × Value}
    {rest : List (String × Value)} (htold : ∀ f ∈ fields, f.2.told)
    (hsorted : sortFields (fields.map sortedField) = first :: rest) :
    ∃ text, stableStringify (.obj fields) = some text ∧ text.toList =
      '\x7b' :: (toldField first ++ (PrefixCode.separated ',' toldField rest ++ ['\x7d'])) := by
  have htexts : stableFields fields =
      (fields.map sortedField).map fun f => (f.1, String.ofList (toldChars f.2)) := by
    rw [stableFields_eq, List.map_map]
    apply List.map_congr_left
    intro f hf
    rw [text_told (htold f hf)]
    rfl
  have hsort : (stableFields fields).insertionSort
        (fun a b => unitsLe (utf16 a.1) (utf16 b.1) = true) =
      (first :: rest).map fun f => (f.1, String.ofList (toldChars f.2)) := by
    rw [htexts, ← hsorted]
    exact sortFields_map (fun v : Value => String.ofList (toldChars v)) _
  refine ⟨_, by rw [stableStringify], ?_⟩
  rw [hsort, List.map_map, String.toList_append, String.toList_append]
  rw [@intercalate_chars _ _ toldField first rest]
  · simp
  · intro f _
    simp [toldField]

/-- **Objects with the same canonical text are the same**, also where properties are undefined. -/
theorem sameValue_of_told {fields fields' : List (String × Value)}
    (htold : ∀ f ∈ fields, f.2.told) (htold' : ∀ f ∈ fields', f.2.told)
    (hne : fields ≠ []) (hne' : fields' ≠ [])
    (h : stableStringify (.obj fields) = stableStringify (.obj fields')) :
    SameValue (.obj fields) (.obj fields') := by
  have hcons : ∀ {list : List (String × Value)}, list ≠ [] →
      ∃ first rest, sortFields (list.map sortedField) = first :: rest := by
    intro list hlist
    apply List.exists_cons_of_ne_nil
    intro hnil
    have hlength := (List.perm_insertionSort fieldLe (list.map sortedField)).length_eq
    have hnil : List.insertionSort fieldLe (list.map sortedField) = [] := hnil
    rw [hnil, List.length_map] at hlength
    exact hlist (List.length_eq_zero_iff.mp hlength.symm)
  have hmem : ∀ {list : List (String × Value)}, (∀ f ∈ list, f.2.told) →
      ∀ f ∈ sortFields (list.map sortedField), f.2.told := by
    intro list hlist f hf
    obtain ⟨g, hg, rfl⟩ := List.mem_map.mp (mem_sortFields.mp hf)
    exact told_sorted (hlist g hg)
  obtain ⟨first, rest, hsorted⟩ := hcons hne
  obtain ⟨first', rest', hsorted'⟩ := hcons hne'
  obtain ⟨text, htext, hchars⟩ := stableStringify_told htold hsorted
  obtain ⟨text', htext', hchars'⟩ := stableStringify_told htold' hsorted'
  have hall := hmem htold
  have hall' := hmem htold'
  rw [hsorted] at hall
  rw [hsorted'] at hall'
  have hsame : text = text' := by
    rw [htext, htext'] at h
    exact Option.some.inj h
  rw [hsame, hchars'] at hchars
  have hfollows : ∀ list : List (String × Value),
      Follows (PrefixCode.separated ',' toldField list ++ ['\x7d']) := by
    intro list
    cases list with
    | nil => exact follows_brace []
    | cons f list => exact follows_comma _
  obtain ⟨hfirst, htail⟩ := toldField_splits (hall first List.mem_cons_self)
    (hall' first' List.mem_cons_self) _ _ (hfollows rest) (hfollows rest')
    (List.cons.inj hchars).2.symm
  obtain ⟨hrest, -⟩ := PrefixCode.separated_unique (by decide) follows_comma follows_brace
    (fun f hf g hg => toldField_splits (hall f (List.mem_cons_of_mem _ hf))
      (hall' g (List.mem_cons_of_mem _ hg))) htail
  show (Value.obj fields).sorted = (Value.obj fields').sorted
  rw [sorted_obj, sorted_obj]
  exact congrArg Value.obj (by
    show sortFields (fields.map sortedField) = sortFields (fields'.map sortedField)
    rw [hsorted, hsorted', hfirst, hrest])

/-! ### What the digest covers -/

/-- Two requests are the same in all that the digest covers. -/
structure SameScope (a b : PersistedScopeExpansionRequest) : Prop where
  requestId : a.requestId = b.requestId
  planId : a.planId = b.planId
  nodeId : a.nodeId = b.nodeId
  workOrderId : a.workOrderId = b.workOrderId
  reason : a.reason = b.reason
  requestedFiles : a.requestedFiles.getD [] = b.requestedFiles.getD []
  requestedCapabilities : a.requestedCapabilities.getD [] = b.requestedCapabilities.getD []
  requestedVerificationCommands : a.requestedVerificationCommands.getD [] =
    b.requestedVerificationCommands.getD []
  requestedRiskLevel : a.requestedRiskLevel = b.requestedRiskLevel
  evidenceRefs : a.evidenceRefs = b.evidenceRefs
  latestFailureRefs : a.latestFailureRefs.getD [] = b.latestFailureRefs.getD []

/-- The text that the digest of a request is the hash of. -/
def scopeText (r : PersistedScopeExpansionRequest) : String :=
  hashedText (scopeExpansionContent r.toRequest)

/-- Two texts that the hash does not tell apart. -/
def Collision (sha256 : String → String) (s t : String) : Prop := s ≠ t ∧ sha256 s = sha256 t

theorem sameValue_strings {a b : List String} (h : SameValue (strings a) (strings b)) : a = b := by
  have hjson : (strings a).IsJson (fun _ => True) := by
    refine .arr _ ?_
    intro v hv
    obtain ⟨s, -, rfl⟩ := List.mem_map.mp hv
    exact .str s
  have hequal : EqUpToOrder (strings a) (strings b) := SameValue.eqUpToOrder hjson h
  exact eqItems_strings.mp (eqUpToOrder_arr.mp hequal)

theorem sameValue_text {s t : String} (h : SameValue (.str s) (.str t)) : s = t := by
  have hsame := sameValue_str.mp h
  cases hsame
  rfl

theorem content_told (r : PersistedScopeExpansionRequest) {fields : List (String × Value)}
    (hfields : scopeExpansionContent r.toRequest = .obj fields) : ∀ f ∈ fields, f.2.told := by
  intro f hf
  cases hfields
  simp only [List.mem_cons, List.not_mem_nil, or_false] at hf
  rcases hf with rfl | rfl | rfl | rfl | rfl | rfl | rfl | rfl | rfl | rfl | rfl
  · exact Or.inr rfl
  · exact Or.inr rfl
  · exact Or.inr rfl
  · exact Or.inr rfl
  · exact Or.inr rfl
  · exact Or.inr (plain_strings _)
  · exact Or.inr (plain_strings _)
  · exact Or.inr (plain_strings _)
  · show (r.requestedRiskLevel.elim Value.undefined fun risk => .str risk.text).told
    cases r.requestedRiskLevel with
    | none => exact Or.inl rfl
    | some risk => exact Or.inr rfl
  · exact Or.inr (plain_strings _)
  · exact Or.inr (plain_strings _)

theorem sameScope_of_text {a b : PersistedScopeExpansionRequest} (h : scopeText a = scopeText b) :
    SameScope a b := by
  have htexts : stableStringify (scopeExpansionContent a.toRequest) =
      stableStringify (scopeExpansionContent b.toRequest) := by
    unfold scopeText hashedText scopeExpansionContent at h
    unfold scopeExpansionContent
    rw [stableStringify, stableStringify] at h ⊢
    exact congrArg some h
  have hsame := sameValue_of_told (content_told a rfl) (content_told b rfl) (by simp) (by simp)
    htexts
  have hrisk := property_same hsame "requested_risk_level"
  refine ⟨sameValue_text (property_same hsame "request_id"),
    sameValue_text (property_same hsame "plan_id"), sameValue_text (property_same hsame "node_id"),
    sameValue_text (property_same hsame "work_order_id"),
    sameValue_text (property_same hsame "reason"),
    sameValue_strings (property_same hsame "requested_files"),
    sameValue_strings (property_same hsame "requested_capabilities"),
    sameValue_strings (property_same hsame "requested_verification_commands"), ?_,
    sameValue_strings (property_same hsame "evidence_refs"),
    sameValue_strings (property_same hsame "latest_failure_refs")⟩
  have hrisk : SameValue (a.requestedRiskLevel.elim .undefined fun risk => .str risk.text)
      (b.requestedRiskLevel.elim .undefined fun risk => .str risk.text) := hrisk
  cases ha : a.requestedRiskLevel with
  | none =>
      cases hb : b.requestedRiskLevel with
      | none => rfl
      | some risk =>
          rw [ha, hb] at hrisk
          cases hrisk
  | some risk =>
      cases hb : b.requestedRiskLevel with
      | none =>
          rw [ha, hb] at hrisk
          cases hrisk
      | some risk' =>
          rw [ha, hb] at hrisk
          exact congrArg some (risk_text.eq_iff.mp (sameValue_text hrisk))

/-- **Requests with the same digest are the same in all it covers**, unless the hash identifies
their texts. -/
theorem sameScope_of_digest {sha256 : String → String} {a b : PersistedScopeExpansionRequest}
    (h : scopeExpansionRequestDigest sha256 a.toRequest =
      scopeExpansionRequestDigest sha256 b.toRequest) :
    SameScope a b ∨ Collision sha256 (scopeText a) (scopeText b) := by
  by_cases htext : scopeText a = scopeText b
  · exact Or.inl (sameScope_of_text htext)
  · exact Or.inr ⟨htext, h⟩

/-! ### The payload read back -/

/-- The properties that are there. -/
def present (fields : List (String × Option Value)) : List (String × Value) :=
  fields.filterMap fun f => f.2.map fun v => (f.1, v)

theorem ownProperty_present {fields : List (String × Option Value)}
    (hnames : (fields.map Prod.fst).Nodup) (name : String) :
    ownProperty (present fields) name =
      (fields.find? fun field => field.1 = name).bind (·.2) := by
  induction fields with
  | nil => rfl
  | cons field rest ih =>
      obtain ⟨key, value⟩ := field
      obtain ⟨hfresh, hrest⟩ := List.nodup_cons.mp hnames
      have ih := ih hrest
      unfold ownProperty present at ih ⊢
      cases value with
      | none =>
          by_cases hname : key = name
          · -- no later property has the name of one that is missing
            subst hname
            have hnone : rest.find? (fun field => decide (field.1 = key)) = none := by
              rw [List.find?_eq_none]
              intro f hf
              simp only [decide_eq_true_eq]
              intro hkey
              exact hfresh (List.mem_map.mpr ⟨f, hf, hkey⟩)
            rw [hnone] at ih
            simpa using ih
          · simpa [List.find?_cons, hname] using ih
      | some v =>
          by_cases hname : key = name
          · simp [hname]
          · simpa [List.find?_cons, hname] using ih

section Reading

variable {α : Type} {read : Value → Option α} {fields : List (String × Option Value)}

theorem readRequired_present (write : α → Value) (name : String) (a : α)
    (hnames : (fields.map Prod.fst).Nodup)
    (hfind : fields.find? (fun field => field.1 = name) = some (name, some (write a)))
    (hread : read (write a) = some a) : readRequired read (present fields) name = some a := by
  unfold readRequired
  rw [ownProperty_present hnames, hfind]
  exact hread

theorem readOptional_present (write : α → Value) (name : String) (a : Option α)
    (hnames : (fields.map Prod.fst).Nodup)
    (hfind : fields.find? (fun field => field.1 = name) = some (name, a.map write))
    (hread : ∀ b, read (write b) = some b) : readOptional read (present fields) name = some a := by
  unfold readOptional
  rw [ownProperty_present hnames, hfind]
  cases a with
  | none => rfl
  | some b =>
      show (read (write b)).map some = some (some b)
      rw [hread]
      rfl

theorem readStrict_present {names : List String} (hnames : ∀ f ∈ fields, f.1 ∈ names) :
    readStrict names (stripUndefined fields) = some (present fields) := by
  show (if (present fields).all (fun field => field.1 ∈ names) then some (present fields)
    else none) = some (present fields)
  rw [if_pos]
  rw [List.all_eq_true]
  intro f hf
  obtain ⟨g, hg, hfound⟩ := List.mem_filterMap.mp hf
  obtain ⟨v, -, rfl⟩ := Option.map_eq_some_iff.mp hfound
  simpa using hnames g hg

theorem readTexts_strings (items : List String) : readTexts (strings items) = some items := by
  unfold readTexts strings
  dsimp only
  induction items with
  | nil => rfl
  | cons item rest ih =>
      rw [List.map_cons, List.mapM_cons, ih]
      rfl

end Reading

theorem readEnum_risk (risk : RiskLevel) :
    readEnum RiskLevel.text RiskLevel.all (.str risk.text) = some risk := by
  cases risk <;> decide

theorem readEnum_status (status : ScopeExpansionRequestStatus) :
    readEnum ScopeExpansionRequestStatus.text ScopeExpansionRequestStatus.all (.str status.text) =
      some status := by
  cases status <;> decide

theorem request_names (r : PersistedScopeExpansionRequest) :
    r.fields.map Prod.fst = persistedScopeExpansionRequestNames := rfl

theorem request_names_nodup (r : PersistedScopeExpansionRequest) :
    (r.fields.map Prod.fst).Nodup := by
  rw [request_names]
  decide

/-- A kept request is read back as it was written. -/
theorem PersistedScopeExpansionRequest.read_fields (r : PersistedScopeExpansionRequest) :
    PersistedScopeExpansionRequest.read (stripUndefined r.fields) = some r := by
  have hnames := request_names_nodup r
  have htext : ∀ s : String, readText (.str s) = some s := fun _ => rfl
  have hlist := readTexts_strings
  have hstrict : readStrict persistedScopeExpansionRequestNames (stripUndefined r.fields) =
      some (present r.fields) := by
    apply readStrict_present
    intro f hf
    rw [← request_names r]
    exact List.mem_map_of_mem hf
  unfold PersistedScopeExpansionRequest.read
  rw [hstrict]
  show Option.bind (some (present r.fields)) _ = some r
  rw [Option.bind_some,
    readRequired_present Value.str "request_id" r.requestId hnames rfl (htext _),
    readRequired_present Value.str "plan_id" r.planId hnames rfl (htext _),
    readRequired_present Value.str "node_id" r.nodeId hnames rfl (htext _),
    readRequired_present Value.str "work_order_id" r.workOrderId hnames rfl (htext _),
    readRequired_present Value.str "reason" r.reason hnames rfl (htext _),
    readOptional_present strings "requested_files" r.requestedFiles hnames rfl hlist,
    readOptional_present strings "requested_capabilities" r.requestedCapabilities hnames rfl hlist,
    readOptional_present strings "requested_verification_commands"
      r.requestedVerificationCommands hnames rfl hlist,
    readOptional_present (fun risk => Value.str risk.text) "requested_risk_level"
      r.requestedRiskLevel hnames rfl readEnum_risk,
    readRequired_present strings "evidence_refs" r.evidenceRefs hnames rfl (hlist _),
    readOptional_present strings "latest_failure_refs" r.latestFailureRefs hnames rfl hlist,
    readRequired_present (fun status => Value.str status.text) "status" r.status hnames rfl
      (readEnum_status _),
    readRequired_present Value.str "created_at" r.createdAt hnames rfl (htext _),
    readOptional_present Value.str "decided_at" r.decidedAt hnames rfl htext,
    readOptional_present Value.str "approval_id" r.approvalId hnames rfl htext]
  rfl

/-- **A payload is read back as it was written.** -/
theorem ScopeExpansionApprovalPayload.read_value (p : ScopeExpansionApprovalPayload) :
    ScopeExpansionApprovalPayload.read p.value = some p := by
  have hnames : (p.fields.map Prod.fst).Nodup := by
    show ["request", "request_digest", "requested_files", "requested_capabilities",
      "requested_verification_commands"].Nodup
    decide
  have htext : ∀ s : String, readText (.str s) = some s := fun _ => rfl
  have hlist := readTexts_strings
  have hstrict : readStrict ["request", "request_digest", "requested_files",
      "requested_capabilities", "requested_verification_commands"] p.value =
        some (present p.fields) := by
    apply readStrict_present
    intro f hf
    exact List.mem_map_of_mem (f := Prod.fst) hf
  unfold ScopeExpansionApprovalPayload.read
  rw [hstrict]
  show Option.bind (some (present p.fields)) _ = some p
  rw [Option.bind_some,
    readRequired_present (fun r : PersistedScopeExpansionRequest => stripUndefined r.fields)
      "request" p.request hnames rfl (PersistedScopeExpansionRequest.read_fields _),
    readRequired_present Value.str "request_digest" p.requestDigest hnames rfl (htext _),
    readRequired_present strings "requested_files" p.requestedFiles hnames rfl (hlist _),
    readRequired_present strings "requested_capabilities" p.requestedCapabilities hnames rfl
      (hlist _),
    readRequired_present strings "requested_verification_commands"
      p.requestedVerificationCommands hnames rfl (hlist _)]
  rfl

theorem ScopeExpansionApprovalPayload.parse_value {isDatetime : String → Bool}
    {p parsed : ScopeExpansionApprovalPayload}
    (h : ScopeExpansionApprovalPayload.parse isDatetime p.value = .ok parsed) : parsed = p := by
  unfold ScopeExpansionApprovalPayload.parse at h
  rw [ScopeExpansionApprovalPayload.read_value] at h
  cases hrefined : p.refined isDatetime with
  | false =>
      rw [Option.filter_some, hrefined] at h
      cases h
  | true =>
      rw [Option.filter_some, hrefined] at h
      exact (Except.ok.inj h).symm

end OpenLagrange
