/-
What a structured diff says about the plans it was made from.

A node is looked at as the record of its properties.  A diff is applied to the nodes of
the previous plan by taking away, adding and patching such records.  `Visible` lists the
differences that make a diff say that the plan changed, and `KeepsFields` says that no node
lost a property; together they decide whether the diff is complete.
-/
import OpenLagrange.Planning.PlanfileDiff
import OpenLagrange.Proofs.Runner
import OpenLagrange.Proofs.Validator

namespace OpenLagrange

namespace PlanfileDiff

/-! ### Nodes as records -/

abbrev NodeRecord := String → Option Value

def record (node : PlanNode) : NodeRecord := ownField node.fields

theorem property_eq (fields : List (String × Value)) (name : String) :
    Value.property fields name = (ownField fields name).getD (Value.inherited name) := by
  unfold Value.property ownField
  cases fields.find? fun field => field.1 = name with
  | none => rfl
  | some field => rfl

theorem ownField_mem {fields : List (String × Value)} {name : String} {v : Value}
    (h : ownField fields name = some v) : (name, v) ∈ fields := by
  unfold ownField at h
  rw [Option.map_eq_some_iff] at h
  obtain ⟨⟨key, w⟩, hfind, rfl⟩ := h
  have hkey : key = name := by simpa using List.find?_some hfind
  rw [← hkey]
  exact List.mem_of_find?_eq_some hfind

theorem ownField_isSome {fields : List (String × Value)} {name : String} :
    (ownField fields name).isSome = true ↔ name ∈ fields.map (·.1) := by
  simp [ownField]

/-- The properties of a node, the ones that may be absent included. -/
def fieldNames : List String :=
  ["id", "kind", "title", "objective", "description", "depends_on", "allowed_capability_refs",
    "execution_mode", "expected_outputs", "acceptance_refs", "risk_level", "approval_required",
    "status", "artifacts", "errors", "optional", "verification_command_ids"]

theorem mem_fieldNames {node : PlanNode} {name : String} (h : name ∈ node.fields.map (·.1)) :
    name ∈ fieldNames := by
  obtain ⟨field, hfield, rfl⟩ := List.mem_map.mp h
  obtain ⟨listed, hlisted, hpresent⟩ := List.mem_filterMap.mp hfield
  rw [Option.map_eq_some_iff] at hpresent
  obtain ⟨v, -, rfl⟩ := hpresent
  exact List.mem_map_of_mem (f := Prod.fst) hlisted

theorem inherited_fieldName {name : String} (h : name ∈ fieldNames) :
    Value.inherited name = .undefined := by
  have hall : ∀ name ∈ fieldNames, name ∉ Value.inheritedNames := by decide
  exact if_neg (hall name h)

theorem plain_artifacts (artifacts : List PlanArtifactRef) :
    plainItems (artifacts.map (·.toValue)) = true := by
  rw [plainItems_iff]
  intro v hv
  obtain ⟨artifact, -, rfl⟩ := List.mem_map.mp hv
  rfl

theorem plain_fields (node : PlanNode) : plainFields node.fields = true := by
  obtain ⟨id, kind, title, objective, description, dependsOn, capabilities, mode, outputs, acceptance,
    risk, approval, status, artifacts, errors, optional, commands⟩ := node
  cases mode <;> cases optional <;> cases commands <;>
    simp [PlanNode.fields, plainFields, Value.plain, plain_artifacts]

theorem record_plain {node : PlanNode} {name : String} {v : Value} (h : record node name = some v) :
    v.plain = true :=
  plainFields_iff.mp (plain_fields node) (name, v) (ownField_mem h)

theorem record_id (node : PlanNode) : record node "id" = some (.str node.id) := rfl

/-! ### The changed fields -/

/-- **A field counts as changed when the next node has it and the previous node has not the same.** -/
theorem mem_changedNodeFields {before node : PlanNode} {name : String} :
    name ∈ changedNodeFields before node ↔
      (record node name).isSome = true ∧ record before name ≠ record node name := by
  unfold changedNodeFields
  rw [mem_sortTexts, List.mem_filter, ← ownField_isSome, decide_eq_true_eq]
  refine and_congr_right fun hsome => ?_
  obtain ⟨v, hv⟩ := Option.isSome_iff_exists.mp hsome
  have hname := inherited_fieldName (mem_fieldNames (ownField_isSome.mp hsome))
  have hrecord : record node name = some v := hv
  rw [hrecord, property_eq, property_eq, hname, hv, Option.getD_some]
  cases hbefore : ownField before.fields name with
  | none =>
      have htext : ¬ sameJson .undefined v = true := by
        unfold sameJson
        rw [jsonStringify_plain v (record_plain hrecord)]
        simp [jsonStringify]
      simp [record, hbefore, htext]
  | some w =>
      have hw : record before name = some w := hbefore
      rw [Option.getD_some, sameJson_iff (record_plain hw) (record_plain hrecord), hw]
      simp

theorem partialNode_field {node : PlanNode} {fields : List String} {name : String}
    (h : name ∈ fields) :
    ownField (partialNode node fields) name = some (Value.property node.fields name) := by
  unfold ownField partialNode
  induction fields with
  | nil => cases h
  | cons field rest ih =>
      rw [List.map_cons, List.find?_cons]
      by_cases heq : field = name
      · simp [heq]
      · have hrest : name ∈ rest := by
          rcases List.mem_cons.mp h with rfl | hrest
          · exact absurd rfl heq
          · exact hrest
        simpa [heq] using ih hrest

/-! ### Applying a diff -/

/-- The record with the changed fields as they are in `after`. -/
def patch (change : NodeChange) (r : NodeRecord) : NodeRecord := fun name =>
  if name ∈ change.changedFields then ownField change.after name else r name

/-- A node of the previous plan after the changes of its id. -/
def edited (diff : PlanfileStructuredDiff) (node : PlanNode) : NodeRecord :=
  (diff.nodesChanged.filter (·.nodeId = node.id)).foldl (fun r change => patch change r) (record node)

/-- What a diff makes of the nodes of the previous plan. -/
def applied (diff : PlanfileStructuredDiff) (nodes : List PlanNode) : Set NodeRecord :=
  { r | (∃ node ∈ nodes, node.id ∉ diff.nodesRemoved.map (·.id) ∧ edited diff node = r) ∨
    ∃ node ∈ diff.nodesAdded, record node = r }

def records (nodes : List PlanNode) : Set NodeRecord := { r | ∃ node ∈ nodes, record node = r }

section Nodes

variable {p q : Planfile}

/-- The entries about one id come from the one node of that id. -/
theorem flatMap_of_key {α : Type} {nodes : List PlanNode} (hnd : (nodes.map (·.id)).Nodup)
    {node : PlanNode} (hnode : node ∈ nodes) {entries : PlanNode → List α}
    (hothers : ∀ other ∈ nodes, other.id ≠ node.id → entries other = []) :
    nodes.flatMap entries = entries node := by
  induction nodes with
  | nil => cases hnode
  | cons head rest ih =>
      rw [List.map_cons, List.nodup_cons] at hnd
      rw [List.flatMap_cons]
      rcases List.mem_cons.mp hnode with rfl | hrest
      · have htail : rest.flatMap entries = [] := by
          rw [List.flatMap_eq_nil_iff]
          intro other hother
          refine hothers other (List.mem_cons_of_mem _ hother) ?_
          intro heq
          exact hnd.1 (heq ▸ List.mem_map_of_mem hother)
        rw [htail, List.append_nil]
      · have hne : head.id ≠ node.id := by
          intro heq
          exact hnd.1 (heq ▸ List.mem_map_of_mem hrest)
        rw [hothers head List.mem_cons_self hne, List.nil_append]
        exact ih hnd.2 hrest fun other hother => hothers other (List.mem_cons_of_mem _ hother)

/-- The changes a diff lists for a node that both plans have. -/
theorem nodeChanges_of_common (hp : (p.nodes.map (·.id)).Nodup) (hq : (q.nodes.map (·.id)).Nodup)
    {before node : PlanNode} (hbefore : before ∈ p.nodes) (hnode : node ∈ q.nodes)
    (hid : before.id = node.id) :
    (nodeChanges p q).filter (·.nodeId = before.id) =
      if (changedNodeFields before node).length = 0 then [] else [nodeChange before node] := by
  have hfind : byId p.nodes node.id = some before := hid ▸ byId_of_nodup hp hbefore
  unfold nodeChanges
  rw [List.filter_flatMap, flatMap_of_key hq hnode]
  · rw [hfind]
    by_cases hsame : (changedNodeFields before node).length = 0
    · simp [hsame]
    · simp [hsame, hid, nodeChange]
  · intro other _ hother
    cases hprevious : byId p.nodes other.id with
    | none => rfl
    | some previous =>
        by_cases hsame : (changedNodeFields previous other).length = 0
        · simp [hsame]
        · simp [hsame, hid, hother, nodeChange]

/-- **A patched node has the fields of the next node, and keeps what the next node does not
have.** -/
theorem edited_of_common (hp : (p.nodes.map (·.id)).Nodup) (hq : (q.nodes.map (·.id)).Nodup)
    {before node : PlanNode} (hbefore : before ∈ p.nodes) (hnode : node ∈ q.nodes)
    (hid : before.id = node.id) :
    edited (structuredDiff p q) before = fun name =>
      if (record node name).isSome = true then record node name else record before name := by
  have hchanges : edited (structuredDiff p q) before = fun name =>
      if name ∈ changedNodeFields before node then ownField
        (partialNode node (changedNodeFields before node)) name else record before name := by
    unfold edited
    rw [show (structuredDiff p q).nodesChanged = nodeChanges p q from rfl,
      nodeChanges_of_common hp hq hbefore hnode hid]
    by_cases hsame : (changedNodeFields before node).length = 0
    · rw [if_pos hsame, List.length_eq_zero_iff.mp hsame]
      simp
    · rw [if_neg hsame]
      rfl
  rw [hchanges]
  funext name
  by_cases hname : name ∈ changedNodeFields before node
  · obtain ⟨hsome, -⟩ := mem_changedNodeFields.mp hname
    obtain ⟨v, hv⟩ := Option.isSome_iff_exists.mp hsome
    have hfield : ownField node.fields name = some v := hv
    rw [if_pos hname, if_pos hsome, partialNode_field hname, property_eq, hfield, hv,
      Option.getD_some]
  · rw [if_neg hname]
    by_cases hsome : (record node name).isSome = true
    · rw [if_pos hsome]
      by_contra hne
      exact hname (mem_changedNodeFields.mpr ⟨hsome, hne⟩)
    · rw [if_neg hsome]

theorem mem_nodesBeyond {nodes others : List PlanNode} {node : PlanNode} :
    node ∈ nodesBeyond nodes others ↔ node ∈ nodes ∧ ∀ other ∈ others, other.id ≠ node.id := by
  simp [nodesBeyond, byId]

/-- No node that both plans have loses a property. -/
def KeepsFields (p q : Planfile) : Prop :=
  ∀ before ∈ p.nodes, ∀ node ∈ q.nodes, before.id = node.id →
    ∀ name, (record before name).isSome = true → (record node name).isSome = true

theorem edited_eq_iff (hp : (p.nodes.map (·.id)).Nodup) (hq : (q.nodes.map (·.id)).Nodup)
    {before node : PlanNode} (hbefore : before ∈ p.nodes) (hnode : node ∈ q.nodes)
    (hid : before.id = node.id) :
    edited (structuredDiff p q) before = record node ↔
      ∀ name, (record before name).isSome = true → (record node name).isSome = true := by
  rw [edited_of_common hp hq hbefore hnode hid]
  constructor
  · intro heq name hsome
    by_contra hnone
    have hname := congrFun heq name
    rw [if_neg hnone] at hname
    rw [hname] at hsome
    exact hnone hsome
  · intro hkeeps
    funext name
    by_cases hsome : (record node name).isSome = true
    · rw [if_pos hsome]
    · rw [if_neg hsome]
      have hbeforeNone : ¬ (record before name).isSome = true := fun h => hsome (hkeeps name h)
      rw [Option.not_isSome_iff_eq_none] at hsome hbeforeNone
      rw [hsome, hbeforeNone]

theorem removed_iff {before : PlanNode} (hbefore : before ∈ p.nodes) :
    before.id ∈ (structuredDiff p q).nodesRemoved.map (·.id) ↔ ∀ node ∈ q.nodes, node.id ≠ before.id := by
  have hremoved : (structuredDiff p q).nodesRemoved = nodesBeyond p.nodes q.nodes := rfl
  rw [hremoved, List.mem_map]
  constructor
  · rintro ⟨other, hother, hid⟩
    rw [← hid]
    exact (mem_nodesBeyond.mp hother).2
  · intro h
    exact ⟨before, mem_nodesBeyond.mpr ⟨hbefore, h⟩, rfl⟩

/-- **Applying a diff gives the nodes of the next plan exactly if no node loses a property.** -/
theorem applied_eq_iff (hp : (p.nodes.map (·.id)).Nodup) (hq : (q.nodes.map (·.id)).Nodup) :
    applied (structuredDiff p q) p.nodes = records q.nodes ↔ KeepsFields p q := by
  constructor
  · intro heq before hbefore node hnode hid
    refine (edited_eq_iff hp hq hbefore hnode hid).mp ?_
    have happlied : edited (structuredDiff p q) before ∈ applied (structuredDiff p q) p.nodes := by
      refine Or.inl ⟨before, hbefore, ?_, rfl⟩
      rw [removed_iff hbefore]
      exact fun h => h node hnode hid.symm
    rw [heq] at happlied
    obtain ⟨other, hother, hrecord⟩ := happlied
    -- the record says which node it is of
    have hids : record other "id" = record node "id" := by
      rw [hrecord, edited_of_common hp hq hbefore hnode hid]
      rfl
    rw [record_id, record_id, Option.some.injEq, Value.str.injEq] at hids
    have hsame : other = node := List.inj_on_of_nodup_map hq hother hnode hids
    rw [← hsame]
    exact hrecord.symm
  · intro hkeeps
    ext r
    constructor
    · rintro (⟨before, hbefore, hremoved, rfl⟩ | ⟨node, hadded, rfl⟩)
      · rw [removed_iff hbefore] at hremoved
        push Not at hremoved
        obtain ⟨node, hnode, hid⟩ := hremoved
        exact ⟨node, hnode, ((edited_eq_iff hp hq hbefore hnode hid.symm).mpr
          (hkeeps before hbefore node hnode hid.symm)).symm⟩
      · exact ⟨node, (mem_nodesBeyond.mp hadded).1, rfl⟩
    · rintro ⟨node, hnode, rfl⟩
      by_cases hcommon : ∃ before ∈ p.nodes, before.id = node.id
      · obtain ⟨before, hbefore, hid⟩ := hcommon
        refine Or.inl ⟨before, hbefore, ?_, (edited_eq_iff hp hq hbefore hnode hid).mpr
          (hkeeps before hbefore node hnode hid)⟩
        rw [removed_iff hbefore]
        exact fun h => h node hnode hid.symm
      · push Not at hcommon
        exact Or.inr ⟨node, mem_nodesBeyond.mpr ⟨hnode, hcommon⟩, rfl⟩

/-! ### Differences a diff shows -/

/-- The requirements derived from a plan that a diff compares. -/
def comparedRequirements (plan : Planfile) : List (List String) × PlanPortabilityLevel :=
  ([requiredPacks plan, requiredProviders plan, requiredCredentials plan, requiredPermissions plan,
    approvalRequirements plan],
    portabilityFor plan (requiredProviders plan) (requiredCredentials plan))

/-- The parameter has another text in the next plan. -/
def ParameterChanged (p q : Planfile) (name : String) : Prop :=
  (name ∈ (planParameters p).map (·.1) ∨ name ∈ (planParameters q).map (·.1)) ∧
    sameJson (Value.property (planParameters p) name) (Value.property (planParameters q) name) = false

/-- A difference that makes a diff say that the plan changed. -/
inductive Visible (p q : Planfile) : Prop where
  | added (node : PlanNode) (hnode : node ∈ q.nodes) (hnew : ∀ other ∈ p.nodes, other.id ≠ node.id)
  | removed (node : PlanNode) (hnode : node ∈ p.nodes) (hgone : ∀ other ∈ q.nodes, other.id ≠ node.id)
  | changed (before node : PlanNode) (hbefore : before ∈ p.nodes) (hnode : node ∈ q.nodes)
      (hid : before.id = node.id) (name : String) (hsome : (record node name).isSome = true)
      (hne : record before name ≠ record node name)
  | edge (edge : PlanEdge) (h : ¬ (edge ∈ p.edges ↔ edge ∈ q.edges))
  | requirements (h : comparedRequirements p ≠ comparedRequirements q)
  | schedule (h : sameJson (scheduleValue p) (scheduleValue q) = false)
  | parameter (name : String) (h : ParameterChanged p q name)

theorem edgeKey_injective {e f : PlanEdge} (h : edgeKey e = edgeKey f) : e = f := by
  have heq := jsonStringify_injective (plain_strings _) (plain_strings _) h
  obtain ⟨source, target, reason⟩ := e
  obtain ⟨source', target', reason'⟩ := f
  simpa [strings] using heq

theorem mem_edgesBeyond {edges others : List PlanEdge} {edge : PlanEdge} :
    edge ∈ edgesBeyond edges others ↔ edge ∈ edges ∧ edge ∉ others := by
  unfold edgesBeyond
  rw [List.mem_filter, decide_eq_true_eq, List.mem_map]
  refine and_congr_right fun _ => not_congr ⟨?_, fun h => ⟨edge, h, rfl⟩⟩
  rintro ⟨other, hother, hkey⟩
  rw [← edgeKey_injective hkey]
  exact hother

theorem sameJson_strings {a b : List String} : sameJson (strings a) (strings b) = true ↔ a = b := by
  rw [sameJson_iff (plain_strings a) (plain_strings b)]
  constructor
  · intro h
    exact List.map_injective_iff.mpr (fun _ _ => Value.str.inj) (Value.arr.inj h)
  · rintro rfl
    rfl

theorem portability_text_injective {a b : PlanPortabilityLevel} (h : a.text = b.text) : a = b := by
  cases a <;> cases b <;> first | rfl | (revert h; decide)

theorem requirementChange_nil {kind : RequirementChangeKind} {before after : Value} :
    requirementChange kind before after = [] ↔ sameJson before after = true := by
  unfold requirementChange
  split <;> simp_all

theorem requirementChanges_nil :
    requirementChanges p q = [] ↔ comparedRequirements p = comparedRequirements q := by
  have hlevel : ∀ a b : PlanPortabilityLevel, sameJson (.str a.text) (.str b.text) = true ↔ a = b := by
    intro a b
    rw [sameJson_iff rfl rfl, Value.str.injEq]
    exact ⟨portability_text_injective, fun h => by rw [h]⟩
  simp only [requirementChanges, derivePlanRequirements, List.append_eq_nil_iff,
    requirementChange_nil, sameJson_strings, hlevel, comparedRequirements, Prod.mk.injEq,
    List.cons.injEq, and_true]
  tauto

theorem parameterChanges_nil : parameterChanges p q = [] ↔ ∀ name, ¬ ParameterChanged p q name := by
  unfold parameterChanges ParameterChanged
  rw [List.flatMap_eq_nil_iff]
  refine forall_congr' fun name => ?_
  rw [mem_unique, List.mem_append]
  constructor
  · rintro h ⟨hmem, hne⟩
    have hnil := h hmem
    rw [hne] at hnil
    simp at hnil
  · intro h hmem
    by_cases hsame : sameJson (Value.property (planParameters p) name)
        (Value.property (planParameters q) name) = true
    · rw [if_pos hsame]
    · exact absurd ⟨hmem, by simpa using hsame⟩ h

theorem record_capabilities (node : PlanNode) :
    record node "allowed_capability_refs" = some (strings node.allowedCapabilityRefs) := rfl

theorem record_risk (node : PlanNode) :
    record node "risk_level" = some (.str node.riskLevel.text) := by
  unfold record PlanNode.fields
  cases node.executionMode <;> rfl

theorem record_approval (node : PlanNode) :
    record node "approval_required" = some (.bool node.approvalRequired) := by
  unfold record PlanNode.fields
  cases node.executionMode <;> rfl

theorem riskLevel_text_injective {a b : RiskLevel} (h : a.text = b.text) : a = b := by
  cases a <;> cases b <;> first | rfl | (revert h; decide)

theorem mem_commonNodes {α : Type} {change : PlanNode → PlanNode → Option α} {a : α}
    (h : a ∈ commonNodes p q change) :
    ∃ before ∈ p.nodes, ∃ node ∈ q.nodes, before.id = node.id ∧ change before node = some a := by
  obtain ⟨node, hnode, hchange⟩ := List.mem_filterMap.mp h
  rw [Option.bind_eq_some_iff] at hchange
  obtain ⟨before, hfind, hchange⟩ := hchange
  obtain ⟨hbefore, hid⟩ := byId_mem hfind
  exact ⟨before, hbefore, node, hnode, hid, hchange⟩

theorem mem_nodeChanges (hp : (p.nodes.map (·.id)).Nodup) {change : NodeChange} :
    change ∈ nodeChanges p q ↔ ∃ before ∈ p.nodes, ∃ node ∈ q.nodes, before.id = node.id ∧
      changedNodeFields before node ≠ [] ∧ change = nodeChange before node := by
  unfold nodeChanges
  rw [List.mem_flatMap]
  constructor
  · rintro ⟨node, hnode, hentry⟩
    cases hfind : byId p.nodes node.id with
    | none =>
        rw [hfind] at hentry
        cases hentry
    | some before =>
        obtain ⟨hbefore, hid⟩ := byId_mem hfind
        rw [hfind] at hentry
        by_cases hsame : (changedNodeFields before node).length = 0
        · simp [hsame] at hentry
        · simp only [if_neg hsame, List.mem_singleton] at hentry
          exact ⟨before, hbefore, node, hnode, hid, mt List.length_eq_zero_iff.mpr hsame, hentry⟩
  · rintro ⟨before, hbefore, node, hnode, hid, hne, rfl⟩
    refine ⟨node, hnode, ?_⟩
    rw [← hid, byId_of_nodup hp hbefore]
    simp [hne]

theorem mem_capabilityRefs {plan : Planfile} {ref : String} :
    ref ∈ capabilityRefs plan ↔ ∃ node ∈ plan.nodes, ref ∈ node.allowedCapabilityRefs := by
  unfold capabilityRefs
  rw [mem_distinct, List.mem_flatMap]

/-- A capability that only one of the plans has shows in a node. -/
theorem visible_of_capabilities (h : ∃ ref, ¬ (ref ∈ capabilityRefs p ↔ ref ∈ capabilityRefs q)) :
    Visible p q := by
  obtain ⟨ref, hdiffer⟩ := h
  -- nodes of one id with different capabilities differ in that field
  have hcommon : ∀ before ∈ p.nodes, ∀ node ∈ q.nodes, before.id = node.id →
      before.allowedCapabilityRefs ≠ node.allowedCapabilityRefs → Visible p q := by
    intro before hbefore node hnode hid hne
    refine .changed before node hbefore hnode hid "allowed_capability_refs" rfl ?_
    rw [record_capabilities, record_capabilities]
    intro heq
    exact hne (sameJson_strings.mp (by rw [Option.some.inj heq]; simp [sameJson]))
  rw [mem_capabilityRefs, mem_capabilityRefs] at hdiffer
  by_cases hin : ∃ node ∈ p.nodes, ref ∈ node.allowedCapabilityRefs
  · have hout : ∀ node ∈ q.nodes, ref ∉ node.allowedCapabilityRefs := by
      intro node hnode href
      exact hdiffer ⟨fun _ => ⟨node, hnode, href⟩, fun _ => hin⟩
    obtain ⟨before, hbefore, href⟩ := hin
    by_cases hnext : ∃ node ∈ q.nodes, node.id = before.id
    · obtain ⟨node, hnode, hid⟩ := hnext
      refine hcommon before hbefore node hnode hid.symm fun heq => ?_
      exact hout node hnode (heq ▸ href)
    · push Not at hnext
      exact .removed before hbefore hnext
  · have hnext : ∃ node ∈ q.nodes, ref ∈ node.allowedCapabilityRefs := by
      by_contra hnone
      exact hdiffer ⟨fun h => absurd h hin, fun h => absurd h hnone⟩
    obtain ⟨node, hnode, href⟩ := hnext
    by_cases hprevious : ∃ before ∈ p.nodes, before.id = node.id
    · obtain ⟨before, hbefore, hid⟩ := hprevious
      refine hcommon before hbefore node hnode hid fun heq => ?_
      exact hin ⟨before, hbefore, heq ▸ href⟩
    · push Not at hprevious
      exact .added node hnode hprevious

theorem mem_capabilitiesBeyond {plan other : Planfile} {ref : String} :
    ref ∈ capabilitiesBeyond plan other ↔ ref ∈ capabilityRefs plan ∧ ref ∉ capabilityRefs other := by
  simp [capabilitiesBeyond]

theorem visible_of_riskChange {change : RiskChange} (h : change ∈ riskChanges p q) : Visible p q := by
  rcases List.mem_append.mp h with hadded | hcommon
  · obtain ⟨node, hnode, -⟩ := List.mem_map.mp hadded
    obtain ⟨hmem, hnew⟩ := mem_nodesBeyond.mp hnode
    exact .added node hmem hnew
  · obtain ⟨before, hbefore, node, hnode, hid, hchange⟩ := mem_commonNodes hcommon
    have hne : before.riskLevel ≠ node.riskLevel := by
      intro heq
      simp [heq] at hchange
    refine .changed before node hbefore hnode hid "risk_level" (by rw [record_risk]; rfl) ?_
    rw [record_risk, record_risk]
    intro heq
    exact hne (riskLevel_text_injective (Value.str.inj (Option.some.inj heq)))

theorem visible_of_approvalChange {change : ApprovalChange} (h : change ∈ approvalChanges p q) :
    Visible p q := by
  obtain ⟨before, hbefore, node, hnode, hid, hchange⟩ := mem_commonNodes h
  have hne : before.approvalRequired ≠ node.approvalRequired := by
    intro heq
    simp [heq] at hchange
  refine .changed before node hbefore hnode hid "approval_required" (by rw [record_approval]; rfl) ?_
  rw [record_approval, record_approval]
  intro heq
  exact hne (Value.bool.inj (Option.some.inj heq))

/-- **A diff says that the plan changed exactly if it shows a difference.** -/
theorem hasChanges_iff (hp : (p.nodes.map (·.id)).Nodup) :
    hasStructuredDiffChanges (structuredDiff p q) = true ↔ Visible p q := by
  have hparameters : (((structuredDiff p q).parametersChanged.getD []).length > 0) ↔
      parameterChanges p q ≠ [] := by
    by_cases hlength : (parameterChanges p q).length > 0
    · simp [structuredDiff, hlength, List.ne_nil_of_length_pos hlength]
    · have hnil : parameterChanges p q = [] := by simpa using hlength
      simp [structuredDiff, hnil]
  unfold hasStructuredDiffChanges
  rw [decide_eq_true_eq, hparameters]
  constructor
  · rintro (h | h | h | h | h | h | h | h | h | h | h | h)
    · obtain ⟨node, hnode⟩ := List.exists_mem_of_length_pos h
      obtain ⟨hmem, hnew⟩ := mem_nodesBeyond.mp hnode
      exact .added node hmem hnew
    · obtain ⟨node, hnode⟩ := List.exists_mem_of_length_pos h
      obtain ⟨hmem, hgone⟩ := mem_nodesBeyond.mp hnode
      exact .removed node hmem hgone
    · obtain ⟨change, hchange⟩ := List.exists_mem_of_length_pos h
      obtain ⟨before, hbefore, node, hnode, hid, hne, -⟩ := (mem_nodeChanges hp).mp hchange
      obtain ⟨name, hname⟩ := List.exists_mem_of_ne_nil _ hne
      obtain ⟨hsome, hdiffer⟩ := mem_changedNodeFields.mp hname
      exact .changed before node hbefore hnode hid name hsome hdiffer
    · obtain ⟨edge, hedge⟩ := List.exists_mem_of_length_pos h
      obtain ⟨hin, hout⟩ := mem_edgesBeyond.mp hedge
      exact .edge edge fun hiff => hout (hiff.mpr hin)
    · obtain ⟨edge, hedge⟩ := List.exists_mem_of_length_pos h
      obtain ⟨hin, hout⟩ := mem_edgesBeyond.mp hedge
      exact .edge edge fun hiff => hout (hiff.mp hin)
    · obtain ⟨ref, href⟩ := List.exists_mem_of_length_pos h
      obtain ⟨hin, hout⟩ := mem_capabilitiesBeyond.mp href
      exact visible_of_capabilities ⟨ref, fun hiff => hout (hiff.mpr hin)⟩
    · obtain ⟨ref, href⟩ := List.exists_mem_of_length_pos h
      obtain ⟨hin, hout⟩ := mem_capabilitiesBeyond.mp href
      exact visible_of_capabilities ⟨ref, fun hiff => hout (hiff.mp hin)⟩
    · exact .requirements fun heq => List.ne_nil_of_length_pos h (requirementChanges_nil.mpr heq)
    · obtain ⟨change, hchange⟩ := List.exists_mem_of_length_pos h
      exact visible_of_riskChange hchange
    · obtain ⟨change, hchange⟩ := List.exists_mem_of_length_pos h
      exact visible_of_approvalChange hchange
    · refine .schedule (Bool.eq_false_iff.mpr fun hsame => ?_)
      simp [structuredDiff, hsame] at h
    · by_contra hnone
      exact h (parameterChanges_nil.mpr fun name hname => hnone (.parameter name hname))
  · rintro (⟨node, hnode, hnew⟩ | ⟨node, hnode, hgone⟩ |
      ⟨before, node, hbefore, hnode, hid, name, hsome, hne⟩ | ⟨edge, hedge⟩ | hreqs | hschedule |
      ⟨name, hname⟩)
    · exact Or.inl (List.length_pos_of_mem (mem_nodesBeyond.mpr ⟨hnode, hnew⟩))
    · exact Or.inr (Or.inl (List.length_pos_of_mem (mem_nodesBeyond.mpr ⟨hnode, hgone⟩)))
    · have hfield := mem_changedNodeFields.mpr ⟨hsome, hne⟩
      have hchange := (mem_nodeChanges hp).mpr
        ⟨before, hbefore, node, hnode, hid, List.ne_nil_of_mem hfield, rfl⟩
      exact Or.inr (Or.inr (Or.inl (List.length_pos_of_mem hchange)))
    · by_cases hin : edge ∈ q.edges
      · have hout : edge ∉ p.edges := fun hp' => hedge ⟨fun _ => hin, fun _ => hp'⟩
        have hadded : edge ∈ (structuredDiff p q).edgesAdded := mem_edgesBeyond.mpr ⟨hin, hout⟩
        exact Or.inr (Or.inr (Or.inr (Or.inl (List.length_pos_of_mem hadded))))
      · have hprevious : edge ∈ p.edges := by
          by_contra hout
          exact hedge ⟨fun h => absurd h hout, fun h => absurd h hin⟩
        have hremoved : edge ∈ (structuredDiff p q).edgesRemoved :=
          mem_edgesBeyond.mpr ⟨hprevious, hin⟩
        exact Or.inr (Or.inr (Or.inr (Or.inr (Or.inl (List.length_pos_of_mem hremoved)))))
    · have hne : (structuredDiff p q).requirementsChanged ≠ [] :=
        fun hnil => hreqs (requirementChanges_nil.mp hnil)
      iterate 7 apply Or.inr
      exact Or.inl (List.length_pos_of_ne_nil hne)
    · have hsome : (structuredDiff p q).scheduleChanged.isSome = true := by
        simp [structuredDiff, hschedule]
      iterate 10 apply Or.inr
      exact Or.inl hsome
    · have hne : parameterChanges p q ≠ [] := fun hnil => parameterChanges_nil.mp hnil name hname
      iterate 11 apply Or.inr
      exact hne

/-! ### What the schema of a diff refuses -/

theorem refined_of_valid {P : Platform} {snapshot : Option CapabilitySnapshot} {plan : Planfile}
    (h : (validatePlanfile P snapshot plan).ok = true) : plan.refined P.isDatetime = true := by
  unfold validatePlanfile at h
  by_contra hrefined
  rw [if_neg hrefined] at h
  cases h

theorem refined_node {isDatetime : String → Bool} {plan : Planfile}
    (h : plan.refined isDatetime = true) : ∀ node ∈ plan.nodes, node.refined isDatetime = true := by
  simp only [Planfile.refined, Bool.and_eq_true] at h
  exact List.all_eq_true.mp h.1.1.1.1.1.1.1.1.1.2

theorem refined_edge {isDatetime : String → Bool} {plan : Planfile}
    (h : plan.refined isDatetime = true) :
    ∀ edge ∈ plan.edges, (nonempty edge.source && nonempty edge.target) = true := by
  simp only [Planfile.refined, Bool.and_eq_true] at h
  exact fun edge hedge => List.all_eq_true.mp h.1.1.1.1.1.1.1.1.2 edge hedge

theorem refined_id {isDatetime : String → Bool} {node : PlanNode}
    (h : node.refined isDatetime = true) : nonempty node.id = true := by
  simp only [PlanNode.refined, Bool.and_eq_true] at h
  exact h.1.1.1.1.1.1.1.1

theorem refined_refs {isDatetime : String → Bool} {node : PlanNode}
    (h : node.refined isDatetime = true) : ∀ ref ∈ node.allowedCapabilityRefs, nonempty ref = true := by
  simp only [PlanNode.refined, Bool.and_eq_true] at h
  exact fun ref href => List.all_eq_true.mp h.1.1.1.1.2 ref href

theorem nonempty_risk (risk : RiskLevel) : nonempty risk.text = true := by
  cases risk <;> decide

theorem nonempty_fieldName {name : String} (h : name ∈ fieldNames) : nonempty name = true := by
  have hall : ∀ name ∈ fieldNames, nonempty name = true := by decide
  exact hall name h

/-- **The schema refuses a diff only for a changed parameter without a name.** -/
theorem refined_diff_iff {isDatetime : String → Bool} (hrefp : p.refined isDatetime = true)
    (hrefq : q.refined isDatetime = true) (hp : (p.nodes.map (·.id)).Nodup) :
    (structuredDiff p q).refined isDatetime = true ↔ ¬ ParameterChanged p q "" := by
  have hadded : (nodesBeyond q.nodes p.nodes).all (·.refined isDatetime) = true :=
    List.all_eq_true.mpr fun node hnode => refined_node hrefq node (mem_nodesBeyond.mp hnode).1
  have hremoved : (nodesBeyond p.nodes q.nodes).all (·.refined isDatetime) = true :=
    List.all_eq_true.mpr fun node hnode => refined_node hrefp node (mem_nodesBeyond.mp hnode).1
  have hchanged : (nodeChanges p q).all (fun c => nonempty c.nodeId && c.changedFields.all nonempty) =
      true := by
    rw [List.all_eq_true]
    intro change hchange
    obtain ⟨before, -, node, hnode, -, -, rfl⟩ := (mem_nodeChanges hp).mp hchange
    rw [Bool.and_eq_true, List.all_eq_true]
    refine ⟨refined_id (refined_node hrefq node hnode), fun name hname => ?_⟩
    exact nonempty_fieldName
      (mem_fieldNames (ownField_isSome.mp (mem_changedNodeFields.mp hname).1))
  have hedges : (edgesBeyond q.edges p.edges ++ edgesBeyond p.edges q.edges).all
      (fun e => nonempty e.source && nonempty e.target) = true := by
    rw [List.all_eq_true]
    intro edge hedge
    rcases List.mem_append.mp hedge with h | h
    · exact refined_edge hrefq edge (mem_edgesBeyond.mp h).1
    · exact refined_edge hrefp edge (mem_edgesBeyond.mp h).1
  have hrefs : ∀ plan : Planfile, plan.refined isDatetime = true → ∀ ref ∈ capabilityRefs plan,
      nonempty ref = true := by
    intro plan hplan ref href
    obtain ⟨node, hnode, href⟩ := mem_capabilityRefs.mp href
    exact refined_refs (refined_node hplan node hnode) ref href
  have hcapabilities : (capabilitiesBeyond q p ++ capabilitiesBeyond p q).all nonempty = true := by
    rw [List.all_eq_true]
    intro ref href
    rcases List.mem_append.mp href with h | h
    · exact hrefs q hrefq ref (mem_capabilitiesBeyond.mp h).1
    · exact hrefs p hrefp ref (mem_capabilitiesBeyond.mp h).1
  have hrisks : (riskChanges p q).all (fun c =>
      nonempty c.target && nonempty c.before && nonempty c.after) = true := by
    rw [List.all_eq_true]
    intro change hchange
    rcases List.mem_append.mp hchange with h | h
    · obtain ⟨node, hnode, rfl⟩ := List.mem_map.mp h
      have hid := refined_id (refined_node hrefq node (mem_nodesBeyond.mp hnode).1)
      have hnone : nonempty "none" = true := by decide
      simp [riskChange, hid, nonempty_risk, hnone]
    · obtain ⟨before, -, node, hnode, -, hentry⟩ := mem_commonNodes h
      have hid := refined_id (refined_node hrefq node hnode)
      split at hentry
      · obtain rfl := Option.some.inj hentry
        simp [riskChange, hid, nonempty_risk]
      · cases hentry
  have happrovals : (approvalChanges p q).all (fun c => nonempty c.target) = true := by
    rw [List.all_eq_true]
    intro change hchange
    obtain ⟨before, -, node, hnode, -, hentry⟩ := mem_commonNodes hchange
    split at hentry
    · obtain rfl := Option.some.inj hentry
      exact refined_id (refined_node hrefq node hnode)
    · cases hentry
  have hparameters : (structuredDiff p q).parametersChanged.getD [] = parameterChanges p q := by
    by_cases hlength : (parameterChanges p q).length > 0
    · simp [structuredDiff, hlength]
    · have hnil : parameterChanges p q = [] := by simpa using hlength
      simp [structuredDiff, hnil]
  unfold PlanfileStructuredDiff.refined
  rw [hparameters]
  simp only [structuredDiff, hadded, hremoved, hchanged, hedges, hcapabilities, hrisks, happrovals,
    Bool.true_and, List.all_eq_true]
  constructor
  · rintro h ⟨hmem, hne⟩
    have hchange : (⟨"", Value.property (planParameters p) "", Value.property (planParameters q) ""⟩ :
        ParameterChange) ∈ parameterChanges p q := by
      refine List.mem_flatMap.mpr ⟨"", ?_, ?_⟩
      · rw [mem_unique, List.mem_append]
        exact hmem
      · rw [hne]
        exact List.mem_singleton.mpr rfl
    have hempty : nonempty "" = true := h _ hchange
    exact absurd hempty (by decide)
  · intro h change hchange
    obtain ⟨name, hname, hentry⟩ := List.mem_flatMap.mp hchange
    by_cases hsame : sameJson (Value.property (planParameters p) name)
        (Value.property (planParameters q) name) = true
    · rw [if_pos hsame] at hentry
      cases hentry
    · rw [if_neg hsame, List.mem_singleton] at hentry
      subst hentry
      rw [mem_unique, List.mem_append] at hname
      simp only [nonempty, ne_eq, decide_eq_true_eq]
      rintro rfl
      exact h ⟨hname, by simpa using hsame⟩

end Nodes

/-! ### Completeness -/

theorem diffPlanfiles_eq {isDatetime : String → Bool} {p q : Planfile} {diff : PlanfileStructuredDiff}
    (h : diffPlanfiles isDatetime p q = some diff) : diff = structuredDiff p q := by
  unfold diffPlanfiles at h
  split at h
  · exact (Option.some.inj h).symm
  · cases h

/-- The diff of the plans shows that they differ, and determines the nodes of the next plan. -/
def Complete (P : Platform) (p q : Planfile) : Prop :=
  ∃ diff, diffPlanfiles P.isDatetime p q = some diff ∧
    (canonicalPlanDigest P.sha256 p ≠ canonicalPlanDigest P.sha256 q →
      hasStructuredDiffChanges diff = true) ∧
    applied diff p.nodes = records q.nodes

/-- **A diff is complete exactly if what changed the digest is visible in it, no node loses a
property, and no parameter without a name changed.** -/
theorem diffPlanfiles_complete {P : Platform} {snapshot snapshot' : Option CapabilitySnapshot}
    {p q : Planfile} (hp : (validatePlanfile P snapshot p).ok = true)
    (hq : (validatePlanfile P snapshot' q).ok = true) :
    Complete P p q ↔
      (canonicalPlanDigest P.sha256 p ≠ canonicalPlanDigest P.sha256 q → Visible p q) ∧
      KeepsFields p q ∧ ¬ ParameterChanged p q "" := by
  have hnp := (sound_of_valid hp).nodup
  have hnq := (sound_of_valid hq).nodup
  have hschema := refined_diff_iff (refined_of_valid hp) (refined_of_valid hq) hnp
  constructor
  · rintro ⟨diff, hdiff, hchanges, happlied⟩
    have hrefined : (structuredDiff p q).refined P.isDatetime = true := by
      by_contra hno
      unfold diffPlanfiles at hdiff
      rw [if_neg hno] at hdiff
      cases hdiff
    rw [diffPlanfiles_eq hdiff] at hchanges happlied
    exact ⟨fun hne => (hasChanges_iff hnp).mp (hchanges hne), (applied_eq_iff hnp hnq).mp happlied,
      hschema.mp hrefined⟩
  · rintro ⟨hvisible, hkeeps, hnamed⟩
    refine ⟨structuredDiff p q, if_pos (hschema.mpr hnamed), ?_, (applied_eq_iff hnp hnq).mpr hkeeps⟩
    exact fun hne => (hasChanges_iff hnp).mpr (hvisible hne)

/-! ### An edit that the diff does not show -/

/-- A plan whose one node runs live, and the same plan with the property taken out. -/
def modePlan (mode : Option ExecutionMode) : Planfile :=
  samplePlan [{ sampleNode "first" .frame [] with executionMode := mode }]

theorem modePlan_valid (mode : Option ExecutionMode) (h : mode = some .live ∨ mode = none) :
    (validatePlanfile samplePlatform none (modePlan mode)).ok = true := by
  rcases h with rfl | rfl <;> decide

/-- Adding a property is shown by the diff. -/
theorem modePlan_complete :
    Complete samplePlatform (modePlan none) (modePlan (some .live)) ↔
      (canonicalPlanDigest samplePlatform.sha256 (modePlan none) ≠
        canonicalPlanDigest samplePlatform.sha256 (modePlan (some .live)) →
          Visible (modePlan none) (modePlan (some .live))) ∧
      KeepsFields (modePlan none) (modePlan (some .live)) ∧
      ¬ ParameterChanged (modePlan none) (modePlan (some .live)) "" :=
  diffPlanfiles_complete (modePlan_valid none (Or.inr rfl)) (modePlan_valid (some .live) (Or.inl rfl))

/-- Taking a property out is not. -/
theorem modePlan_not_complete :
    ¬ ∀ (P : Platform) (snapshot : Option CapabilitySnapshot) (p q : Planfile),
      (validatePlanfile P snapshot p).ok = true → (validatePlanfile P snapshot q).ok = true →
      Complete P p q := by
  intro hall
  have hp := modePlan_valid (some .live) (Or.inl rfl)
  have hq := modePlan_valid none (Or.inr rfl)
  obtain ⟨diff, hdiff, -, happlied⟩ := hall samplePlatform none _ _ hp hq
  rw [diffPlanfiles_eq hdiff] at happlied
  have hkeeps := (applied_eq_iff (sound_of_valid hp).nodup (sound_of_valid hq).nodup).mp happlied
  have hsome := hkeeps _ List.mem_cons_self _ List.mem_cons_self rfl "execution_mode" rfl
  revert hsome
  decide

end PlanfileDiff

end OpenLagrange
