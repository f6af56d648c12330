/-
What the canonical object of a plan determines, and what it leaves open.

Two plans that differ only in what a run changes have the same canonical object.  The other
way round, plans with the same canonical object agree on everything that the object lists,
the execution context up to the order of its properties.  The `requirements` section is on
neither list: it is no run state, and the canonical object does not hold it.
-/
import OpenLagrange.Planning.Planfile
import OpenLagrange.Util.CanonicalText

namespace OpenLagrange

/-! ### Run state -/

/-- The node without what a run writes to it. -/
def PlanNode.withoutRunState (n : PlanNode) : PlanNode :=
  { n with status := .pending, artifacts := [], errors := [] }

/-- The plan without what running, judging and saving it write to it. -/
def Planfile.withoutRunState (p : Planfile) : Planfile :=
  { p with
    status := .draft
    nodes := p.nodes.map (·.withoutRunState)
    lifecycle := p.lifecycle.map fun l => { l with validationStatus := none, simulationStatus := none }
    createdAt := ""
    updatedAt := ""
    canonicalPlanDigest := none }

theorem canonicalPlanObject_withoutRunState (p : Planfile) :
    canonicalPlanObject p.withoutRunState = canonicalPlanObject p := by
  have hnodes : (p.nodes.map (·.withoutRunState)).map (·.canonical) = p.nodes.map (·.canonical) := by
    rw [List.map_map]
    rfl
  have hlifecycle : ∀ f : PlanfileLifecycle → Value,
      (∀ l, f { l with validationStatus := none, simulationStatus := none } = f l) →
      (p.lifecycle.map fun l => { l with validationStatus := none, simulationStatus := none }).map f =
        p.lifecycle.map f := by
    intro f hf
    rw [Option.map_map]
    exact congrArg (p.lifecycle.map ·) (funext hf)
  unfold canonicalPlanObject
  simp only [Planfile.withoutRunState]
  rw [hnodes, hlifecycle _ fun _ => rfl]

/-- **What a run changes is not part of the digest.** -/
theorem canonicalPlanDigest_runState {sha256 : String → String} {p q : Planfile}
    (h : p.withoutRunState = q.withoutRunState) :
    canonicalPlanDigest sha256 p = canonicalPlanDigest sha256 q := by
  unfold canonicalPlanDigest
  rw [← canonicalPlanObject_withoutRunState p, h, canonicalPlanObject_withoutRunState q]

/-! ### Plain canonical objects -/

/-- The execution context is JSON data: it holds nothing undefined, and no number without a text. -/
def Planfile.jsonContext (p : Planfile) : Bool := p.executionContext.all plainFields

theorem plain_stripUndefined {fields : List (String × Option Value)}
    (h : ∀ f ∈ fields, ∀ v, f.2 = some v → v.plain = true) : (stripUndefined fields).plain = true := by
  unfold stripUndefined
  rw [Value.plain, plainFields_iff]
  intro g hg
  obtain ⟨f, hf, heq⟩ := List.mem_filterMap.mp hg
  obtain ⟨v, hv, rfl⟩ := Option.map_eq_some_iff.mp heq
  exact h f hf v hv

theorem plain_option {α : Type} {o : Option α} {f : α → Value} (hf : ∀ a, (f a).plain = true) {v : Value}
    (h : o.map f = some v) : v.plain = true := by
  obtain ⟨a, -, rfl⟩ := Option.map_eq_some_iff.mp h
  exact hf a

theorem plain_arr_map {α : Type} {items : List α} {f : α → Value} (hf : ∀ a, (f a).plain = true) :
    (Value.arr (items.map f)).plain = true := by
  rw [Value.plain, plainItems_iff]
  intro v hv
  obtain ⟨a, -, rfl⟩ := List.mem_map.mp hv
  exact hf a

theorem plain_artifact (a : PlanArtifactRef) : a.toValue.plain = true := rfl

theorem plain_edge (e : PlanEdge) : e.toValue.plain = true := rfl

theorem plain_goalFrame (g : GoalFrame) : g.toValue.plain = true := by
  unfold GoalFrame.toValue
  simp only [Value.plain, plainFields, plain_strings, Bool.and_self]

theorem plain_node (n : PlanNode) : n.canonical.plain = true := by
  refine plain_stripUndefined fun f hf v hv => ?_
  simp only [List.mem_cons, List.not_mem_nil, or_false] at hf
  rcases hf with rfl | rfl | rfl | rfl | rfl | rfl | rfl | rfl | rfl | rfl | rfl | rfl | rfl | rfl
  case inr.inr.inr.inr.inr.inr.inr.inl => exact plain_option (fun _ => rfl) hv
  case inr.inr.inr.inr.inr.inr.inr.inr.inr.inr.inr.inr.inl => exact plain_option (fun _ => rfl) hv
  case inr.inr.inr.inr.inr.inr.inr.inr.inr.inr.inr.inr.inr => exact plain_option plain_strings hv
  all_goals
    simp only [Option.some.injEq] at hv
    subst hv
    first
      | rfl
      | exact plain_strings _

theorem plain_nat (n : Nat) : (Value.num (toString n)).plain = true := by
  have hchars : (toString n).toList = Nat.toDigits 10 n := Nat.toList_repr
  have hdigits : (toString n).toList.all numberChar = true := by
    rw [hchars, List.all_eq_true]
    intro c hc
    have hdigit := Nat.isDigit_of_mem_toDigits (by decide) (by decide) hc
    simp [numberChar, hdigit]
  have hne : toString n ≠ "" := by
    intro hempty
    rw [hempty] at hchars
    exact Nat.toDigits_ne_nil hchars.symm
  unfold Value.plain numberText
  rw [hdigits, Bool.true_and, decide_eq_true_eq]
  exact hne

theorem plain_canonicalPlanObject {p : Planfile} (h : p.jsonContext = true) :
    (canonicalPlanObject p).plain = true := by
  have hcontext : ∀ v, p.executionContext.map Value.obj = some v → v.plain = true := by
    intro v hv
    obtain ⟨fields, hfields, rfl⟩ := Option.map_eq_some_iff.mp hv
    unfold Planfile.jsonContext at h
    rw [hfields] at h
    exact h
  have hpolicy : p.approvalPolicy.toValue.plain = true := by
    refine plain_stripUndefined fun f hf v hv => ?_
    simp only [List.mem_cons, List.not_mem_nil, or_false] at hf
    rcases hf with rfl | rfl | rfl
    · simp only [Option.some.injEq] at hv
      subst hv
      exact plain_strings _
    · exact plain_option (fun _ => rfl) hv
    · exact plain_option (fun _ => rfl) hv
  refine plain_stripUndefined fun f hf v hv => ?_
  simp only [List.mem_cons, List.not_mem_nil, or_false] at hf
  rcases hf with rfl | rfl | rfl | rfl | rfl | rfl | rfl | rfl | rfl | rfl | rfl
  case inr.inr.inr.inr.inr.inr.inr.inr.inl => exact hcontext v hv
  case inr.inr.inr.inr.inr.inr.inr.inr.inr.inl =>
    refine plain_option (fun l => plain_stripUndefined fun f hf v hv => ?_) hv
    simp only [List.mem_cons, List.not_mem_nil, or_false] at hf
    rcases hf with rfl | rfl | rfl
    · exact plain_option (fun _ => rfl) hv
    · exact plain_option plain_nat hv
    · exact plain_option plain_strings hv
  all_goals
    simp only [Option.some.injEq] at hv
    subst hv
    first
      | rfl
      | exact plain_goalFrame _
      | exact plain_arr_map plain_node
      | exact plain_arr_map plain_edge
      | exact plain_arr_map plain_artifact
      | exact hpolicy
      | simp only [Value.plain, plainFields, plain_strings, Bool.and_self]

/-! ### Reading a canonical object -/

section Reading

variable {α β : Type} {x y : α} {a b : Option α}

theorem ownField_same {fields fields' : List (String × Value)}
    (h : SameValue (.obj fields) (.obj fields')) (name : String) :
    (ownField fields name).map Value.sorted = (ownField fields' name).map Value.sorted := by
  unfold ownField
  rw [Option.map_map, Option.map_map]
  exact find?_same h name

/-- The property of a name, where it is not undefined. -/
def givenField (fields : List (String × Option Value)) (name : String) : Option Value :=
  (fields.find? fun f => f.1 = name).bind (·.2)

theorem ownField_stripUndefined {fields : List (String × Option Value)}
    (hnodup : (fields.map (·.1)).Nodup) (name : String) :
    ownField (fields.filterMap fun f => f.2.map fun v => (f.1, v)) name = givenField fields name := by
  unfold ownField givenField
  induction fields with
  | nil => rfl
  | cons field rest ih =>
      obtain ⟨key, value⟩ := field
      rw [List.map_cons, List.nodup_cons] at hnodup
      have hrest := ih hnodup.2
      cases value with
      | some v =>
          by_cases hkey : key = name
          · simp [hkey]
          · simpa [hkey] using hrest
      | none =>
          by_cases hkey : key = name
          · have habsent : (rest.find? fun f => decide (f.1 = name)) = none := by
              rw [List.find?_eq_none]
              intro f hf
              rw [decide_eq_true_eq]
              rintro rfl
              exact hnodup.1 (List.mem_map.mpr ⟨f, hf, hkey.symm⟩)
            rw [habsent] at hrest
            simpa [hkey] using hrest
          · simpa [hkey] using hrest

/-- **Stripped objects that are the same have the same properties.** -/
theorem givenField_same {fields fields' : List (String × Option Value)}
    (h : SameValue (stripUndefined fields) (stripUndefined fields'))
    (hnodup : (fields.map (·.1)).Nodup) (hnodup' : (fields'.map (·.1)).Nodup) (name : String) :
    (givenField fields name).map Value.sorted = (givenField fields' name).map Value.sorted := by
  have hfield := ownField_same h name
  rwa [ownField_stripUndefined hnodup, ownField_stripUndefined hnodup'] at hfield

/-- A way to write values from which they can be read back, whatever the order of properties. -/
def Readable (write : α → Value) : Prop := ∀ x y, SameValue (write x) (write y) → x = y

theorem Readable.option {write : α → Value} (hwrite : Readable write)
    (h : (a.map write).map Value.sorted = (b.map write).map Value.sorted) : a = b := by
  rw [Option.map_map, Option.map_map] at h
  exact Option.map_injective hwrite h

theorem Readable.some {write : α → Value} (hwrite : Readable write)
    (h : (some (write x)).map Value.sorted = (some (write y)).map Value.sorted) : x = y :=
  hwrite x y (Option.some.inj h)

theorem readable_str : Readable Value.str := fun _ _ h => Value.str.inj h

theorem readable_bool : Readable Value.bool := fun _ _ h => Value.bool.inj h

theorem readable_text {text : α → String} (htext : Function.Injective text) :
    Readable fun a => Value.str (text a) := fun _ _ h => htext (Value.str.inj h)

theorem readable_arr {write : α → Value} (hwrite : Readable write) :
    Readable fun items : List α => Value.arr (items.map write) := by
  intro xs ys h
  unfold SameValue at h
  rw [sorted_arr, sorted_arr, Value.arr.injEq, List.map_map, List.map_map] at h
  exact List.map_injective_iff.mpr hwrite h

theorem readable_strings : Readable strings := readable_arr readable_str

end Reading

theorem risk_text : Function.Injective RiskLevel.text := by
  intro a b
  cases a <;> cases b <;> simp [RiskLevel.text]

theorem executionMode_text : Function.Injective ExecutionMode.text := by
  intro a b
  cases a <;> cases b <;> simp [ExecutionMode.text]

theorem planMode_text : Function.Injective PlanMode.text := by
  intro a b
  cases a <;> cases b <;> simp [PlanMode.text]

theorem nodeKind_text : Function.Injective PlanNodeKind.text := by
  intro a b
  cases a <;> cases b <;> simp [PlanNodeKind.text]

theorem artifactKind_text : Function.Injective PlanArtifactKind.text := by
  intro a b
  cases a <;> cases b <;> simp [PlanArtifactKind.text]

theorem ambiguity_text : Function.Injective AmbiguityLevel.text := by
  intro a b
  cases a <;> cases b <;> simp [AmbiguityLevel.text]

theorem suggestedMode_text : Function.Injective SuggestedMode.text := by
  intro a b
  cases a <;> cases b <;> simp [SuggestedMode.text]

/-! ### The parts of a plan -/

theorem readable_artifact : Readable PlanArtifactRef.toValue := by
  intro x y h
  have hfield := ownField_same h
  have hid : x.artifactId = y.artifactId := readable_str.some (hfield "artifact_id")
  have hkind : x.kind = y.kind := (readable_text artifactKind_text).some (hfield "kind")
  have hpath : x.pathOrUri = y.pathOrUri := readable_str.some (hfield "path_or_uri")
  have hsummary : x.summary = y.summary := readable_str.some (hfield "summary")
  have hcreated : x.createdAt = y.createdAt := readable_str.some (hfield "created_at")
  obtain ⟨⟩ := x
  obtain ⟨⟩ := y
  simp_all

theorem readable_edge : Readable PlanEdge.toValue := by
  intro x y h
  have hfield := ownField_same h
  have hsource : x.source = y.source := readable_str.some (hfield "from")
  have htarget : x.target = y.target := readable_str.some (hfield "to")
  have hreason : x.reason = y.reason := readable_str.some (hfield "reason")
  obtain ⟨⟩ := x
  obtain ⟨⟩ := y
  simp_all

theorem readable_goalFrame : Readable GoalFrame.toValue := by
  intro x y h
  have hfield := ownField_same h
  have hambiguity := ownField_same (Option.some.inj (hfield "ambiguity"))
  have hid : x.goalId = y.goalId := readable_str.some (hfield "goal_id")
  have hprompt : x.originalPrompt = y.originalPrompt := readable_str.some (hfield "original_prompt")
  have hgoal : x.interpretedGoal = y.interpretedGoal := readable_str.some (hfield "interpreted_goal")
  have hcriteria : x.acceptanceCriteria = y.acceptanceCriteria :=
    readable_strings.some (hfield "acceptance_criteria")
  have hnonGoals : x.nonGoals = y.nonGoals := readable_strings.some (hfield "non_goals")
  have hassumptions : x.assumptions = y.assumptions := readable_strings.some (hfield "assumptions")
  have hlevel : x.ambiguityLevel = y.ambiguityLevel :=
    (readable_text ambiguity_text).some (hambiguity "level")
  have hquestions : x.ambiguityQuestions = y.ambiguityQuestions :=
    readable_strings.some (hambiguity "questions")
  have hblocking : x.ambiguityBlocking = y.ambiguityBlocking :=
    readable_bool.some (hambiguity "blocking")
  have hmode : x.suggestedMode = y.suggestedMode :=
    (readable_text suggestedMode_text).some (hfield "suggested_mode")
  have hrisks : x.riskNotes = y.riskNotes := readable_strings.some (hfield "risk_notes")
  have hcreated : x.createdAt = y.createdAt := readable_str.some (hfield "created_at")
  obtain ⟨⟩ := x
  obtain ⟨⟩ := y
  simp_all

theorem readable_approvalPolicy : Readable ApprovalPolicy.toValue := by
  intro x y h
  have hfield := givenField_same h (by simp) (by simp)
  have hrisks : x.requireApprovalForRisks.map (·.text) = y.requireApprovalForRisks.map (·.text) :=
    readable_strings.some (hfield "require_approval_for_risks")
  have hdigest : x.approvedPlanDigest = y.approvedPlanDigest :=
    readable_str.option (hfield "approved_plan_digest")
  have hgoal : x.explicitDestructiveGoal = y.explicitDestructiveGoal :=
    readable_bool.option (hfield "explicit_destructive_goal")
  have hlevels := List.map_injective_iff.mpr risk_text hrisks
  obtain ⟨⟩ := x
  obtain ⟨⟩ := y
  simp_all

/-- The nodes differ at most in what a run writes to them. -/
def SameTask (a b : PlanNode) : Prop := a.withoutRunState = b.withoutRunState

theorem canonical_node {a b : PlanNode} (h : SameValue a.canonical b.canonical) : SameTask a b := by
  have hfield := givenField_same h (by simp) (by simp)
  have hid : a.id = b.id := readable_str.some (hfield "id")
  have hkind : a.kind = b.kind := (readable_text nodeKind_text).some (hfield "kind")
  have htitle : a.title = b.title := readable_str.some (hfield "title")
  have hobjective : a.objective = b.objective := readable_str.some (hfield "objective")
  have hdescription : a.description = b.description := readable_str.some (hfield "description")
  have hdepends : a.dependsOn = b.dependsOn := readable_strings.some (hfield "depends_on")
  have hrefs : a.allowedCapabilityRefs = b.allowedCapabilityRefs :=
    readable_strings.some (hfield "allowed_capability_refs")
  have hmode : a.executionMode = b.executionMode :=
    (readable_text executionMode_text).option (hfield "execution_mode")
  have houtputs : a.expectedOutputs = b.expectedOutputs :=
    readable_strings.some (hfield "expected_outputs")
  have hacceptance : a.acceptanceRefs = b.acceptanceRefs :=
    readable_strings.some (hfield "acceptance_refs")
  have hrisk : a.riskLevel = b.riskLevel := (readable_text risk_text).some (hfield "risk_level")
  have hrequired : a.approvalRequired = b.approvalRequired :=
    readable_bool.some (hfield "approval_required")
  have hoptional : a.optional = b.optional := readable_bool.option (hfield "optional")
  have hcommands : a.verificationCommandIds = b.verificationCommandIds :=
    readable_strings.option (hfield "verification_command_ids")
  unfold SameTask PlanNode.withoutRunState
  obtain ⟨⟩ := a
  obtain ⟨⟩ := b
  simp_all

/-- What plans with the same canonical object agree on. -/
structure SameContent (p q : Planfile) : Prop where
  planId : p.planId = q.planId
  goalFrame : p.goalFrame = q.goalFrame
  mode : p.mode = q.mode
  nodes : List.Forall₂ SameTask p.nodes q.nodes
  edges : p.edges = q.edges
  approvalPolicy : p.approvalPolicy = q.approvalPolicy
  verificationPolicy : p.verificationPolicy = q.verificationPolicy
  context : (p.executionContext.map Value.obj).map Value.sorted =
    (q.executionContext.map Value.obj).map Value.sorted
  artifactRefs : p.artifactRefs = q.artifactRefs

/-- **Plans with the same canonical object have the same content.** -/
theorem sameContent_of_canonical {p q : Planfile}
    (h : SameValue (canonicalPlanObject p) (canonicalPlanObject q)) : SameContent p q := by
  have hfield := givenField_same h (by simp) (by simp)
  refine ⟨?_, ?_, ?_, ?_, ?_, ?_, ?_, ?_, ?_⟩
  · exact readable_str.some (hfield "plan_id")
  · exact readable_goalFrame.some (hfield "goal_frame")
  · exact (readable_text planMode_text).some (hfield "mode")
  · have hnodes := (show SameValue (.arr (p.nodes.map (·.canonical))) (.arr (q.nodes.map (·.canonical)))
      from Option.some.inj (hfield "nodes")).items
    rw [List.forall₂_map_left_iff, List.forall₂_map_right_iff] at hnodes
    exact hnodes.imp fun _ _ hab => canonical_node hab
  · exact (readable_arr readable_edge).some (hfield "edges")
  · exact readable_approvalPolicy.some (hfield "approval_policy")
  · have hpolicy := ownField_same (Option.some.inj (hfield "verification_policy"))
    have hcommands : p.verificationPolicy.allowedCommandIds = q.verificationPolicy.allowedCommandIds :=
      readable_strings.some (hpolicy "allowed_command_ids")
    exact congrArg VerificationPolicy.mk hcommands
  · exact hfield "execution_context"
  · exact (readable_arr readable_artifact).some (hfield "artifact_refs")

/-- A plan with a lifecycle section is not written like one without. -/
theorem lifecycle_of_canonical {p q : Planfile}
    (h : SameValue (canonicalPlanObject p) (canonicalPlanObject q)) :
    p.lifecycle.isSome = q.lifecycle.isSome := by
  have hfield := givenField_same h (by simp) (by simp) "lifecycle"
  have hsome := congrArg Option.isSome hfield
  rw [Option.isSome_map, Option.isSome_map] at hsome
  exact Option.isSome_map.symm.trans (hsome.trans Option.isSome_map)

/-- **Plans with one canonical text have the same canonical object.** -/
theorem sameValue_of_text {p q : Planfile} (hp : p.jsonContext = true) (hq : q.jsonContext = true)
    (h : (stableStringify (canonicalPlanObject p)).getD "" =
      (stableStringify (canonicalPlanObject q)).getD "") :
    SameValue (canonicalPlanObject p) (canonicalPlanObject q) := by
  have hplain := plain_canonicalPlanObject hp
  have hplain' := plain_canonicalPlanObject hq
  rw [stableStringify_plain _ hplain, stableStringify_plain _ hplain', Option.getD_some,
    Option.getD_some] at h
  refine (stableStringify_eq_iff hplain hplain').mp ?_
  rw [stableStringify_plain _ hplain, stableStringify_plain _ hplain', h]

end OpenLagrange
