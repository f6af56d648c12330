/-
What the validator reads.

The verdict on a plan depends on part of it: of a node, on its id, its dependencies, its
capabilities and what the policies look at.  `SamePlan` says that two plans agree on that
part, and then they have the same issues, one by one and in the same order.

Rewriting a plan for live execution and filling in its lifecycle both keep that part.
-/
import OpenLagrange.Proofs.Validator
import OpenLagrange.Planning.ControlPlane

namespace OpenLagrange

/-! ### Lists that correspond -/

section Correspond

variable {α β γ : Type} {R : α → β → Prop} {xs : List α} {ys : List β}

theorem map_of_forall₂ {f : α → γ} {g : β → γ} (h : List.Forall₂ R xs ys)
    (hfg : ∀ a b, R a b → f a = g b) : xs.map f = ys.map g := by
  induction h with
  | nil => rfl
  | cons hab _ ih => rw [List.map_cons, List.map_cons, hfg _ _ hab, ih]

theorem flatMap_of_forall₂ {f : α → List γ} {g : β → List γ} (h : List.Forall₂ R xs ys)
    (hfg : ∀ a b, R a b → f a = g b) : xs.flatMap f = ys.flatMap g := by
  rw [List.flatMap_def, List.flatMap_def, map_of_forall₂ h hfg]

theorem filter_of_forall₂ {p : α → Bool} {q : β → Bool} (h : List.Forall₂ R xs ys)
    (hpq : ∀ a b, R a b → p a = q b) : List.Forall₂ R (xs.filter p) (ys.filter q) := by
  induction h with
  | nil => exact List.Forall₂.nil
  | @cons a b _ _ hab _ ih =>
      by_cases hp : p a = true
      · rw [List.filter_cons_of_pos hp, List.filter_cons_of_pos (hpq a b hab ▸ hp)]
        exact List.Forall₂.cons hab ih
      · rw [List.filter_cons_of_neg hp, List.filter_cons_of_neg (hpq a b hab ▸ hp)]
        exact ih

/-- Searching corresponding lists finds corresponding elements. -/
theorem find?_of_forall₂ {p : α → Bool} {q : β → Bool} (h : List.Forall₂ R xs ys)
    (hpq : ∀ a b, R a b → p a = q b) :
    (xs.find? p = none ∧ ys.find? q = none) ∨
      ∃ a b, xs.find? p = some a ∧ ys.find? q = some b ∧ R a b := by
  induction h with
  | nil => exact Or.inl ⟨rfl, rfl⟩
  | @cons a b _ _ hab _ ih =>
      by_cases hp : p a = true
      · have hq : q b = true := hpq a b hab ▸ hp
        exact Or.inr ⟨a, b, List.find?_cons_of_pos hp, List.find?_cons_of_pos hq, hab⟩
      · have hq : ¬ q b = true := hpq a b hab ▸ hp
        rw [List.find?_cons_of_neg hp, List.find?_cons_of_neg hq]
        exact ih

end Correspond

/-! ### Nodes and plans that are judged alike -/

/-- The validator sees no difference between the nodes. -/
structure SameNode (a b : PlanNode) : Prop where
  id : a.id = b.id
  kind : a.kind = b.kind
  dependsOn : a.dependsOn = b.dependsOn
  allowedCapabilityRefs : a.allowedCapabilityRefs = b.allowedCapabilityRefs
  riskLevel : a.riskLevel = b.riskLevel
  approvalRequired : a.approvalRequired = b.approvalRequired
  acceptanceRefs : a.acceptanceRefs = b.acceptanceRefs
  verificationCommandIds : a.verificationCommandIds = b.verificationCommandIds
  optional : a.optional = b.optional
  fixture : a.executionMode = some .fixture ↔ b.executionMode = some .fixture
  mock : a.executionMode = some .mock ↔ b.executionMode = some .mock

theorem SameNode.refl (a : PlanNode) : SameNode a a :=
  ⟨rfl, rfl, rfl, rfl, rfl, rfl, rfl, rfl, rfl, Iff.rfl, Iff.rfl⟩

/-- The validator sees no difference between the plans. -/
structure SamePlan (p q : Planfile) : Prop where
  nodes : List.Forall₂ SameNode p.nodes q.nodes
  edges : p.edges = q.edges
  approvalPolicy : p.approvalPolicy = q.approvalPolicy
  verificationPolicy : p.verificationPolicy = q.verificationPolicy
  allowFixtures : p.allowFixtures = q.allowFixtures
  allowMock : p.allowMock = q.allowMock

/-- The issues of a plan the schema accepts. -/
def planIssues (plan : Planfile) (snapshot : Option CapabilitySnapshot) : List PlanValidationIssue :=
  nodeIdIssues [] plan.nodes ++ dependencyIssues plan ++ graphIssues plan ++
    capabilityIssues plan snapshot ++ plan.nodes.flatMap (policyIssues plan)

theorem validatePlanfile_refined {P : Platform} {snapshot : Option CapabilitySnapshot}
    {plan : Planfile} (h : plan.refined P.isDatetime = true) :
    validatePlanfile P snapshot plan =
      ⟨(planIssues plan snapshot).all (·.severity ≠ .error), planIssues plan snapshot⟩ := by
  unfold validatePlanfile planIssues
  rw [if_pos h]

/-! ### Each check -/

variable {p q : Planfile} {xs ys : List PlanNode}

theorem byId_same (h : List.Forall₂ SameNode xs ys) (id : String) :
    (byId xs id = none ∧ byId ys id = none) ∨
      ∃ a b, byId xs id = some a ∧ byId ys id = some b ∧ SameNode a b := by
  refine find?_of_forall₂ (List.rel_reverse h) ?_
  intro a b hab
  rw [hab.id]

theorem childrenOf_same (h : List.Forall₂ SameNode xs ys) : childrenOf xs = childrenOf ys := by
  funext id
  refine flatMap_of_forall₂ h ?_
  intro a b hab
  rw [hab.id, hab.dependsOn]

theorem hasCycle_same (h : List.Forall₂ SameNode xs ys) : hasCycle xs = hasCycle ys := by
  have hdeps : (fun id => (byId xs id).map (·.dependsOn)) =
      fun id => (byId ys id).map (·.dependsOn) := by
    funext id
    rcases byId_same h id with ⟨ha, hb⟩ | ⟨a, b, ha, hb, hab⟩
    · rw [ha, hb]
    · rw [ha, hb, Option.map_some, Option.map_some, hab.dependsOn]
  have hids : xs.map (·.id) = ys.map (·.id) := map_of_forall₂ h fun _ _ hab => hab.id
  unfold hasCycle
  rw [hdeps, hids, h.length_eq]

theorem reachedIds_same (h : List.Forall₂ SameNode xs ys) : reachedIds xs = reachedIds ys := by
  have hroots : List.Forall₂ SameNode (xs.filter (·.kind = .frame)) (ys.filter (·.kind = .frame)) :=
    filter_of_forall₂ h fun a b hab => by rw [hab.kind]
  have hfree : List.Forall₂ SameNode (xs.filter (·.dependsOn.length = 0))
      (ys.filter (·.dependsOn.length = 0)) :=
    filter_of_forall₂ h fun a b hab => by rw [hab.dependsOn]
  have hstart : (if (xs.filter (·.kind = .frame)).length > 0 then xs.filter (·.kind = .frame)
        else xs.filter (·.dependsOn.length = 0)).map (·.id) =
      (if (ys.filter (·.kind = .frame)).length > 0 then ys.filter (·.kind = .frame)
        else ys.filter (·.dependsOn.length = 0)).map (·.id) := by
    rw [hroots.length_eq]
    split
    · exact map_of_forall₂ hroots fun _ _ hab => hab.id
    · exact map_of_forall₂ hfree fun _ _ hab => hab.id
  have hdeps : xs.flatMap (·.dependsOn) = ys.flatMap (·.dependsOn) :=
    flatMap_of_forall₂ h fun _ _ hab => hab.dependsOn
  unfold reachedIds
  simp only [hstart, hdeps, childrenOf_same h]

theorem filterMap_byId_same (h : List.Forall₂ SameNode xs ys) (ids : List String) :
    List.Forall₂ SameNode (ids.filterMap (byId xs)) (ids.filterMap (byId ys)) := by
  induction ids with
  | nil => exact List.Forall₂.nil
  | cons id rest ih =>
      rcases byId_same h id with ⟨ha, hb⟩ | ⟨a, b, ha, hb, hab⟩
      · rw [List.filterMap_cons_none ha, List.filterMap_cons_none hb]
        exact ih
      · rw [List.filterMap_cons_some ha, List.filterMap_cons_some hb]
        exact List.Forall₂.cons hab ih

theorem unreachableNodes_same (h : List.Forall₂ SameNode xs ys) :
    List.Forall₂ SameNode (unreachableNodes xs) (unreachableNodes ys) := by
  have hids : xs.map (·.id) = ys.map (·.id) := map_of_forall₂ h fun _ _ hab => hab.id
  unfold unreachableNodes
  rw [hids, reachedIds_same h]
  refine filter_of_forall₂ (filterMap_byId_same h _) ?_
  intro a b hab
  rw [hab.id]

theorem nodeIdIssues_same (h : List.Forall₂ SameNode xs ys) (seen : List String) :
    nodeIdIssues seen xs = nodeIdIssues seen ys := by
  induction h generalizing seen with
  | nil => rfl
  | cons hab _ ih =>
      unfold nodeIdIssues
      rw [hab.id, ih]

theorem dependencyIssues_same (h : SamePlan p q) : dependencyIssues p = dependencyIssues q := by
  have hids : p.nodes.map (·.id) = q.nodes.map (·.id) :=
    map_of_forall₂ h.nodes fun _ _ hab => hab.id
  unfold dependencyIssues
  simp only [hids, h.edges]
  congr 1
  refine flatMap_of_forall₂ h.nodes ?_
  intro a b hab
  rw [hab.id, hab.dependsOn]

theorem graphIssues_same (h : SamePlan p q) : graphIssues p = graphIssues q := by
  have hstray : List.Forall₂ SameNode
      ((unreachableNodes p.nodes).filter (·.optional ≠ some true))
      ((unreachableNodes q.nodes).filter (·.optional ≠ some true)) :=
    filter_of_forall₂ (unreachableNodes_same h.nodes) fun a b hab => by rw [hab.optional]
  unfold graphIssues
  rw [hasCycle_same h.nodes]
  congr 1
  refine map_of_forall₂ hstray ?_
  intro a b hab
  rw [hab.id]

theorem capabilityIssues_same (h : SamePlan p q) (snapshot : Option CapabilitySnapshot) :
    capabilityIssues p snapshot = capabilityIssues q snapshot := by
  cases snapshot with
  | none => rfl
  | some snapshot =>
      refine flatMap_of_forall₂ h.nodes ?_
      intro a b hab
      rw [hab.id, hab.allowedCapabilityRefs]

/-- A mode other than the default one is the default's value exactly where it is set. -/
theorem executionMode_getD {mode : Option ExecutionMode} {m : ExecutionMode} (hm : m ≠ .live) :
    mode.getD .live = m ↔ mode = some m := by
  cases mode with
  | none => simp [hm.symm]
  | some m' => simp

theorem policyIssues_same (h : SamePlan p q) {a b : PlanNode} (hab : SameNode a b) :
    policyIssues p a = policyIssues q b := by
  have hfixture : a.executionMode.getD .live = .fixture ↔ b.executionMode.getD .live = .fixture := by
    rw [executionMode_getD (by decide), executionMode_getD (by decide), hab.fixture]
  have hmock : a.executionMode.getD .live = .mock ↔ b.executionMode.getD .live = .mock := by
    rw [executionMode_getD (by decide), executionMode_getD (by decide), hab.mock]
  unfold policyIssues
  simp only [hfixture, hmock, hab.id, hab.kind, hab.riskLevel, hab.approvalRequired,
    hab.acceptanceRefs, hab.verificationCommandIds, h.approvalPolicy, h.verificationPolicy,
    h.allowFixtures, h.allowMock]

/-- **Plans that the validator cannot tell apart have the same issues.** -/
theorem planIssues_same (h : SamePlan p q) (snapshot : Option CapabilitySnapshot) :
    planIssues p snapshot = planIssues q snapshot := by
  have hpolicy : p.nodes.flatMap (policyIssues p) = q.nodes.flatMap (policyIssues q) :=
    flatMap_of_forall₂ h.nodes fun _ _ hab => policyIssues_same h hab
  unfold planIssues
  rw [nodeIdIssues_same h.nodes, dependencyIssues_same h, graphIssues_same h,
    capabilityIssues_same h, hpolicy]

/-! ### The rewritings -/

theorem forall₂_map_same {f : PlanNode → PlanNode} (hf : ∀ node, SameNode (f node) node)
    (nodes : List PlanNode) : List.Forall₂ SameNode (nodes.map f) nodes := by
  induction nodes with
  | nil => exact List.Forall₂.nil
  | cons node rest ih => exact List.Forall₂.cons (hf node) ih

theorem forall₂_same_refl (nodes : List PlanNode) : List.Forall₂ SameNode nodes nodes := by
  induction nodes with
  | nil => exact List.Forall₂.nil
  | cons node rest ih => exact List.Forall₂.cons (SameNode.refl node) ih

/-- The plan of a live run is judged as the plan it was made from. -/
theorem samePlan_livePlan (plan : Planfile) (now : String) : SamePlan (livePlan plan now) plan where
  nodes := by
    refine forall₂_map_same ?_ plan.nodes
    intro node
    refine ⟨rfl, rfl, rfl, rfl, rfl, rfl, rfl, rfl, rfl, ?_, ?_⟩
    · cases hmode : node.executionMode with
      | none => simp
      | some mode => cases mode <;> simp
    · cases hmode : node.executionMode with
      | none => simp
      | some mode => cases mode <;> simp
  edges := rfl
  approvalPolicy := rfl
  verificationPolicy := rfl
  allowFixtures := rfl
  allowMock := rfl

end OpenLagrange
