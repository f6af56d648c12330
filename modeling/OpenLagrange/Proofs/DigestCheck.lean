/-
What the validator and Plan Check see of two plans with the same content.

The validator sees no difference: all that it reads is in the canonical object.  Plan Check
also reads the `requirements` section, which is not.  `SectionsAgree` says exactly when two
sections make no difference to the status, the requirements and the approvals that the check
reports, whatever profile it is asked about.
-/
import OpenLagrange.Proofs.CanonicalPlan
import OpenLagrange.Proofs.PlanCheck

namespace OpenLagrange

variable {p q : Planfile}

/-! ### Reading the nodes and the context -/

/-- What does not look at run state reads the same from both nodes. -/
theorem SameTask.same {α : Type} {a b : PlanNode} (h : SameTask a b) (f : PlanNode → α)
    (hf : ∀ n, f n.withoutRunState = f n) : f a = f b := by
  rw [← hf a, h, hf b]

theorem SameContent.map_nodes {α : Type} (h : SameContent p q) (f : PlanNode → α)
    (hf : ∀ n, f n.withoutRunState = f n) : p.nodes.map f = q.nodes.map f :=
  map_of_forall₂ h.nodes fun _ _ hab => hab.same f hf

theorem SameContent.flatMap_nodes {α : Type} (h : SameContent p q) (f : PlanNode → List α)
    (hf : ∀ n, f n.withoutRunState = f n) : p.nodes.flatMap f = q.nodes.flatMap f := by
  rw [List.flatMap_def, List.flatMap_def, h.map_nodes f hf]

theorem SameContent.any_nodes (h : SameContent p q) (f : PlanNode → Bool)
    (hf : ∀ n, f n.withoutRunState = f n) : p.nodes.any f = q.nodes.any f := by
  have hany : ∀ nodes : List PlanNode, nodes.any f = (nodes.map f).any id := by
    intro nodes
    rw [List.any_map]
    rfl
  rw [hany, hany, h.map_nodes f hf]

theorem SameContent.contextField (h : SameContent p q) (name : String) :
    SameValue (p.contextField name) (q.contextField name) := by
  have hcontext := h.context
  unfold Planfile.contextField
  cases hp : p.executionContext with
  | none =>
      rw [hp] at hcontext
      simp only [Option.map_none, eq_comm, Option.map_eq_none_iff] at hcontext
      rw [hcontext]
      exact .refl _
  | some fields =>
      rw [hp] at hcontext
      simp only [Option.map_some, eq_comm, Option.map_map, Option.map_eq_some_iff] at hcontext
      obtain ⟨fields', hq, hsame⟩ := hcontext
      rw [hq]
      exact property_same (SameValue.symm hsame) name

theorem recordField_same {v w : Value} (h : SameValue v w) (name : String) :
    SameValue (recordField v name) (recordField w name) := by
  cases v with
  | obj fields =>
      cases w with
      | obj fields' => exact property_same h name
      | _ => cases h
  | _ => cases w <;> first | exact .refl _ | cases h

theorem isText_same {v w : Value} (h : SameValue v w) (text : String) : v.isText text = w.isText text := by
  cases v with
  | str s => rw [sameValue_str.mp h]
  | _ => cases w <;> first | rfl | cases h

theorem textOf_same {v w : Value} (h : SameValue v w) : textOf v = textOf w := by
  cases v with
  | str s => rw [sameValue_str.mp h]
  | _ => cases w <;> first | rfl | cases h

theorem nonemptyText_same {v w : Value} (h : SameValue v w) : v.nonemptyText = w.nonemptyText := by
  cases v with
  | str s => rw [sameValue_str.mp h]
  | _ => cases w <;> first | rfl | cases h

theorem truthy_same {v w : Value} (h : SameValue v w) : v.truthy = w.truthy := by
  cases v <;> cases w <;> first | rfl | cases h; rfl | cases h

/-! ### The validator -/

theorem SameTask.sameNode {a b : PlanNode} (h : SameTask a b) : SameNode a b where
  id := h.same (·.id) fun _ => rfl
  kind := h.same (·.kind) fun _ => rfl
  dependsOn := h.same (·.dependsOn) fun _ => rfl
  allowedCapabilityRefs := h.same (·.allowedCapabilityRefs) fun _ => rfl
  riskLevel := h.same (·.riskLevel) fun _ => rfl
  approvalRequired := h.same (·.approvalRequired) fun _ => rfl
  acceptanceRefs := h.same (·.acceptanceRefs) fun _ => rfl
  verificationCommandIds := h.same (·.verificationCommandIds) fun _ => rfl
  optional := h.same (·.optional) fun _ => rfl
  fixture := by rw [h.same (·.executionMode) fun _ => rfl]
  mock := by rw [h.same (·.executionMode) fun _ => rfl]

theorem SameContent.samePlan (h : SameContent p q) : SamePlan p q where
  nodes := h.nodes.imp fun _ _ hab => hab.sameNode
  edges := h.edges
  approvalPolicy := h.approvalPolicy
  verificationPolicy := h.verificationPolicy
  allowFixtures := by
    have hflag := h.contextField "allow_fixtures"
    have hcontext := h.contextField "context"
    refine congrArg₂ or (congrArg₂ or ?_ (isText_same hcontext "demo")) (isText_same hcontext "eval")
    cases hp : p.contextField "allow_fixtures" with
    | bool b =>
        rw [hp] at hflag
        rw [sameValue_bool.mp hflag]
    | _ =>
        cases hq : q.contextField "allow_fixtures" <;> first
          | rfl
          | rw [hp, hq] at hflag; cases hflag
  allowMock := isText_same (h.contextField "context") "test"

/-- **The validator judges plans with the same content alike.** -/
theorem SameContent.validatePlanfile {P : Platform} (h : SameContent p q)
    (hp : p.refined P.isDatetime = true) (hq : q.refined P.isDatetime = true)
    (snapshot : Option CapabilitySnapshot) :
    validatePlanfile P snapshot p = validatePlanfile P snapshot q := by
  rw [validatePlanfile_refined hp, validatePlanfile_refined hq, planIssues_same h.samePlan]

/-! ### What nodes and context ask for -/

/-- The packs that the capabilities of the nodes come from. -/
def nodePacks (plan : Planfile) : List String :=
  plan.nodes.flatMap fun node => node.allowedCapabilityRefs.filterMap packForCapability

/-- The packs the `requirements` section requires. -/
def sectionPacks (plan : Planfile) : List String :=
  ((plan.required (·.packs)).filter (·.required)).map (·.id)

def sectionProviders (plan : Planfile) : List String :=
  ((plan.required (·.providers)).filter (·.required)).map (·.id)

def sectionCredentials (plan : Planfile) : List String :=
  ((plan.required (·.credentials)).filter (·.required)).map (·.ref)

theorem SameContent.nodePacks (h : SameContent p q) : nodePacks p = nodePacks q :=
  h.flatMap_nodes _ fun _ => rfl

theorem SameContent.nodePermissions (h : SameContent p q) :
    p.nodes.flatMap nodePermissions = q.nodes.flatMap nodePermissions := h.flatMap_nodes _ fun _ => rfl

theorem SameContent.requiredProviderKinds (h : SameContent p q) :
    requiredProviderKinds p = requiredProviderKinds q := by
  have hparameters := h.contextField "parameters"
  have hurls := recordField_same hparameters "urls"
  have hprovider := nonemptyText_same (recordField_same hparameters "provider_id")
  unfold OpenLagrange.requiredProviderKinds
  simp only
  rw [h.any_nodes (fun node => node.allowedCapabilityRefs.contains "research.search_sources") fun _ => rfl,
    h.any_nodes (fun node => node.allowedCapabilityRefs.any fun ref => startsWith ref "repo.") fun _ => rfl,
    hprovider]
  congr 2
  refine if_ctx_congr Iff.rfl (fun _ => ?_) fun _ => rfl
  cases hp : recordField (p.contextField "parameters") "urls" with
  | arr items =>
      cases hq : recordField (q.contextField "parameters") "urls" with
      | arr items' =>
          rw [hp, hq] at hurls
          cases items <;> cases items' <;> first | rfl | cases hurls.items
      | _ => rw [hp, hq] at hurls; cases hurls
  | _ =>
      cases hq : recordField (q.contextField "parameters") "urls" <;> first
        | rfl
        | rw [hp, hq] at hurls; cases hurls

theorem SameContent.requiredCredentialNames (h : SameContent p q) :
    requiredCredentialNames p = requiredCredentialNames q := by
  have hcredentials := h.contextField "credentials"
  unfold OpenLagrange.requiredCredentialNames
  cases hp : p.contextField "credentials" with
  | arr items =>
      cases hq : q.contextField "credentials" with
      | arr items' =>
          rw [hp, hq] at hcredentials
          have hnames : items.map Value.nonemptyText = items'.map Value.nonemptyText :=
            map_of_forall₂ hcredentials.items fun _ _ hab => nonemptyText_same hab
          have hlist : items.filterMap Value.nonemptyText = items'.filterMap Value.nonemptyText := by
            have hmap : ∀ values : List Value, values.filterMap Value.nonemptyText =
                (values.map Value.nonemptyText).filterMap id := by
              intro values
              rw [List.filterMap_map]
              rfl
            rw [hmap, hmap, hnames]
          exact congrArg unique hlist
      | _ => rw [hp, hq] at hcredentials; cases hcredentials
  | _ =>
      cases hq : q.contextField "credentials" <;> first
        | rfl
        | rw [hp, hq] at hcredentials; cases hcredentials

theorem SameContent.portabilityFor (h : SameContent p q) (providers credentials : List String) :
    portabilityFor p providers credentials = portabilityFor q providers credentials := by
  have hroot := nonemptyText_same (recordField_same (h.contextField "repository") "repo_root")
  unfold OpenLagrange.portabilityFor
  simp only [hroot]

/-! ### The answer of the check -/

/-- The requirement lists of two sections ask for the same beyond what is asked for anyway. -/
def SameBeyond (anyway left right : List String) : Prop := ∀ id ∉ anyway, (id ∈ left ↔ id ∈ right)

theorem unique_append_eq_iff {anyway left right : List String} :
    unique (anyway ++ left) = unique (anyway ++ right) ↔ SameBeyond anyway left right := by
  rw [unique_eq_iff]
  constructor
  · intro h id hid
    have hiff := h id
    simpa [hid] using hiff
  · intro h id
    by_cases hid : id ∈ anyway
    · simp [hid]
    · simp [hid, h id hid]

namespace PlanCheck

variable {S : CheckPlatform} {input : RunPlanCheckInput}

/-- What a report says about the status, the requirements and the approvals. -/
structure Answer where
  status : PlanCheckStatus
  packs : List RequirementStatus
  providers : List RequirementStatus
  credentials : List RequirementStatus
  permissions : List RequirementStatus
  schedule : List RequirementStatus
  approvals : List ApprovalRequirementSummary

def answer (report : PlanCheckReport) : Answer :=
  ⟨report.status, report.requiredPacks, report.requiredProviders, report.requiredCredentials,
    report.requiredPermissions, report.scheduleRequirements, report.approvalRequirements⟩

/-- A requirement as the report lists it. -/
def row (S : CheckPlatform) (kind : RequirementKind) (missing : String → Bool)
    (command : String → String) (id : String) : RequirementStatus :=
  ⟨kind, id, labelFor S id, true, if missing id then .missing else .present, none,
    if missing id then some (command id) else none⟩

theorem requirements_eq {kind : RequirementKind} {missing : String → Bool} {command : String → String}
    (ids : List String) :
    ids.mapM (fun id => requirement S kind id (missing id) (command id)) =
      if ∃ id ∈ ids, labelFor S id = "" then none else some (ids.map (row S kind missing command)) := by
  induction ids with
  | nil => rfl
  | cons id rest ih =>
      rw [List.mapM_cons, ih]
      unfold requirement
      by_cases hid : labelFor S id = ""
      · have hall : ∃ id' ∈ id :: rest, labelFor S id' = "" := ⟨id, List.mem_cons_self, hid⟩
        rw [if_pos hid, if_pos hall]
        rfl
      · rw [if_neg hid]
        by_cases hrest : ∃ id ∈ rest, labelFor S id = ""
        · have hall : ∃ id' ∈ id :: rest, labelFor S id' = "" := by
            obtain ⟨other, hmem, hother⟩ := hrest
            exact ⟨other, List.mem_cons_of_mem _ hmem, hother⟩
          rw [if_pos hrest, if_pos hall]
          rfl
        · have hall : ¬ ∃ id' ∈ id :: rest, labelFor S id' = "" := by
            rintro ⟨other, hmem, hother⟩
            rcases List.mem_cons.mp hmem with rfl | hmem
            · exact hid hother
            · exact hrest ⟨other, hmem, hother⟩
          rw [if_neg hrest, if_neg hall]
          rfl

/-- A requirement of the plan has no label, so that the check throws. -/
def Unlabelled (S : CheckPlatform) (plan : Planfile) : Prop :=
  (∃ id ∈ requiredPacks plan, labelFor S id = "") ∨ (∃ id ∈ requiredProviders plan, labelFor S id = "") ∨
    (∃ id ∈ requiredCredentials plan, labelFor S id = "") ∨
    ∃ id ∈ requiredPermissions plan, labelFor S id = ""

/-- The requirements of a report that is given. -/
def listed (S : CheckPlatform) (input : RunPlanCheckInput) : Requirements :=
  let plan := input.planfile
  ⟨(requiredPacks plan).map (row S .pack
      (fun id => id ∈ missingPacksFor (requiredPacks plan) input.availablePacks)
      fun id => "open-lagrange pack install " ++ id),
    (requiredProviders plan).map (row S .provider
      (fun id => id ∈ missingProvidersFor (requiredProviders plan) input.runtimeProfile) providerCommand),
    (requiredCredentials plan).map (row S .credential
      (fun id => id ∈ missingCredentialsFor (requiredCredentials plan) input.runtimeProfile)
      fun id => "open-lagrange secrets set " ++ id ++ " --from-stdin"),
    (requiredPermissions plan).map (row S .permission (fun id => id ∈ ([] : List String))
      (approvalCommand plan.planId)),
    runtimeRequirements plan input.runtimeProfile, unsupportedTemplateRequirements plan⟩

open Classical in
theorem requirementsOf_eq :
    requirementsOf S input = if Unlabelled S input.planfile then none else some (listed S input) := by
  unfold requirementsOf
  simp only [derivePlanRequirements]
  rw [requirements_eq, requirements_eq, requirements_eq, requirements_eq]
  unfold Unlabelled
  by_cases hpacks : ∃ id ∈ requiredPacks input.planfile, labelFor S id = ""
  · rw [if_pos hpacks, if_pos (Or.inl hpacks)]
    rfl
  by_cases hproviders : ∃ id ∈ requiredProviders input.planfile, labelFor S id = ""
  · rw [if_neg hpacks, if_pos hproviders, if_pos (Or.inr (Or.inl hproviders))]
    rfl
  by_cases hcredentials : ∃ id ∈ requiredCredentials input.planfile, labelFor S id = ""
  · rw [if_neg hpacks, if_neg hproviders, if_pos hcredentials,
      if_pos (Or.inr (Or.inr (Or.inl hcredentials)))]
    rfl
  by_cases hpermissions : ∃ id ∈ requiredPermissions input.planfile, labelFor S id = ""
  · rw [if_neg hpacks, if_neg hproviders, if_neg hcredentials, if_pos hpermissions,
      if_pos (Or.inr (Or.inr (Or.inr hpermissions)))]
    rfl
  · rw [if_neg hpacks, if_neg hproviders, if_neg hcredentials, if_neg hpermissions, if_neg]
    · rfl
    · rintro (h | h | h | h)
      · exact hpacks h
      · exact hproviders h
      · exact hcredentials h
      · exact hpermissions h

/-- The answer where the check does not throw. -/
def answerOf (S : CheckPlatform) (input : RunPlanCheckInput) : Answer :=
  ⟨statusOf S input ((listed S input).all.any RequirementStatus.blocks), (listed S input).packs,
    (listed S input).providers, (listed S input).credentials, (listed S input).permissions,
    scheduleRequirementsFor input.planfile,
    approvalRequirementsFor S input.planfile (approvalIssues S input)⟩

open Classical in
theorem answer_eq {rawDigest : String} (h : input.planfile.refined S.isDatetime = true) :
    (runPlanCheck S rawDigest input).map answer =
      if Unlabelled S input.planfile then none else some (answerOf S input) := by
  unfold runPlanCheck
  simp only [if_pos h, requirementsOf_eq]
  split <;> rfl

/-! ### What the status depends on -/

/-- Whether the section lets the plan run in a mode. -/
def runsIn (plan : Planfile) (mode : RuntimeMode) : Bool :=
  let modes := ((plan.requirements.bind (·.runtime)).bind (·.mode)).getD []
  modes.length = 0 ∨ mode ∈ modes

/-- The mode a profile stands for. -/
def modeOf (profile : Option RuntimeProfileForRequirements) : RuntimeMode :=
  match (profile.bind (·.name)).filter (· ≠ "") with
  | some current => if current = "remote" then .remoteMode else .localMode
  | none => .localMode

def digestTemplate (plan : Planfile) : Bool :=
  textOf (recordField (plan.contextField "template") "template_id") = some "research.digest"

/-- Something that is required is missing. -/
def lacks (input : RunPlanCheckInput) : Bool :=
  let plan := input.planfile
  (missingPacksFor (requiredPacks plan) input.availablePacks ≠ [] ∨
    missingProvidersFor (requiredProviders plan) input.runtimeProfile ≠ []) ∨
    missingCredentialsFor (requiredCredentials plan) input.runtimeProfile ≠ []

theorem any_row {kind : RequirementKind} {missing : String → Bool} {command : String → String}
    (ids : List String) :
    (ids.map (row S kind missing command)).any RequirementStatus.blocks = ids.any missing := by
  rw [List.any_map]
  congr 1
  funext id
  show RequirementStatus.blocks (row S kind missing command id) = missing id
  unfold row RequirementStatus.blocks
  cases missing id <;> simp

theorem any_mem_filter {ids : List String} {f : String → Bool} :
    (ids.any fun id => id ∈ ids.filter f) = decide (ids.filter f ≠ []) := by
  rw [Bool.eq_iff_iff, List.any_eq_true, decide_eq_true_eq]
  constructor
  · rintro ⟨id, -, hid⟩
    exact List.ne_nil_of_mem (of_decide_eq_true hid)
  · intro hne
    obtain ⟨id, hid⟩ := List.exists_mem_of_ne_nil _ hne
    exact ⟨id, (List.mem_filter.mp hid).1, decide_eq_true hid⟩

theorem runtime_blocks (plan : Planfile) (profile : Option RuntimeProfileForRequirements) :
    (runtimeRequirements plan profile).any RequirementStatus.blocks = !runsIn plan (modeOf profile) := by
  unfold runtimeRequirements runsIn modeOf
  simp only
  by_cases hmodes : (((plan.requirements.bind (·.runtime)).bind (·.mode)).getD []).length = 0
  · simp [hmodes]
  · rw [if_neg hmodes]
    cases hname : (profile.bind (·.name)).filter (· ≠ "") with
    | none =>
        by_cases hmem : RuntimeMode.localMode ∈
            ((plan.requirements.bind (·.runtime)).bind (·.mode)).getD []
        · simp [hmem, RequirementStatus.blocks]
        · simp [hmem, hmodes, RequirementStatus.blocks]
    | some current =>
        by_cases hmem : (if current = "remote" then RuntimeMode.remoteMode else .localMode) ∈
            ((plan.requirements.bind (·.runtime)).bind (·.mode)).getD []
        · simp [hmem, RequirementStatus.blocks]
        · simp [hmem, hmodes, RequirementStatus.blocks]

theorem blocks_eq : (listed S input).all.any RequirementStatus.blocks =
    (lacks input || !runsIn input.planfile (modeOf input.runtimeProfile) ||
      digestTemplate input.planfile) := by
  have htemplate : (unsupportedTemplateRequirements input.planfile).any RequirementStatus.blocks =
      digestTemplate input.planfile := by
    unfold unsupportedTemplateRequirements digestTemplate
    split
    · rename_i h
      simp [h, RequirementStatus.blocks]
    · rename_i h
      simp [h]
  have hpacks : ((requiredPacks input.planfile).any fun id =>
      id ∈ missingPacksFor (requiredPacks input.planfile) input.availablePacks) =
        decide (missingPacksFor (requiredPacks input.planfile) input.availablePacks ≠ []) := by
    unfold missingPacksFor
    cases input.availablePacks with
    | none => simp
    | some available => exact any_mem_filter
  have hnone : ((requiredPermissions input.planfile).any fun id => id ∈ ([] : List String)) = false := by
    simp
  unfold Requirements.all listed lacks
  simp only [List.any_append, any_row, hpacks, hnone, runtime_blocks, htemplate, Bool.or_false]
  unfold missingProvidersFor missingCredentialsFor
  simp only [any_mem_filter, Bool.decide_or]

/-- Something is worth a warning, apart from optional requirements. -/
def noted (S : CheckPlatform) (input : RunPlanCheckInput) : Prop :=
  let plan := input.planfile
  let derived := derivePlanRequirements plan input.runtimeProfile input.availablePacks
  derived.warnings ++ executionModeWarningsFor plan (input.live.getD false) ++
      portabilityWarnings plan derived.portabilityLevel ≠ [] ∨
    approvalRequirementsFor S plan (approvalIssues S input) ≠ [] ∨ derived.sideEffects ≠ []

theorem unique_eq_nil {texts : List String} : unique texts = [] ↔ texts = [] := by
  rw [List.eq_nil_iff_forall_not_mem, List.eq_nil_iff_forall_not_mem]
  simp only [mem_unique]

variable (S input) in
/-- The status, by what it depends on. -/
theorem statusOf_cases (missingRequired : Bool) :
    (hardValidationErrors S input = [] ∧ missingRequired = false ∧
        ((noted S input ∨ optionalWarnings input.planfile ≠ []) ∧
            statusOf S input missingRequired = .runnableWithWarnings ∨
          ¬ (noted S input ∨ optionalWarnings input.planfile ≠ []) ∧
            statusOf S input missingRequired = .runnable)) ∨
      (hardValidationErrors S input = [] ∧ missingRequired = true ∧
        statusOf S input missingRequired = .missingRequirements) ∨
      hardValidationErrors S input ≠ [] := by
  by_cases hhard : hardValidationErrors S input = []
  · cases missingRequired with
    | true =>
        refine Or.inr (Or.inl ⟨hhard, rfl, ?_⟩)
        unfold statusOf
        simp [hhard]
    | false =>
        refine Or.inl ⟨hhard, rfl, ?_⟩
        have hwarned : ((warningsOf input).length > 0 ∨
            (approvalRequirementsFor S input.planfile (approvalIssues S input)).length > 0 ∨
            (derivePlanRequirements input.planfile input.runtimeProfile
              input.availablePacks).sideEffects.length > 0) ↔
            (noted S input ∨ optionalWarnings input.planfile ≠ []) := by
          unfold warningsOf noted
          simp only [gt_iff_lt, List.length_pos_iff, ne_eq, unique_eq_nil, List.append_eq_nil_iff]
          tauto
        unfold statusOf
        by_cases h : noted S input ∨ optionalWarnings input.planfile ≠ []
        · exact Or.inl ⟨h, by simp [hhard, hwarned.mpr h]⟩
        · exact Or.inr ⟨h, by simp [hhard, mt hwarned.mp h]⟩
  · exact Or.inr (Or.inr hhard)

/-! ### Two plans with the same content -/

/-- The same question about another plan. -/
def about (input : RunPlanCheckInput) (plan : Planfile) : RunPlanCheckInput :=
  { input with planfile := plan }

@[simp] theorem about_planfile (input : RunPlanCheckInput) (plan : Planfile) :
    (about input plan).planfile = plan := rfl
@[simp] theorem about_runtimeProfile (input : RunPlanCheckInput) (plan : Planfile) :
    (about input plan).runtimeProfile = input.runtimeProfile := rfl
@[simp] theorem about_availablePacks (input : RunPlanCheckInput) (plan : Planfile) :
    (about input plan).availablePacks = input.availablePacks := rfl
@[simp] theorem about_live (input : RunPlanCheckInput) (plan : Planfile) :
    (about input plan).live = input.live := rfl

section Content

variable (h : SameContent p q) (hp : p.refined S.isDatetime = true) (hq : q.refined S.isDatetime = true)

include h hp hq

theorem same_validation : checkValidation S (about input p) = checkValidation S (about input q) := by
  have hrefs : p.capabilityRefs = q.capabilityRefs := h.flatMap_nodes _ fun _ => rfl
  have hoptions : snapshotOptions S (about input p) = snapshotOptions S (about input q) := by
    unfold snapshotOptions about
    simp only [if_pos hp, if_pos hq, hrefs]
  unfold checkValidation
  rw [hoptions]
  exact h.validatePlanfile hp hq _

theorem same_hard : hardValidationErrors S (about input p) = hardValidationErrors S (about input q) := by
  unfold hardValidationErrors
  rw [same_validation h hp hq]

omit hp hq in
theorem same_modeWarnings (live : Bool) : executionModeWarningsFor p live = executionModeWarningsFor q live :=
  h.flatMap_nodes _ fun _ => rfl

omit hp hq in
theorem same_approvalFor {a b : PlanNode} (hab : SameTask a b) : approvalForNode p a = approvalForNode q b := by
  unfold approvalForNode
  rw [h.planId, hab.same (·.id) fun _ => rfl, hab.same (·.title) fun _ => rfl,
    hab.same (·.riskLevel) fun _ => rfl]

omit hp hq in
theorem same_issueNode (issue : PlanValidationIssue) :
    (issueNode p issue).map (approvalForNode p) = (issueNode q issue).map (approvalForNode q) := by
  have hnode : ∀ id, (p.node? id).map (approvalForNode p) = (q.node? id).map (approvalForNode q) := by
    intro id
    have hfind := find?_of_forall₂ h.nodes (p := fun node => decide (node.id = id))
      (q := fun node => decide (node.id = id)) fun a b hab => by
        rw [hab.same (·.id) fun _ => rfl]
    unfold Planfile.node?
    rcases hfind with ⟨ha, hb⟩ | ⟨a, b, ha, hb, hab⟩
    · rw [ha, hb]
      rfl
    · rw [ha, hb, Option.map_some, Option.map_some, same_approvalFor h hab]
  have hany : ∀ name, (p.nodes.any (·.id = name)) = q.nodes.any (·.id = name) :=
    fun name => h.any_nodes _ fun _ => rfl
  unfold issueNode
  simp only [hany]
  rw [Option.map_bind, Option.map_bind]
  exact congrArg _ (funext hnode)

theorem same_approvals : approvalRequirementsFor S p (approvalIssues S (about input p)) =
    approvalRequirementsFor S q (approvalIssues S (about input q)) := by
  have hissues : approvalIssues S (about input p) = approvalIssues S (about input q) := by
    unfold approvalIssues
    rw [same_validation h hp hq]
  have hnodes : (p.nodes.filter (·.approvalRequired)).map (approvalForNode p) =
      (q.nodes.filter (·.approvalRequired)).map (approvalForNode q) :=
    map_of_forall₂ (filter_of_forall₂ h.nodes fun a b hab => hab.same (·.approvalRequired) fun _ => rfl)
      fun _ _ hab => same_approvalFor h hab
  have hmap : ∀ (plan : Planfile) (issues : List PlanValidationIssue),
      (issues.filterMap (issueNode plan)).map (approvalForNode plan) =
        issues.filterMap fun issue => (issueNode plan issue).map (approvalForNode plan) :=
    fun plan issues => List.map_filterMap
  unfold approvalRequirementsFor
  simp only
  rw [hissues, hnodes, hmap, hmap, funext (same_issueNode h)]

omit hp hq in
theorem same_template : digestTemplate p = digestTemplate q := by
  unfold digestTemplate
  rw [textOf_same (recordField_same (h.contextField "template") "template_id")]

omit hp hq in
theorem same_schedule : scheduleRequirementsFor p = scheduleRequirementsFor q ↔
    ((p.contextField "schedule_intent").isNullish = true →
      (p.requirements.bind (·.runtime)).isSome = (q.requirements.bind (·.runtime)).isSome) := by
  have hintent := h.contextField "schedule_intent"
  unfold scheduleRequirementsFor
  simp only [← hintent.isNullish, ← truthy_same hintent]
  cases (p.contextField "schedule_intent").isNullish with
  | false => simp
  | true =>
      cases (p.requirements.bind (·.runtime)).isSome <;> cases (q.requirements.bind (·.runtime)).isSome <;>
        simp

end Content

/-! ### Sections that make no difference -/

/-- The two plans require the same. -/
structure SameLists (p q : Planfile) : Prop where
  packs : requiredPacks p = requiredPacks q
  providers : requiredProviders p = requiredProviders q
  credentials : requiredCredentials p = requiredCredentials q
  permissions : requiredPermissions p = requiredPermissions q

/-- The plan is bound to a machine or a profile, which is worth a warning. -/
def Bound (plan : Planfile) : Prop :=
  portabilityFor plan (requiredProviders plan) (requiredCredentials plan) = .machineBound ∨
    portabilityFor plan (requiredProviders plan) (requiredCredentials plan) = .profileBound

/-- The status does not depend on which of the two sections the plan has: the plan is invalid, or
its template keeps it from running, or both sections let it run in the same modes; and a plan
without nodes has a warning anyway, or optional requirements in both sections or in neither. -/
def SameStatus (p q : Planfile) : Prop :=
  (∃ issue ∈ planIssues p none, issue.Hard) ∨ digestTemplate p = true ∨
    (∀ mode, runsIn p mode = runsIn q mode) ∧
      (p.nodes ≠ [] ∨ Bound p ∨ (optionalWarnings p = [] ↔ optionalWarnings q = []))

/-- The `requirements` sections make no difference to the check. -/
structure SectionsAgree (p q : Planfile) : Prop where
  packs : SameBeyond (nodePacks p) (sectionPacks p) (sectionPacks q)
  providers : SameBeyond (requiredProviderKinds p) (sectionProviders p) (sectionProviders q)
  credentials : SameBeyond (requiredCredentialNames p) (sectionCredentials p) (sectionCredentials q)
  permissions : SameBeyond (p.nodes.flatMap nodePermissions) (p.required (·.permissions))
    (q.required (·.permissions))
  schedule : (p.contextField "schedule_intent").isNullish = true →
    (p.requirements.bind (·.runtime)).isSome = (q.requirements.bind (·.runtime)).isSome
  status : SameStatus p q

theorem sameLists_iff (h : SameContent p q) : SameLists p q ↔
    SameBeyond (nodePacks p) (sectionPacks p) (sectionPacks q) ∧
      SameBeyond (requiredProviderKinds p) (sectionProviders p) (sectionProviders q) ∧
      SameBeyond (requiredCredentialNames p) (sectionCredentials p) (sectionCredentials q) ∧
      SameBeyond (p.nodes.flatMap nodePermissions) (p.required (·.permissions))
        (q.required (·.permissions)) := by
  have hpacks : requiredPacks p = requiredPacks q ↔
      SameBeyond (nodePacks p) (sectionPacks p) (sectionPacks q) := by
    rw [← unique_append_eq_iff, show requiredPacks q = unique (nodePacks q ++ sectionPacks q) from rfl,
      ← h.nodePacks]
    rfl
  have hproviders : requiredProviders p = requiredProviders q ↔
      SameBeyond (requiredProviderKinds p) (sectionProviders p) (sectionProviders q) := by
    rw [← unique_append_eq_iff,
      show requiredProviders q = unique (requiredProviderKinds q ++ sectionProviders q) from rfl,
      ← h.requiredProviderKinds]
    rfl
  have hcredentials : requiredCredentials p = requiredCredentials q ↔
      SameBeyond (requiredCredentialNames p) (sectionCredentials p) (sectionCredentials q) := by
    rw [← unique_append_eq_iff,
      show requiredCredentials q = unique (requiredCredentialNames q ++ sectionCredentials q) from rfl,
      ← h.requiredCredentialNames]
    rfl
  have hpermissions : requiredPermissions p = requiredPermissions q ↔
      SameBeyond (p.nodes.flatMap nodePermissions) (p.required (·.permissions))
        (q.required (·.permissions)) := by
    rw [← unique_append_eq_iff, show requiredPermissions q =
      unique (q.nodes.flatMap nodePermissions ++ q.required (·.permissions)) from rfl, ← h.nodePermissions]
    rfl
  rw [← hpacks, ← hproviders, ← hcredentials, ← hpermissions]
  exact ⟨fun hsame => ⟨hsame.packs, hsame.providers, hsame.credentials, hsame.permissions⟩,
    fun hsame => ⟨hsame.1, hsame.2.1, hsame.2.2.1, hsame.2.2.2⟩⟩

theorem sectionsAgree_iff (h : SameContent p q) : SectionsAgree p q ↔
    SameLists p q ∧ scheduleRequirementsFor p = scheduleRequirementsFor q ∧ SameStatus p q := by
  rw [sameLists_iff h, same_schedule h]
  exact ⟨fun hagree => ⟨⟨hagree.packs, hagree.providers, hagree.credentials, hagree.permissions⟩,
      hagree.schedule, hagree.status⟩,
    fun ⟨⟨h1, h2, h3, h4⟩, h5, h6⟩ => ⟨h1, h2, h3, h4, h5, h6⟩⟩

theorem SameLists.unlabelled (h : SameLists p q) : Unlabelled S p ↔ Unlabelled S q := by
  unfold Unlabelled
  rw [h.packs, h.providers, h.credentials, h.permissions]

theorem SameLists.lacks (h : SameLists p q) : lacks (about input p) = lacks (about input q) := by
  unfold PlanCheck.lacks about
  simp only [h.packs, h.providers, h.credentials]

theorem SameLists.noted (hlists : SameLists p q) (h : SameContent p q)
    (hp : p.refined S.isDatetime = true) (hq : q.refined S.isDatetime = true) :
    noted S (about input p) ↔ noted S (about input q) := by
  have hfixture : p.nodes.any (fun node => node.executionMode = some .fixture ∨
      node.executionMode = some .mock) = q.nodes.any fun node =>
        node.executionMode = some .fixture ∨ node.executionMode = some .mock := h.any_nodes _ fun _ => rfl
  have hrepo : p.nodes.any (·.allowedCapabilityRefs.any fun ref => startsWith ref "repo.") =
      q.nodes.any (·.allowedCapabilityRefs.any fun ref => startsWith ref "repo.") :=
    h.any_nodes _ fun _ => rfl
  have heffects : p.nodes.map nodeSideEffect = q.nodes.map nodeSideEffect := h.map_nodes _ fun _ => rfl
  unfold PlanCheck.noted
  simp only [about_planfile, about_runtimeProfile, about_availablePacks, about_live,
    same_approvals h hp hq, same_modeWarnings h]
  unfold derivePlanRequirements warningsFor portabilityWarnings
  simp only [hlists.packs, hlists.providers, hlists.credentials, hfixture, hrepo, heffects,
    h.portabilityFor]

/-! ### When the check answers alike -/

/-- The check answers alike about the two plans, whatever profile and packs it is asked with. -/
def SameCheck (S : CheckPlatform) (p q : Planfile) : Prop :=
  ∀ (rawDigest : String) (input : RunPlanCheckInput),
    (runPlanCheck S rawDigest (about input p)).map answer =
      (runPlanCheck S rawDigest (about input q)).map answer

/-- A profile of the given mode that has everything the plan requires. -/
def generous (plan : Planfile) (mode : RuntimeMode) : RunPlanCheckInput where
  planfile := plan
  runtimeProfile := some
    ⟨match mode with
      | .remoteMode => some "remote"
      | .localMode => none,
      some ((requiredProviders plan).map fun id => ⟨id, "live", none⟩), some (requiredCredentials plan)⟩
  availablePacks := none
  capabilitySnapshot := none
  live := none
  now := ""

theorem modeOf_generous (plan : Planfile) (mode : RuntimeMode) :
    modeOf (generous plan mode).runtimeProfile = mode := by
  cases mode <;> rfl

theorem generous_missingProviders (plan : Planfile) (mode : RuntimeMode) :
    missingProvidersFor (requiredProviders plan) (generous plan mode).runtimeProfile = [] := by
  unfold missingProvidersFor
  rw [List.filter_eq_nil_iff]
  intro id hid
  have hlisted : ∀ f : SearchProviderProfile → Bool, f ⟨id, "live", none⟩ = true →
      (searchProvidersOf (generous plan mode).runtimeProfile).any f = true := by
    intro f hf
    exact List.any_eq_true.mpr ⟨_, List.mem_map.mpr ⟨id, hid, rfl⟩, hf⟩
  by_cases hworkspace : id = "workspace"
  · simp [hworkspace]
  by_cases hsearch : id = "search"
  · have hlive : hasLiveSearchProvider (generous plan mode).runtimeProfile = true :=
      hlisted (fun provider => provider.enabled ≠ some false ∧ provider.kind ≠ "fixture") (by simp)
    simp [hsearch, hlive]
  · have hown := hlisted (fun config => config.enabled ≠ some false ∧ config.id = id) (by simp)
    simp only [hworkspace, hsearch, if_false, hown]
    simp

theorem generous_missingCredentials (plan : Planfile) (mode : RuntimeMode) :
    missingCredentialsFor (requiredCredentials plan) (generous plan mode).runtimeProfile = [] := by
  unfold missingCredentialsFor
  simp only
  rw [List.filter_eq_nil_iff]
  intro credential hcredential
  have hrefs : ((generous plan mode).runtimeProfile.bind (·.secretRefs)).getD [] =
      requiredCredentials plan := rfl
  rw [hrefs]
  simp [hcredential]

theorem lacks_generous (plan : Planfile) (mode : RuntimeMode) : lacks (generous plan mode) = false := by
  have hpacks : missingPacksFor (requiredPacks plan) (generous plan mode).availablePacks = [] := rfl
  have hplan : (generous plan mode).planfile = plan := rfl
  unfold lacks
  simp only [hplan, hpacks, generous_missingProviders, generous_missingCredentials]
  decide

theorem approvals_of_noNodes {plan : Planfile} (hnodes : plan.nodes = [])
    (issues : List PlanValidationIssue) : approvalRequirementsFor S plan issues = [] := by
  have hissue : issueNode plan = fun _ => none := by
    funext issue
    unfold issueNode Planfile.node?
    rw [hnodes]
    cases issue.path.findSome? _ <;> rfl
  have hfrom : issues.filterMap (issueNode plan) = [] := by
    rw [hissue]
    exact List.filterMap_eq_nil_iff.mpr fun _ _ => rfl
  unfold approvalRequirementsFor
  rw [hfrom, hnodes]
  rfl

/-- A plan without nodes that is bound to nothing gives no cause for a warning by itself. -/
theorem not_noted_generous {plan : Planfile} (hnodes : plan.nodes = []) (hbound : ¬ Bound plan)
    (mode : RuntimeMode) : ¬ noted S (generous plan mode) := by
  have hplan : (generous plan mode).planfile = plan := rfl
  have hpacks : missingPacksFor (requiredPacks plan) (generous plan mode).availablePacks = [] := rfl
  have hwarnings : (derivePlanRequirements plan (generous plan mode).runtimeProfile
      (generous plan mode).availablePacks).warnings = [] := by
    unfold derivePlanRequirements warningsFor
    simp only [hpacks, generous_missingProviders, generous_missingCredentials, hnodes]
    rfl
  have hmodes : ∀ live, executionModeWarningsFor plan live = [] := by
    intro live
    unfold executionModeWarningsFor
    rw [hnodes]
    rfl
  have hportability : portabilityWarnings plan (portabilityFor plan (requiredProviders plan)
      (requiredCredentials plan)) = [] := by
    unfold Bound at hbound
    unfold portabilityWarnings
    cases hlevel : portabilityFor plan (requiredProviders plan) (requiredCredentials plan) with
    | portable => rfl
    | workspaceBound => rw [hnodes]; rfl
    | profileBound => exact absurd (Or.inr hlevel) hbound
    | machineBound => exact absurd (Or.inl hlevel) hbound
  have heffects : (derivePlanRequirements plan (generous plan mode).runtimeProfile
      (generous plan mode).availablePacks).sideEffects = [] := by
    show unique (plan.nodes.map nodeSideEffect) = []
    rw [hnodes]
    rfl
  rintro (h | h | h)
  · refine h ?_
    rw [hplan, hwarnings, hmodes]
    exact hportability
  · exact h (approvals_of_noNodes hnodes _)
  · exact h heffects

theorem exists_mode (plan : Planfile) : ∃ mode, runsIn plan mode = true := by
  unfold runsIn
  simp only
  cases ((plan.requirements.bind (·.runtime)).bind (·.mode)).getD [] with
  | nil => exact ⟨.localMode, rfl⟩
  | cons mode rest => exact ⟨mode, by simp⟩

theorem hard_generous {plan : Planfile} (hrefined : plan.refined S.isDatetime = true) (mode : RuntimeMode) :
    hardValidationErrors S (generous plan mode) = [] ↔ ¬ ∃ issue ∈ planIssues plan none, issue.Hard := by
  rw [hardValidationErrors_nil (S := S) (show (generous plan mode).planfile.refined _ = true from hrefined)]
  unfold NoHardIssue
  push Not
  rfl

theorem rows_ids {kind : RequirementKind} {missing : String → Bool} {command : String → String}
    (ids : List String) : (ids.map (row S kind missing command)).map (·.id) = ids := by
  rw [List.map_map]
  exact List.map_id ids

/-- Plans that the check answers alike about require the same. -/
theorem sameLists_of_answers (h : ∀ input, answerOf S (about input p) = answerOf S (about input q)) :
    SameLists p q := by
  have hany := h ⟨p, none, none, none, none, ""⟩
  have hpacks := congrArg (fun a => a.packs.map (·.id)) hany
  have hproviders := congrArg (fun a => a.providers.map (·.id)) hany
  have hcredentials := congrArg (fun a => a.credentials.map (·.id)) hany
  have hpermissions := congrArg (fun a => a.permissions.map (·.id)) hany
  simp only [answerOf, listed, rows_ids] at hpacks hproviders hcredentials hpermissions
  exact ⟨hpacks, hproviders, hcredentials, hpermissions⟩

/-- Where the answers about all profiles are alike, the sections make no difference to the status. -/
theorem sameStatus_of_answers (h : SameContent p q) (hp : p.refined S.isDatetime = true)
    (hq : q.refined S.isDatetime = true) (hlists : SameLists p q)
    (hanswers : ∀ input, answerOf S (about input p) = answerOf S (about input q)) : SameStatus p q := by
  by_cases hhard : ∃ issue ∈ planIssues p none, issue.Hard
  · exact Or.inl hhard
  by_cases htemplate : digestTemplate p = true
  · exact Or.inr (Or.inl htemplate)
  refine Or.inr (Or.inr ?_)
  -- under a generous profile only the mode can be missing
  have hmissing : ∀ mode, (listed S (about (generous p mode) p)).all.any RequirementStatus.blocks =
        !runsIn p mode ∧
      (listed S (about (generous p mode) q)).all.any RequirementStatus.blocks = !runsIn q mode := by
    intro mode
    have htemplate' : digestTemplate q = false := by
      rw [← same_template h]
      exact Bool.eq_false_iff.mpr htemplate
    rw [blocks_eq, blocks_eq, ← hlists.lacks, about_planfile, about_planfile, htemplate',
      same_template h, htemplate']
    have hlacks : lacks (about (generous p mode) p) = false := lacks_generous p mode
    rw [hlacks, about_runtimeProfile, about_runtimeProfile, modeOf_generous]
    simp
  have hnone : ∀ mode, hardValidationErrors S (about (generous p mode) p) = [] :=
    fun mode => (hard_generous hp mode).mpr hhard
  have hnone' : ∀ mode, hardValidationErrors S (about (generous p mode) q) = [] := by
    intro mode
    rw [← same_hard h hp hq]
    exact hnone mode
  have hstatus : ∀ mode, statusOf S (about (generous p mode) p) (!runsIn p mode) =
      statusOf S (about (generous p mode) q) (!runsIn q mode) := by
    intro mode
    have heq := congrArg Answer.status (hanswers (generous p mode))
    simp only [answerOf, (hmissing mode).1, (hmissing mode).2] at heq
    exact heq
  have hmodes : ∀ mode, runsIn p mode = runsIn q mode := by
    intro mode
    have heq := hstatus mode
    rcases statusOf_cases S (about (generous p mode) p) (!runsIn p mode) with
      ⟨-, hruns, hs⟩ | ⟨-, hruns, hs⟩ | hbad
    · rcases statusOf_cases S (about (generous p mode) q) (!runsIn q mode) with
        ⟨-, hruns', -⟩ | ⟨-, -, hs'⟩ | hbad
      · exact Bool.not_inj (hruns.trans hruns'.symm)
      · rcases hs with ⟨-, hs⟩ | ⟨-, hs⟩ <;> rw [hs, hs'] at heq <;> cases heq
      · exact absurd (hnone' mode) hbad
    · rcases statusOf_cases S (about (generous p mode) q) (!runsIn q mode) with
        ⟨-, -, hs'⟩ | ⟨-, hruns', -⟩ | hbad
      · rcases hs' with ⟨-, hs'⟩ | ⟨-, hs'⟩ <;> rw [hs, hs'] at heq <;> cases heq
      · exact Bool.not_inj (hruns.trans hruns'.symm)
      · exact absurd (hnone' mode) hbad
    · exact absurd (hnone mode) hbad
  refine ⟨hmodes, ?_⟩
  by_cases hnodes : p.nodes = []
  · by_cases hbound : Bound p
    · exact Or.inr (Or.inl hbound)
    refine Or.inr (Or.inr ?_)
    obtain ⟨mode, hmode⟩ := exists_mode p
    have heq := hstatus mode
    have hquiet : ¬ noted S (about (generous p mode) p) := not_noted_generous hnodes hbound mode
    have hquiet' : ¬ noted S (about (generous p mode) q) := fun hnoted =>
      hquiet ((hlists.noted h hp hq).mpr hnoted)
    rcases statusOf_cases S (about (generous p mode) p) (!runsIn p mode) with
      ⟨-, -, hs⟩ | ⟨-, hruns, -⟩ | hbad
    · rcases statusOf_cases S (about (generous p mode) q) (!runsIn q mode) with
        ⟨-, -, hs'⟩ | ⟨-, hruns', -⟩ | hbad
      · rw [about_planfile] at hs hs'
        rcases hs with ⟨hw, hs⟩ | ⟨hw, hs⟩ <;> rcases hs' with ⟨hw', hs'⟩ | ⟨hw', hs'⟩ <;>
          rw [hs, hs'] at heq <;> cases heq
        · simp [hw.resolve_left hquiet, hw'.resolve_left hquiet']
        · push Not at hw hw'
          simp [hw.2, hw'.2]
      · rw [← hmodes, hmode] at hruns'
        cases hruns'
      · exact absurd (hnone' mode) hbad
    · rw [hmode] at hruns
      cases hruns
    · exact absurd (hnone mode) hbad
  · exact Or.inl hnodes

theorem SameLists.listed (hlists : SameLists p q) (h : SameContent p q) (input : RunPlanCheckInput) :
    (listed S (about input p)).packs = (listed S (about input q)).packs ∧
      (listed S (about input p)).providers = (listed S (about input q)).providers ∧
      (listed S (about input p)).credentials = (listed S (about input q)).credentials ∧
      (listed S (about input p)).permissions = (listed S (about input q)).permissions := by
  refine ⟨?_, ?_, ?_, ?_⟩
  · exact congrArg (fun ids => ids.map (row S .pack (fun id => id ∈ missingPacksFor ids input.availablePacks)
      fun id => "open-lagrange pack install " ++ id)) hlists.packs
  · exact congrArg (fun ids => ids.map (row S .provider
      (fun id => id ∈ missingProvidersFor ids input.runtimeProfile) providerCommand)) hlists.providers
  · exact congrArg (fun ids => ids.map (row S .credential
      (fun id => id ∈ missingCredentialsFor ids input.runtimeProfile)
      fun id => "open-lagrange secrets set " ++ id ++ " --from-stdin")) hlists.credentials
  · exact congrArg₂ (fun ids planId => ids.map (row S .permission (fun id => id ∈ ([] : List String))
      (approvalCommand planId))) hlists.permissions h.planId

theorem statusOf_same (h : SameContent p q) (hp : p.refined S.isDatetime = true)
    (hq : q.refined S.isDatetime = true) (hlists : SameLists p q) (hstatus : SameStatus p q)
    (input : RunPlanCheckInput) :
    statusOf S (about input p) ((listed S (about input p)).all.any RequirementStatus.blocks) =
      statusOf S (about input q) ((listed S (about input q)).all.any RequirementStatus.blocks) := by
  by_cases hhard : hardValidationErrors S (about input q) = []
  · have hhard' : hardValidationErrors S (about input p) = [] := by rw [same_hard h hp hq, hhard]
    have hnone : ¬ ∃ issue ∈ planIssues p none, issue.Hard := by
      rintro ⟨issue, hmem, hissue⟩
      have hrefined : (about input p).planfile.refined S.isDatetime = true := hp
      have hall := (hardValidationErrors_nil hrefined).mp hhard'
      refine hall issue ?_ hissue
      unfold planIssues capabilityIssues at hmem
      unfold planIssues
      simp only [List.mem_append, List.not_mem_nil, or_false] at hmem ⊢
      tauto
    rw [blocks_eq, blocks_eq, hlists.lacks, about_planfile, about_planfile, about_runtimeProfile,
      about_runtimeProfile, same_template h]
    rcases hstatus with hissue | htemplate | ⟨hmodes, hwarned⟩
    · exact absurd hissue hnone
    · rw [same_template h] at htemplate
      rw [htemplate, Bool.or_true]
      unfold statusOf
      simp [hhard, hhard']
    · rw [hmodes]
      generalize (lacks (about input q) || !runsIn q (modeOf input.runtimeProfile) ||
        digestTemplate q) = missing
      have hnoted : noted S (about input p) ↔ noted S (about input q) := hlists.noted h hp hq
      have hwarn : (noted S (about input p) ∨ optionalWarnings p ≠ []) ↔
          (noted S (about input q) ∨ optionalWarnings q ≠ []) := by
        rcases hwarned with hnodes | hbound | hoptional
        · -- a plan with nodes has side effects to tell of
          have heffects : noted S (about input p) := by
            refine Or.inr (Or.inr ?_)
            show unique (p.nodes.map nodeSideEffect) ≠ []
            rw [Ne, unique_eq_nil, List.map_eq_nil_iff]
            exact hnodes
          exact iff_of_true (Or.inl heffects) (Or.inl (hnoted.mp heffects))
        · have hbound' : noted S (about input p) := by
            refine Or.inl fun hnil => ?_
            have hportability := (List.append_eq_nil_iff.mp hnil).2
            change portabilityWarnings p (portabilityFor p (requiredProviders p) (requiredCredentials p)) =
              [] at hportability
            rcases hbound with hb | hb <;> rw [hb] at hportability <;> cases hportability
          exact iff_of_true (Or.inl hbound') (Or.inl (hnoted.mp hbound'))
        · rw [hnoted, Ne, Ne, hoptional]
      rcases statusOf_cases S (about input p) missing with
        ⟨-, hm, hs⟩ | ⟨-, hm, hs⟩ | hbad
      · rcases statusOf_cases S (about input q) missing with
          ⟨-, -, hs'⟩ | ⟨-, hm', -⟩ | hbad
        · rw [about_planfile] at hs hs'
          rcases hs with ⟨hw, hs⟩ | ⟨hw, hs⟩ <;> rcases hs' with ⟨hw', hs'⟩ | ⟨hw', hs'⟩
          · rw [hs, hs']
          · exact absurd (hwarn.mp hw) hw'
          · exact absurd (hwarn.mpr hw') hw
          · rw [hs, hs']
        · rw [hm] at hm'
          cases hm'
        · exact absurd hhard hbad
      · rcases statusOf_cases S (about input q) missing with
          ⟨-, hm', -⟩ | ⟨-, -, hs'⟩ | hbad
        · rw [hm] at hm'
          cases hm'
        · rw [hs, hs']
        · exact absurd hhard hbad
      · exact absurd hhard' hbad
  · have hpos : (hardValidationErrors S (about input q)).length > 0 := List.length_pos_iff.mpr hhard
    unfold statusOf
    rw [same_hard h hp hq, about_planfile, about_planfile, same_modeWarnings h, about_live, about_live]
    simp only [if_pos hpos]

/-- **The check answers alike about plans with the same content exactly if their sections agree.** -/
theorem sameCheck_iff (h : SameContent p q) (hp : p.refined S.isDatetime = true)
    (hq : q.refined S.isDatetime = true) :
    SameCheck S p q ↔ (Unlabelled S p ∧ Unlabelled S q) ∨ SectionsAgree p q := by
  classical
  rw [sectionsAgree_iff h]
  unfold SameCheck
  have hcheck : ∀ rawDigest input, (runPlanCheck S rawDigest (about input p)).map answer =
      (runPlanCheck S rawDigest (about input q)).map answer ↔
        (if Unlabelled S p then none else some (answerOf S (about input p))) =
          if Unlabelled S q then none else some (answerOf S (about input q)) := by
    intro rawDigest input
    have hrefinedp : (about input p).planfile.refined S.isDatetime = true := hp
    have hrefinedq : (about input q).planfile.refined S.isDatetime = true := hq
    rw [answer_eq hrefinedp, answer_eq hrefinedq]
    rfl
  simp only [hcheck]
  constructor
  · intro hsame
    by_cases hup : Unlabelled S p
    · by_cases huq : Unlabelled S q
      · exact Or.inl ⟨hup, huq⟩
      · have hone := hsame "" (generous p .localMode)
        rw [if_pos hup, if_neg huq] at hone
        cases hone
    · by_cases huq : Unlabelled S q
      · have hone := hsame "" (generous p .localMode)
        rw [if_neg hup, if_pos huq] at hone
        cases hone
      · have hanswers : ∀ input, answerOf S (about input p) = answerOf S (about input q) := by
          intro input
          have hone := hsame "" input
          rw [if_neg hup, if_neg huq] at hone
          exact Option.some.inj hone
        have hlists := sameLists_of_answers hanswers
        exact Or.inr ⟨hlists, congrArg Answer.schedule (hanswers (generous p .localMode)),
          sameStatus_of_answers h hp hq hlists hanswers⟩
  · rintro (⟨hup, huq⟩ | ⟨hlists, hschedule, hstatus⟩) rawDigest input
    · rw [if_pos hup, if_pos huq]
    · by_cases hup : Unlabelled S p
      · rw [if_pos hup, if_pos (hlists.unlabelled.mp hup)]
      · rw [if_neg hup, if_neg (mt hlists.unlabelled.mpr hup), Option.some.injEq]
        obtain ⟨hpacks, hproviders, hcredentials, hpermissions⟩ := hlists.listed (S := S) h input
        unfold answerOf
        rw [statusOf_same h hp hq hlists hstatus, about_planfile, about_planfile, hschedule,
          same_approvals h hp hq, hpacks, hproviders, hcredentials, hpermissions]

end PlanCheck

end OpenLagrange
