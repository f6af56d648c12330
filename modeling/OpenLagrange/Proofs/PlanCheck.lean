/-
Plan Check against what creating a run does.

The documentation says that a runnable plan can create a run, and that fixture and mock
modes in a live run are unsafe.  The check leaves missing approvals out of the errors,
knows only the capabilities its caller mentions, and asks whether a plan is unsafe only
when it is invalid already.  Creating the run asks the validator again, about the plan
rewritten for live execution and with the capabilities a live run may use.

So a plan the check lets pass starts exactly if it is `Startable`.  That a blocking
report keeps everything from being written holds without further conditions.
-/
import OpenLagrange.Planning.PlanCheck
import OpenLagrange.Proofs.ValidatorReads
import OpenLagrange.Proofs.Runner

namespace OpenLagrange

/-! ### The issues of a plan, by what they are about -/

/-- An error that is not about a missing approval. -/
def PlanValidationIssue.Hard (issue : PlanValidationIssue) : Prop :=
  issue.severity = .error ∧ issue.code ≠ .approvalRequired

theorem hard_planIssue {code : PlanIssueCode} {message : String} {path : List String}
    (h : code ≠ .approvalRequired) : (planIssue code message path).Hard := ⟨rfl, h⟩

variable {P : Platform} {plan : Planfile} {snapshot : Option CapabilitySnapshot}

theorem hard_of_nodeIdIssues {nodes : List PlanNode} {seen : List String} :
    ∀ issue ∈ nodeIdIssues seen nodes, issue.Hard := by
  induction nodes generalizing seen with
  | nil => simp [nodeIdIssues]
  | cons node rest ih =>
      intro issue hissue
      unfold nodeIdIssues at hissue
      rcases List.mem_append.mp hissue with h12 | h3
      · rcases List.mem_append.mp h12 with h1 | h2
        · split at h1
          · cases h1
          · rw [List.mem_singleton.mp h1]
            exact hard_planIssue (by decide)
        · split at h2
          · rw [List.mem_singleton.mp h2]
            exact hard_planIssue (by decide)
          · cases h2
      · exact ih issue h3

theorem hard_of_dependencyIssues : ∀ issue ∈ dependencyIssues plan, issue.Hard := by
  intro issue hissue
  rcases List.mem_append.mp hissue with h | h
  · obtain ⟨node, -, hin⟩ := List.mem_flatMap.mp h
    obtain ⟨d, -, rfl⟩ := List.mem_map.mp hin
    exact hard_planIssue (by decide)
  · obtain ⟨edge, -, rfl⟩ := List.mem_map.mp h
    exact hard_planIssue (by decide)

theorem hard_of_graphIssues : ∀ issue ∈ graphIssues plan, issue.Hard := by
  intro issue hissue
  rcases List.mem_append.mp hissue with h | h
  · split at h
    · rw [List.mem_singleton.mp h]
      exact hard_planIssue (by decide)
    · cases h
  · obtain ⟨node, -, rfl⟩ := List.mem_map.mp h
    exact hard_planIssue (by decide)

theorem hard_of_capabilityIssues : ∀ issue ∈ capabilityIssues plan snapshot, issue.Hard := by
  intro issue hissue
  cases snapshot with
  | none => cases hissue
  | some snapshot =>
      obtain ⟨node, -, hin⟩ := List.mem_flatMap.mp hissue
      obtain ⟨ref, -, rfl⟩ := List.mem_map.mp hin
      exact hard_planIssue (by decide)

/-- Whether the risk of a node asks for an approval that the node does not. -/
def lacksApproval (plan : Planfile) (node : PlanNode) : Prop :=
  (node.riskLevel ∈ plan.approvalPolicy.requireApprovalForRisks ∨ node.riskLevel ∈ writeRisks) ∧
    ¬ node.approvalRequired = true

instance (plan : Planfile) (node : PlanNode) : Decidable (lacksApproval plan node) :=
  inferInstanceAs (Decidable (_ ∧ _))

/-- An issue of a node is hard, or is about the approval it lacks. -/
theorem hard_or_lacksApproval {node : PlanNode} {issue : PlanValidationIssue}
    (h : issue ∈ policyIssues plan node) :
    issue.Hard ∨ (issue.severity = .error ∧ lacksApproval plan node) := by
  unfold policyIssues at h
  simp only [List.mem_append] at h
  rcases h with ((((h | h) | h) | h) | h) | h
  · split at h
    · rw [List.mem_singleton.mp h]
      exact Or.inl (hard_planIssue (by decide))
    · cases h
  · split at h
    · rw [List.mem_singleton.mp h]
      exact Or.inl (hard_planIssue (by decide))
    · cases h
  · split at h
    · rename_i hlacks
      rw [List.mem_singleton.mp h]
      exact Or.inr ⟨rfl, hlacks⟩
    · cases h
  · split at h
    · rw [List.mem_singleton.mp h]
      exact Or.inl (hard_planIssue (by decide))
    · cases h
  · split at h
    · obtain ⟨commandId, -, rfl⟩ := List.mem_map.mp h
      exact Or.inl (hard_planIssue (by decide))
    · cases h
  · split at h
    · rw [List.mem_singleton.mp h]
      exact Or.inl (hard_planIssue (by decide))
    · cases h

/-- A node that lacks an approval has an issue. -/
theorem policyIssues_ne_nil {node : PlanNode} (h : lacksApproval plan node) :
    policyIssues plan node ≠ [] := by
  intro hnil
  unfold policyIssues at hnil
  simp only [List.append_eq_nil_iff] at hnil
  have hissue := hnil.1.1.1.2
  unfold lacksApproval at h
  rw [if_pos h] at hissue
  cases hissue

theorem severity_of_planIssues : ∀ issue ∈ planIssues plan snapshot, issue.severity = .error := by
  intro issue hissue
  unfold planIssues at hissue
  simp only [List.mem_append] at hissue
  rcases hissue with (((h | h) | h) | h) | h
  · exact (hard_of_nodeIdIssues issue h).1
  · exact (hard_of_dependencyIssues issue h).1
  · exact (hard_of_graphIssues issue h).1
  · exact (hard_of_capabilityIssues issue h).1
  · obtain ⟨node, -, hin⟩ := List.mem_flatMap.mp h
    rcases hard_or_lacksApproval hin with hhard | ⟨hsev, -⟩
    · exact hhard.1
    · exact hsev

/-- **A plan of the right shape is accepted exactly if it has no issue.** -/
theorem validatePlanfile_ok (hrefined : plan.refined P.isDatetime = true) :
    (validatePlanfile P snapshot plan).ok = true ↔ planIssues plan snapshot = [] := by
  rw [validatePlanfile_refined hrefined]
  constructor
  · intro h
    rw [List.eq_nil_iff_forall_not_mem]
    intro issue hissue
    have hne : issue.severity ≠ .error := by simpa using List.all_eq_true.mp h issue hissue
    exact hne (severity_of_planIssues issue hissue)
  · intro h
    rw [h]
    rfl

/-! ### A plan without hard issues -/

/-- The capabilities a live run may use include every one the plan refers to. -/
def KnownToRun (P : Platform) (plan : Planfile) (now : String) : Prop :=
  ∀ ref ∈ plan.capabilityRefs, ref ∈ capabilityReferenceSet (readSnapshot P plan.capabilityRefs now)

theorem capabilityIssues_nil {snapshot : CapabilitySnapshot} :
    capabilityIssues plan (some snapshot) = [] ↔
      ∀ ref ∈ plan.capabilityRefs, ref ∈ capabilityReferenceSet snapshot := by
  unfold capabilityIssues Planfile.capabilityRefs
  simp only [List.flatMap_eq_nil_iff, List.map_eq_nil_iff, List.filter_eq_nil_iff,
    decide_eq_true_eq, not_not, List.mem_flatMap]
  constructor
  · rintro h ref ⟨node, hnode, href⟩
    exact h node hnode ref href
  · intro h node hnode ref href
    exact h ref ⟨node, hnode, href⟩

/-- No issue is hard. -/
def NoHardIssue (plan : Planfile) (snapshot : Option CapabilitySnapshot) : Prop :=
  ∀ issue ∈ planIssues plan snapshot, ¬ issue.Hard

/-- Issues that are all hard are absent where none is. -/
theorem nil_of_noHard {issues : List PlanValidationIssue} (hhard : ∀ issue ∈ issues, issue.Hard)
    (hnone : ∀ issue ∈ issues, ¬ issue.Hard) : issues = [] := by
  rw [List.eq_nil_iff_forall_not_mem]
  intro issue hissue
  exact hnone issue hissue (hhard issue hissue)

/-- **Without hard issues, what stands between a plan and a snapshot are the approvals its
nodes lack and the capabilities the snapshot does not list.** -/
theorem planIssues_nil_of_noHard {snapshot' : CapabilitySnapshot}
    (h : NoHardIssue plan snapshot) :
    planIssues plan (some snapshot') = [] ↔
      (∀ node ∈ plan.nodes, ¬ lacksApproval plan node) ∧
        ∀ ref ∈ plan.capabilityRefs, ref ∈ capabilityReferenceSet snapshot' := by
  unfold NoHardIssue planIssues at h
  simp only [List.mem_append] at h
  have hids : nodeIdIssues [] plan.nodes = [] :=
    nil_of_noHard hard_of_nodeIdIssues fun issue hi => h issue (Or.inl (Or.inl (Or.inl (Or.inl hi))))
  have hdeps : dependencyIssues plan = [] :=
    nil_of_noHard hard_of_dependencyIssues fun issue hi =>
      h issue (Or.inl (Or.inl (Or.inl (Or.inr hi))))
  have hgraph : graphIssues plan = [] :=
    nil_of_noHard hard_of_graphIssues fun issue hi => h issue (Or.inl (Or.inl (Or.inr hi)))
  unfold planIssues
  rw [hids, hdeps, hgraph]
  simp only [List.nil_append, List.append_eq_nil_iff]
  rw [capabilityIssues_nil, List.flatMap_eq_nil_iff]
  constructor
  · rintro ⟨hcaps, hpolicy⟩
    refine ⟨?_, hcaps⟩
    intro node hnode hlacks
    exact policyIssues_ne_nil hlacks (hpolicy node hnode)
  · rintro ⟨happrovals, hcaps⟩
    refine ⟨hcaps, ?_⟩
    intro node hnode
    refine nil_of_noHard ?_ fun issue hi => h issue (Or.inr (List.mem_flatMap.mpr ⟨node, hnode, hi⟩))
    intro issue hissue
    rcases hard_or_lacksApproval hissue with hhard | ⟨-, hlacks⟩
    · exact hhard
    · exact absurd hlacks (happrovals node hnode)

/-! ### The plan a live run is created for -/

/-- What a plan becomes when a live run of it is requested. -/
theorem requestedPlan_live {live : Planfile} {now : String}
    (h : requestedPlan P plan (some true) now = .done live) :
    live.planId = plan.planId ∧ live.capabilityRefs = plan.capabilityRefs ∧ SamePlan live plan ∧
      ∃ rewritten : Planfile, rewritten.refined P.isDatetime = true ∧
        live = withCanonicalPlanDigest P.sha256 rewritten := by
  unfold requestedPlan liveExecutionPlan parsePlanfile at h
  split at h
  · simp only [Prog.pure_eq, Prog.bind_eq, Prog.done_bind] at h
    split at h
    · simp only [Prog.done_bind, if_true] at h
      split at h
      · rename_i hrefined
        simp only [Prog.done_bind, Prog.done.injEq] at h
        subst h
        refine ⟨rfl, ?_, ?_, _, hrefined, rfl⟩
        · unfold Planfile.capabilityRefs
          rw [withCanonicalPlanDigest_nodes]
          simp only [livePlan, List.flatMap_map]
          rfl
        · have hsame := samePlan_livePlan { plan with status := .validated, updatedAt := now } now
          exact ⟨hsame.nodes, rfl, rfl, rfl, rfl, rfl⟩
      · cases h
    · cases h
  · cases h

/-- Putting a digest into a plan keeps its shape. -/
theorem refined_withDigest {isDatetime : String → Bool} {sha256 : String → String}
    (hsha : ∀ text, isSha256Hex (sha256 text) = true) (hrefined : plan.refined isDatetime = true) :
    (withCanonicalPlanDigest sha256 plan).refined isDatetime = true := by
  unfold Planfile.refined at hrefined ⊢
  simp only [Bool.and_eq_true] at hrefined ⊢
  exact ⟨hrefined.1, hsha _⟩

/-- Preparing a run throws only the validation error. -/
theorem prepareRunState_fail {now runId : String} :
    (∃ message, prepareRunState P plan runId now = .fail message) ↔
      (validatePlanfile P (some (readSnapshot P plan.capabilityRefs now)) plan).ok ≠ true := by
  unfold prepareRunState
  constructor
  · rintro ⟨message, h⟩ hok
    rw [if_pos hok] at h
    cases h
  · intro hok
    rw [if_neg hok]
    exact ⟨_, rfl⟩

namespace PlanCheck

variable {S : CheckPlatform} {input : RunPlanCheckInput}

/-! ### What the check lets pass -/

/-- The plan has the right shape and no hard issue, and nothing it requires is missing. -/
structure Ready (S : CheckPlatform) (input : RunPlanCheckInput) : Prop where
  schema : input.planfile.refined S.isDatetime = true
  noHardIssue : NoHardIssue input.planfile (snapshotOptions S input)
  nothingMissing : ∃ requirements, requirementsOf S input = some requirements ∧
    requirements.all.any RequirementStatus.blocks = false

theorem hardValidationErrors_nil (hrefined : input.planfile.refined S.isDatetime = true) :
    hardValidationErrors S input = [] ↔ NoHardIssue input.planfile (snapshotOptions S input) := by
  unfold hardValidationErrors checkValidation NoHardIssue
  rw [validatePlanfile_refined hrefined, List.filter_eq_nil_iff]
  simp only [decide_eq_true_eq]
  rfl

theorem statusOf_blocks {missingRequired : Bool} :
    (statusOf S input missingRequired = .runnable ∨
        statusOf S input missingRequired = .runnableWithWarnings) ↔
      hardValidationErrors S input = [] ∧ missingRequired = false := by
  unfold statusOf
  simp only
  by_cases hhard : hardValidationErrors S input = []
  · rw [hhard]
    cases missingRequired with
    | true => simp
    | false =>
        simp only [List.length_nil, gt_iff_lt, lt_irrefl, if_false, Bool.false_eq_true]
        split <;> simp
  · have hpos : (hardValidationErrors S input).length > 0 := List.length_pos_iff.mpr hhard
    rw [if_pos hpos]
    split <;> simp [hhard]

/-- **A plan passes the check exactly if it is ready.** -/
theorem passes_iff {rawDigest : String} :
    (∃ report, runPlanCheck S rawDigest input = some report ∧
      (report.status = .runnable ∨ report.status = .runnableWithWarnings)) ↔ Ready S input := by
  unfold runPlanCheck
  by_cases hrefined : input.planfile.refined S.isDatetime = true
  · rw [if_pos hrefined]
    constructor
    · rintro ⟨report, hreport, hstatus⟩
      cases hreqs : requirementsOf S input with
      | none =>
          rw [hreqs] at hreport
          cases hreport
      | some requirements =>
          rw [hreqs] at hreport
          have hreport := Option.some.inj hreport
          subst hreport
          obtain ⟨hhard, hmissing⟩ := statusOf_blocks.mp hstatus
          exact ⟨hrefined, (hardValidationErrors_nil hrefined).mp hhard, requirements, hreqs, hmissing⟩
    · rintro ⟨-, hhard, requirements, hreqs, hmissing⟩
      rw [hreqs]
      refine ⟨_, rfl, ?_⟩
      exact statusOf_blocks.mpr ⟨(hardValidationErrors_nil hrefined).mpr hhard, hmissing⟩
  · rw [if_neg hrefined]
    constructor
    · rintro ⟨report, hreport, hstatus⟩
      rw [← Option.some.inj hreport] at hstatus
      rcases hstatus with h | h <;> cases h
    · intro h
      exact absurd h.schema hrefined

/-! ### What the run needs -/

/-- A live run of the plan can be created: no node asks for fixtures or mocks, none lacks an
approval, and the capabilities it refers to are among those a live run may use. -/
structure Startable (P : Platform) (plan : Planfile) : Prop where
  modes : ∀ node ∈ plan.nodes,
    node.executionMode ≠ some .fixture ∧ node.executionMode ≠ some .mock
  approvals : ∀ now live, requestedPlan P plan (some true) now = .done live →
    ∀ node ∈ plan.nodes, ¬ lacksApproval plan node
  capabilities : ∀ now live, requestedPlan P plan (some true) now = .done live →
    KnownToRun P plan now

/-- A plan that passes the check can be created as a live run without a validation error, and
asks for no fixture or mock. -/
def Sound (S : CheckPlatform) (input : RunPlanCheckInput) : Prop :=
  ∀ rawDigest report, runPlanCheck S rawDigest input = some report →
    report.status = .runnable ∨ report.status = .runnableWithWarnings →
    (∀ now live, requestedPlan S.toPlatform input.planfile (some true) now = .done live →
      ∀ runId message, prepareRunState S.toPlatform live runId now ≠ .fail message) ∧
    ∀ node ∈ input.planfile.nodes,
      node.executionMode ≠ some .fixture ∧ node.executionMode ≠ some .mock

/-- Creating the run of a ready plan throws exactly if an approval or a capability is lacking. -/
theorem prepareRunState_ready (hsha : ∀ text, isSha256Hex (S.sha256 text) = true)
    (hready : Ready S input) {now : String} {live : Planfile}
    (hlive : requestedPlan S.toPlatform input.planfile (some true) now = .done live) :
    (∀ runId message, prepareRunState S.toPlatform live runId now ≠ .fail message) ↔
      (∀ node ∈ input.planfile.nodes, ¬ lacksApproval input.planfile node) ∧
        KnownToRun S.toPlatform input.planfile now := by
  obtain ⟨-, hrefs, hsame, rewritten, hrewritten, hlive'⟩ := requestedPlan_live hlive
  have hrefined : live.refined S.isDatetime = true := hlive' ▸ refined_withDigest hsha hrewritten
  have hok : (validatePlanfile S.toPlatform
      (some (readSnapshot S.toPlatform live.capabilityRefs now)) live).ok = true ↔
      (∀ node ∈ input.planfile.nodes, ¬ lacksApproval input.planfile node) ∧
        KnownToRun S.toPlatform input.planfile now := by
    rw [validatePlanfile_ok hrefined, planIssues_same hsame, hrefs]
    exact planIssues_nil_of_noHard hready.noHardIssue
  rw [← hok]
  constructor
  · intro h
    by_contra hne
    obtain ⟨message, hfail⟩ := prepareRunState_fail.mpr hne
    exact h "" message hfail
  · intro h runId message hfail
    exact prepareRunState_fail.mp ⟨message, hfail⟩ h

theorem sound_iff (hsha : ∀ text, isSha256Hex (S.sha256 text) = true) :
    Sound S input ↔ (Ready S input → Startable S.toPlatform input.planfile) := by
  constructor
  · intro hsound hready
    obtain ⟨report, hreport, hstatus⟩ := (@passes_iff S input "").mpr hready
    obtain ⟨hstarts, hmodes⟩ := hsound "" report hreport hstatus
    refine ⟨hmodes, ?_, ?_⟩
    · intro now live hlive
      exact ((prepareRunState_ready hsha hready hlive).mp (hstarts now live hlive)).1
    · intro now live hlive
      exact ((prepareRunState_ready hsha hready hlive).mp (hstarts now live hlive)).2
  · intro hstartable rawDigest report hreport hstatus
    have hready : Ready S input := passes_iff.mp ⟨report, hreport, hstatus⟩
    have hstart := hstartable hready
    refine ⟨?_, hstart.modes⟩
    intro now live hlive
    exact (prepareRunState_ready hsha hready hlive).mpr
      ⟨hstart.approvals now live hlive, hstart.capabilities now live hlive⟩

/-! ### What is checked before a run is created -/

/-- The plan the check is asked about when a run is requested at `now`. -/
def checkedPlan (S : CheckPlatform) (request : CheckAndCreateInput) (now : String) : Planfile :=
  withCanonicalPlanDigest S.sha256
    { request.planfile with status := .validated, updatedAt := now }

/-- The report on a request made at `now`. -/
def requestReport (S : CheckPlatform) (request : CheckAndCreateInput) (now : String) :
    Option PlanCheckReport :=
  runPlanCheck S "" (createCheckInput S (checkedPlan S request now) request now)

/-- What the request does once it has a time. -/
def checkAndCreateAt (S : CheckPlatform) (request : CheckAndCreateInput) (now : String) :
    Program CheckAndCreateRunResult := do
  let parsed ← parsePlanfile S.toPlatform request.planfile
  let base ← parsePlanfile S.toPlatform { parsed with status := .validated, updatedAt := now }
  let plan := withCanonicalPlanDigest S.sha256 base
  match runPlanCheck S "" (createCheckInput S plan request now) with
  | none => .fail S.labelIssue
  | some report =>
      if planCheckBlocksRun report then
        pure (.blocked report ("Plan Check blocked run creation: " ++ report.status.text ++ "."))
      else do
        let run ← createRunFromPlanfile S.toPlatform (createRunInput plan request now)
        pure (.created report run ("Run created: " ++ run.runId))

theorem checkAndCreate_eq {request : CheckAndCreateInput} :
    checkAndCreateRunFromPlanfile S request = (nowOr request.now).bind (checkAndCreateAt S request) :=
  rfl

/-- A request that is blocked calls nothing. -/
theorem checkAndCreateAt_blocked {request : CheckAndCreateInput} {now : String}
    {report : PlanCheckReport} (hreport : requestReport S request now = some report)
    (hblocks : planCheckBlocksRun report = true) :
    (∃ result, checkAndCreateAt S request now = .done result) ∨
      ∃ message, checkAndCreateAt S request now = .fail message := by
  unfold requestReport checkedPlan at hreport
  unfold checkAndCreateAt parsePlanfile
  split
  · simp only [Prog.pure_eq, Prog.bind_eq, Prog.done_bind]
    split
    · simp only [Prog.done_bind]
      rw [hreport]
      simp only [hblocks, if_true]
      exact Or.inl ⟨_, rfl⟩
    · exact Or.inr ⟨_, rfl⟩
  · exact Or.inr ⟨_, rfl⟩

theorem blocked_reads_clock {env : Env} {w : World} {request : CheckAndCreateInput} {now : String}
    {report : PlanCheckReport}
    (hnow : (Prog.exec (handle S.toPlatform env) (nowOr request.now) w).outcome = .ok now)
    (hreport : requestReport S request now = some report)
    (hblocks : planCheckBlocksRun report = true) :
    ∀ c ∈ (Prog.exec (handle S.toPlatform env) (checkAndCreateRunFromPlanfile S request) w).trace,
      c.2 = .clock := by
  have hsilent : ∀ w' : World, (Prog.exec (handle S.toPlatform env)
      (checkAndCreateAt S request now) w').trace = [] := by
    intro w'
    rcases checkAndCreateAt_blocked hreport hblocks with ⟨result, h⟩ | ⟨message, h⟩
    · rw [h, Prog.exec_done]
    · rw [h, Prog.exec_fail]
  rw [checkAndCreate_eq]
  cases hgiven : request.now with
  | some given =>
      have hsame : given = now := by
        rw [hgiven] at hnow
        exact Except.ok.inj hnow
      subst hsame
      show ∀ c ∈ (Prog.exec (handle S.toPlatform env) (checkAndCreateAt S request given) w).trace,
        c.2 = .clock
      rw [hsilent]
      simp
  | none =>
      rw [hgiven] at hnow
      have hclock : (handle S.toPlatform env .clock w).1 = .ok now := by
        simpa [nowOr] using hnow
      have hanswer : handle S.toPlatform env .clock w =
          (.ok now, (handle S.toPlatform env .clock w).2) := Prod.ext hclock rfl
      show ∀ c ∈ (Prog.exec (handle S.toPlatform env)
        ((Prog.perform Call.clock).bind (checkAndCreateAt S request)) w).trace, c.2 = .clock
      rw [Prog.exec_perform_bind_ok (handle S.toPlatform env) (checkAndCreateAt S request) hanswer,
        hsilent]
      simp

/-- **Plan Check is sound for the plans that can start, and a blocking report keeps everything
from being written.**  A report of a live run that does not block is followed by a run without a
validation error, and without fixtures and mocks, exactly if the plan is startable. -/
theorem planCheck_sound (S : CheckPlatform) (hsha : ∀ text, isSha256Hex (S.sha256 text) = true) :
    (∀ input : RunPlanCheckInput, input.live = some true →
      (Sound S input ↔ (Ready S input → Startable S.toPlatform input.planfile))) ∧
    ∀ (env : Env) (w : World) (request : CheckAndCreateInput) (now : String)
      (report : PlanCheckReport),
      (Prog.exec (handle S.toPlatform env) (nowOr request.now) w).outcome = .ok now →
      requestReport S request now = some report → planCheckBlocksRun report = true →
      ∀ c ∈ (Prog.exec (handle S.toPlatform env)
        (checkAndCreateRunFromPlanfile S request) w).trace, c.2 = .clock :=
  ⟨fun _ _ => sound_iff hsha, fun _ _ _ _ _ => blocked_reads_clock⟩

/-! ### A plan that passes and does not start -/

def sampleCheckPlatform : CheckPlatform :=
  { samplePlatform with
    packIds := [], upperCase := fun c => c.toUpper.toString, labelIssue := "Too small" }

/-- One node of the given risk that asks for no approval. -/
def riskyPlan (risk : RiskLevel) : Planfile :=
  samplePlan [{ sampleNode "first" .frame [] with riskLevel := risk }]

def sampleCheckInput : RunPlanCheckInput :=
  ⟨riskyPlan .write, none, none, none, some true, "2026-01-01T00:00:00Z"⟩

def sampleRequest : CheckAndCreateInput where
  planfile := riskyPlan .destructive
  live := some true
  outputDir := none
  runId := none
  now := none
  runtimeProfile := none

theorem sampleDigest_hex : ∀ text, isSha256Hex (sampleCheckPlatform.sha256 text) = true := by
  intro text
  show isSha256Hex sampleDigest = true
  decide

/-- A plan that asks for no approval passes the check, and creating its run throws; a plan that
is blocked is not created. -/
theorem sampleCheckInput_sound :
    (Sound sampleCheckPlatform sampleCheckInput ↔ (Ready sampleCheckPlatform sampleCheckInput →
      Startable sampleCheckPlatform.toPlatform (riskyPlan .write))) ∧
    ∀ c ∈ (Prog.exec (handle sampleCheckPlatform.toPlatform sampleEnv)
      (checkAndCreateRunFromPlanfile sampleCheckPlatform sampleRequest) World.empty).trace,
      c.2 = .clock := by
  have hblocked : (requestReport sampleCheckPlatform sampleRequest
      "2026-01-01T00:00:00Z").any planCheckBlocksRun = true := by decide
  obtain ⟨report, hreport, hblocks⟩ := (Option.any_eq_true _ _).mp hblocked
  exact ⟨(planCheck_sound sampleCheckPlatform sampleDigest_hex).1 sampleCheckInput rfl,
    (planCheck_sound sampleCheckPlatform sampleDigest_hex).2 sampleEnv World.empty sampleRequest
      "2026-01-01T00:00:00Z" report rfl hreport hblocks⟩

/-- A plan passes the check and its run is refused. -/
theorem sampleCheckInput_not_sound :
    ¬ ∀ (S : CheckPlatform) (input : RunPlanCheckInput),
      (∀ text, isSha256Hex (S.sha256 text) = true) → input.live = some true → Sound S input := by
  intro hall
  have hsound := hall sampleCheckPlatform sampleCheckInput sampleDigest_hex rfl
  have hpasses : (runPlanCheck sampleCheckPlatform "" sampleCheckInput).any
      (·.status = .runnableWithWarnings) = true := by decide
  obtain ⟨report, hreport, hstatus⟩ := (Option.any_eq_true _ _).mp hpasses
  obtain ⟨hstarts, -⟩ := hsound "" report hreport (Or.inr (of_decide_eq_true hstatus))
  have hfail : ∃ message, prepareRunState samplePlatform
      (withCanonicalPlanDigest samplePlatform.sha256 (livePlan (withCanonicalPlanDigest
        samplePlatform.sha256 { riskyPlan .write with
          status := .validated, updatedAt := "2026-01-01T00:00:00Z" }) "2026-01-01T00:00:00Z"))
      "run" "2026-01-01T00:00:00Z" = .fail message :=
    prepareRunState_fail.mpr (by decide)
  obtain ⟨message, hmessage⟩ := hfail
  exact hstarts "2026-01-01T00:00:00Z" _ (by rfl) "run" message hmessage

end PlanCheck

end OpenLagrange
