/-
What the nodes of a repository run do.

The code of a node writes the status, but it leaves the course of the run alone: which node is
the current one, the state of the plan, and whether the run is running.  Of its other calls three
kinds matter to the results about runs: deciding on a repair, asking for a patch plan, and
applying one.  Most parts of the code of a node make none of them; they go aside, and they leave
the list of the repairs alone.
-/
import OpenLagrange.Proofs.Runner
import OpenLagrange.Repository.RepositoryPlanRunner

namespace OpenLagrange

open RepositoryPlanRunner

/-! ### The calls of a node -/

/-- Two statuses that agree on the course of the run. -/
structure RepositoryPlanStatus.SameCourse (before after : RepositoryPlanStatus) : Prop where
  status : after.status = before.status
  currentNode : after.currentNode = before.currentNode
  planState : after.planState = before.planState

/-- What the code of a node may call while the status is `c`, as far as the course goes. -/
def NodeCall (c : RepositoryPlanStatus) : RepositoryCall → Prop
  | .writeStatus status => c.SameCourse status
  | .persistExecutionCopy _ | .recordPlanState _ | .readVerification _ | .readPatchArtifact _
  | .exportFinalPatch _ | .registerArtifacts _ => False
  | _ => True

/-- The decision on a repair that a call records. -/
def RepositoryCall.attempt : RepositoryCall → Option RepairAttempt
  | .recordArtifact _ _ (.repair attempt) => some attempt
  | _ => none

/-- A call that applies a repair patch. -/
def RepositoryCall.appliesRepair : RepositoryCall → Bool
  | .applyPatchPlan .repair _ _ _ => true
  | _ => false

/-- A call that asks for a repair patch, or applies one. -/
def RepositoryCall.repairs : RepositoryCall → Bool
  | .generatePatchPlan input => input.mode = .repair
  | call => call.appliesRepair

/-- Asking for a patch plan, applying one. -/
def RepositoryCall.patches : RepositoryCall → Bool
  | .generatePatchPlan _ | .applyPatchPlan _ _ _ _ => true
  | _ => false

/-- What the code of a node that is no repair node may call. -/
def PlainCall (c : RepositoryPlanStatus) (call : RepositoryCall) : Prop :=
  NodeCall c call ∧ call.attempt = none ∧ call.repairs = false

/-- What the code of a repair node may call once the decision is recorded. -/
def RepairCall (c : RepositoryPlanStatus) (call : RepositoryCall) : Prop :=
  NodeCall c call ∧ call.attempt = none

def AsideCall (c : RepositoryPlanStatus) (call : RepositoryCall) : Prop :=
  NodeCall c call ∧ call.attempt = none ∧ call.patches = false

theorem PlainCall.repair {c : RepositoryPlanStatus} {call : RepositoryCall} (h : PlainCall c call) :
    RepairCall c call := ⟨h.1, h.2.1⟩

theorem AsideCall.plain {c : RepositoryPlanStatus} {call : RepositoryCall} (h : AsideCall c call) :
    PlainCall c call := by
  refine ⟨h.1, h.2.1, ?_⟩
  obtain ⟨-, -, hpatches⟩ := h
  cases call with
  | generatePatchPlan input => cases hpatches
  | applyPatchPlan mode workspace plan policy => cases hpatches
  | _ => rfl

/-- A repair patch that is tried is applied, if `p` asks for it. -/
def RepairsApply (p : Prop) : (call : RepositoryCall) → RepositoryAnswer call → Prop
  | .applyPatchPlan .repair _ _ _, outcome => p → outcome.applyStatus = .applied
  | _, _ => True

/-- The status and the repairs that a part of a node finds. -/
structure Course where
  status : RepositoryPlanStatus
  repairs : List RepairAttempt

variable {P : RepositoryPlatform} {o : RepositoryPlanRunnerOptions} {r : RepositoryRunner}
  {c : Course} {x : Execution} {node : PlanNode} {workspace : RepositoryWorkspace}
  {ψ : (call : RepositoryCall) → RepositoryAnswer call → Prop} {p : Prop}

/-- An execution that has kept the course. -/
structure OnCourse (c : Course) (x : Execution) : Prop where
  status : c.status.SameCourse x.status
  repairs : x.memory.repairs = c.repairs

/-- What is known of an execution depends on the status and the repairs alone. -/
theorem OnCourse.of_eq {y : Execution} (hx : OnCourse c x) (hstatus : y.status = x.status)
    (hrepairs : y.memory.repairs = x.memory.repairs) : OnCourse c y where
  status := by
    rw [hstatus]
    exact hx.status
  repairs := hrepairs.trans hx.repairs

/-- Every program can call and return something. -/
theorem obeys_any {α : Type} (program : RepositoryProgram α) :
    Prog.Obeys (fun _ => True) ψ (fun _ => True) program := by
  induction program with
  | done a => trivial
  | fail m => trivial
  | call e k ih => exact ⟨trivial, fun a _ => ih _, fun m => ih _⟩

/-! ### Going aside -/

/-- A program that goes aside and returns within `Q`. -/
abbrev Aside {α : Type} (c : Course) (ψ : (call : RepositoryCall) → RepositoryAnswer call → Prop)
    (Q : α → Prop) (program : RepositoryProgram α) : Prop :=
  Prog.Obeys (AsideCall c.status) ψ Q program

theorem aside_await {call : RepositoryCall} (hcall : AsideCall c.status call) :
    Aside c ψ (fun _ => True) (await call) :=
  Prog.obeys_perform hcall fun _ _ => trivial

theorem aside_writeStatus {patch : RepositoryPlanStatus → RepositoryPlanStatus}
    (hx : OnCourse c x) (hpatch : ∀ status : RepositoryPlanStatus, status.SameCourse (patch status)) :
    Aside c ψ (OnCourse c) (writeStatus x patch) := by
  unfold writeStatus
  refine Prog.obeys_bind (aside_await ⟨trivial, rfl, rfl⟩) fun updatedAt _ => ?_
  have hkept : c.status.SameCourse { patch x.status with updatedAt } :=
    ⟨(hpatch x.status).status.trans hx.status.status,
      (hpatch x.status).currentNode.trans hx.status.currentNode,
      (hpatch x.status).planState.trans hx.status.planState⟩
  exact Prog.obeys_bind (aside_await ⟨hkept, rfl, rfl⟩) fun _ _ =>
    Prog.obeys_done ⟨hkept, hx.repairs⟩

/-- Recording an artifact changes nothing else. -/
theorem recordArtifact_obeys {φ : RepositoryCall → Prop} {kind : RepositoryArtifactKind}
    {title summary : String} {content : ArtifactContent}
    (hcall : φ (.recordArtifact kind title content)) :
    Prog.Obeys φ ψ (fun made => made.2.status = x.status ∧ made.2.memory = x.memory)
      (recordArtifact x kind title summary content) := by
  unfold recordArtifact
  exact Prog.obeys_bind (Q := fun _ => True) (Prog.obeys_perform hcall fun _ _ => trivial)
    fun _ _ => Prog.obeys_done ⟨rfl, rfl⟩

theorem aside_recordArtifact {kind : RepositoryArtifactKind} {title summary : String}
    {content : ArtifactContent} (hx : OnCourse c x)
    (hcontent : (RepositoryCall.recordArtifact kind title content).attempt = none) :
    Aside c ψ (fun made => OnCourse c made.2) (recordArtifact x kind title summary content) := by
  refine (recordArtifact_obeys ⟨trivial, hcontent, rfl⟩).mono (fun _ h => h) (fun _ _ h => h) ?_
  rintro made ⟨hstatus, hmemory⟩
  exact hx.of_eq hstatus (congrArg (·.repairs) hmemory)

theorem aside_orNone {α : Type} (output : StepOutput (List α)) :
    Aside c ψ (fun _ => True) output.orNone := by
  cases output <;> trivial

theorem aside_orThrow {α : Type} (output : StepOutput α) :
    Aside c ψ (fun _ => True) output.orThrow := by
  cases output <;> trivial

theorem aside_readFiles {nodeId : String} (paths : List String) :
    Aside c ψ (fun _ => True) (readFiles nodeId paths) := by
  induction paths with
  | nil => trivial
  | cons path rest ih =>
      unfold readFiles
      refine Prog.obeys_bind (aside_await ⟨trivial, rfl, rfl⟩) fun output _ => ?_
      refine Prog.obeys_bind (aside_orThrow output) fun read _ => ?_
      exact Prog.obeys_bind ih fun _ _ => Prog.obeys_done trivial

theorem aside_collectEvidence : Aside c ψ (fun _ => True) (collectEvidence P o r workspace node) := by
  unfold collectEvidence collectEvidenceBundle
  refine Prog.obeys_bind (aside_await ⟨trivial, rfl, rfl⟩) fun listed _ => ?_
  refine Prog.obeys_bind (aside_orNone listed) fun files _ => ?_
  refine Prog.obeys_bind (aside_readFiles _) fun reads _ => ?_
  refine Prog.obeys_bind (aside_await ⟨trivial, rfl, rfl⟩) fun searched _ => ?_
  exact Prog.obeys_bind (aside_orNone searched) fun _ _ => Prog.obeys_done trivial

theorem aside_ensureEvidence {title : String} (hx : OnCourse c x) :
    Aside c ψ (fun made => OnCourse c made.2) (ensureEvidence P o r title workspace node x) := by
  unfold ensureEvidence
  cases x.memory.evidence with
  | some evidence => exact Prog.obeys_done hx
  | none =>
      refine Prog.obeys_bind aside_collectEvidence fun evidence _ => ?_
      refine Prog.obeys_bind (aside_recordArtifact (hx.of_eq rfl rfl) rfl) ?_
      rintro ⟨artifact, y⟩ hy
      exact Prog.obeys_bind (aside_writeStatus hy fun _ => ⟨rfl, rfl, rfl⟩) fun z hz =>
        Prog.obeys_done hz

theorem aside_handleScopeExpansion {patchPlan : RepositoryPatchPlan} {evidence : EvidenceBundle}
    (hx : OnCourse c x) :
    Aside c ψ (fun made => OnCourse c made.2)
      (handleScopeExpansionIfNeeded P r node patchPlan evidence x) := by
  unfold handleScopeExpansionIfNeeded
  cases patchPlan.requiresScopeExpansion with
  | false => exact Prog.obeys_done hx
  | true =>
      cases patchPlan.scopeExpansionRequest with
      | none =>
          refine Prog.obeys_bind (aside_recordArtifact hx rfl) ?_
          rintro ⟨artifact, y⟩ hy
          exact Prog.obeys_done hy
      | some request =>
          dsimp only
          cases scopeRequestOf P r node evidence request with
          | error message => exact Prog.obeys_fail
          | ok request =>
              refine Prog.obeys_bind (aside_await ⟨trivial, rfl, rfl⟩) fun approval _ => ?_
              refine Prog.obeys_bind (aside_recordArtifact hx rfl) ?_
              rintro ⟨artifact, y⟩ hy
              exact Prog.obeys_bind (aside_writeStatus hy fun _ => ⟨rfl, rfl, rfl⟩) fun z hz =>
                Prog.obeys_done hz

theorem aside_createPatchApproval {patchPlan : RepositoryPatchPlan} (hx : OnCourse c x) :
    Aside c ψ (fun made => OnCourse c made.2) (createPatchApproval node patchPlan x) := by
  unfold createPatchApproval
  refine Prog.obeys_bind (aside_await ⟨trivial, rfl, rfl⟩) fun decision _ => ?_
  exact aside_recordArtifact hx rfl

/-- A node whose patch plan is not applied has failed or yielded. -/
def RepositoryPlanRunner.ExaminedPatchPlan.Halts : ExaminedPatchPlan → Prop
  | .ended result => result.status = .failed ∨ result.status = .yielded
  | .accepted _ => True

theorem aside_examinePatchPlan {variant : PatchVariant} {evidence : EvidenceBundle}
    {lead : List PlanArtifactRef} {patchPlan : RepositoryPatchPlan} {policy : PatchPolicy}
    (hrefusal : variant.refusal = .failed ∨ variant.refusal = .yielded) (hx : OnCourse c x) :
    Aside c ψ (fun made => made.1.Halts ∧ OnCourse c made.2)
      (examinePatchPlan P r variant workspace node evidence lead patchPlan policy x) := by
  unfold examinePatchPlan
  refine Prog.obeys_bind (aside_recordArtifact (hx.of_eq rfl rfl) rfl) ?_
  rintro ⟨planArtifact, y⟩ hy
  refine Prog.obeys_bind (aside_handleScopeExpansion hy) ?_
  rintro ⟨scopeResult, z⟩ hz
  cases scopeResult with
  | some scope => exact Prog.obeys_done ⟨Or.inr rfl, hz.of_eq rfl rfl⟩
  | none =>
      refine Prog.obeys_bind (aside_await ⟨trivial, rfl, rfl⟩) fun validation _ => ?_
      refine Prog.obeys_bind (aside_recordArtifact hz rfl) ?_
      rintro ⟨validationArtifact, w⟩ hw
      have hkept := hw.of_eq (y := { w with
        memory := { w.memory with
          patchValidationReportIds :=
            w.memory.patchValidationReportIds ++ [validationArtifact.artifactId] } }) rfl rfl
      dsimp only
      cases validation.valid with
      | false => exact Prog.obeys_done ⟨hrefusal, hkept⟩
      | true =>
          cases validation.approvalRequired with
          | true =>
              refine Prog.obeys_bind (aside_createPatchApproval hkept) ?_
              rintro ⟨approvalArtifact, v⟩ hv
              exact Prog.obeys_done ⟨Or.inr rfl, hv⟩
          | false => exact Prog.obeys_done ⟨trivial, hkept⟩

theorem aside_verifyWorktree {title passed failed : String} {given : List String}
    (hx : OnCourse c x) :
    Aside c ψ (fun made => OnCourse c made.2)
      (verifyWorktree r title passed failed node given x) := by
  unfold verifyWorktree
  refine Prog.obeys_bind (aside_await ⟨trivial, rfl, rfl⟩) fun commands _ => ?_
  refine Prog.obeys_bind (aside_await ⟨trivial, rfl, rfl⟩) fun report _ => ?_
  exact aside_recordArtifact (hx.of_eq rfl rfl) rfl

/-! ### Asking for a patch plan -/

/-- A node that ends instead of being given a plan has failed or yielded. -/
def RepositoryPlanRunner.GeneratedPatchPlan.Halts : GeneratedPatchPlan → Prop
  | .ended result => result.status = .failed ∨ result.status = .yielded
  | .generated _ _ _ => True

theorem generatedPatchPlan_halts {evidence : EvidenceBundle} {policy : PatchPolicy}
    {artifact : RepositoryArtifact} (answer : Except String PatchPlanGeneration) :
    (generatedPatchPlan P evidence policy artifact answer).Halts := by
  rcases answer with message | (patchPlan | message)
  · exact Or.inl rfl
  · unfold generatedPatchPlan
    dsimp only
    split
    · split
      · exact Or.inr rfl
      · trivial
    · exact Or.inl rfl
  · exact Or.inr rfl

/-- A call whose throw is caught. -/
theorem attempt_obeys {φ : RepositoryCall → Prop} {call : RepositoryCall} (hcall : φ call) :
    Prog.Obeys φ ψ (fun _ => True) (await call).attempt :=
  (Prog.obeys_attempt (Prog.obeys_perform hcall fun _ _ => trivial)).mono (fun _ h => h)
    (fun _ _ h => h) fun _ _ => trivial

theorem generatePatchPlan_obeys {φ : RepositoryCall → Prop} {evidence : EvidenceBundle}
    {mode : PatchMode} {failures : Option (List VerificationFailure)} {diff : Option String}
    (haside : ∀ call, AsideCall c.status call → φ call)
    (hgenerate : ∀ input : GeneratePatchPlanFromEvidenceInput, input.mode = mode →
      φ (.generatePatchPlan input)) (hx : OnCourse c x) :
    Prog.Obeys φ ψ (fun made => made.1.Halts ∧ OnCourse c made.2)
      (generatePatchPlan P o r node evidence mode failures diff x) := by
  have hpass : ∀ {α : Type} {Q : α → Prop} {program : RepositoryProgram α}, Aside c ψ Q program →
      Prog.Obeys φ ψ Q program := fun h => h.mono haside (fun _ _ h => h) fun _ h => h
  unfold generatePatchPlan
  refine Prog.obeys_bind (hpass (aside_await ⟨trivial, rfl, rfl⟩)) fun workOrder _ => ?_
  refine Prog.obeys_bind (hpass (aside_recordArtifact hx rfl)) ?_
  rintro ⟨contextArtifact, y⟩ hy
  refine Prog.obeys_bind (attempt_obeys (hgenerate _ rfl)) fun answer _ => ?_
  exact Prog.obeys_done ⟨generatedPatchPlan_halts answer, hy⟩

/-! ### The nodes -/

/-- A node that goes on has no errors, if `p` holds. -/
def RepositoryNodeResult.Clean (p : Prop) (result : RepositoryNodeResult) : Prop :=
  result.status = .failed ∨ result.status = .yielded ∨ (p → result.errors = [])

/-- How a node ends: on course, and clean if `p` holds. -/
def EndsWell (c : Course) (p : Prop) (made : RepositoryNodeResult × Execution) : Prop :=
  made.1.Clean p ∧ OnCourse c made.2

theorem clean_of_halts {result : RepositoryNodeResult}
    (h : (ExaminedPatchPlan.ended result).Halts) : result.Clean p := by
  rcases h with h | h
  · exact Or.inl h
  · exact Or.inr (Or.inl h)

/-- A program that makes the calls of a node that is no repair node. -/
abbrev Plain {α : Type} (c : Course) (ψ : (call : RepositoryCall) → RepositoryAnswer call → Prop)
    (Q : α → Prop) (program : RepositoryProgram α) : Prop :=
  Prog.Obeys (PlainCall c.status) ψ Q program

/-- A program that makes the calls of a repair node after the decision. -/
abbrev Repairing {α : Type} (c : Course)
    (ψ : (call : RepositoryCall) → RepositoryAnswer call → Prop) (Q : α → Prop)
    (program : RepositoryProgram α) : Prop :=
  Prog.Obeys (RepairCall c.status) ψ Q program

theorem plain_of_aside {α : Type} {Q : α → Prop} {program : RepositoryProgram α}
    (h : Aside c ψ Q program) : Plain c ψ Q program :=
  h.mono (fun _ hcall => hcall.plain) (fun _ _ h => h) fun _ h => h

theorem repairing_of_aside {α : Type} {Q : α → Prop} {program : RepositoryProgram α}
    (h : Aside c ψ Q program) : Repairing c ψ Q program :=
  h.mono (fun _ hcall => hcall.plain.repair) (fun _ _ h => h) fun _ h => h

theorem plain_inspectNode (hx : OnCourse c x) :
    Plain c ψ (EndsWell c p) (inspectNode P o r workspace node x) := by
  refine plain_of_aside ?_
  unfold inspectNode
  refine Prog.obeys_bind aside_collectEvidence fun evidence _ => ?_
  refine Prog.obeys_bind (aside_recordArtifact (hx.of_eq rfl rfl) rfl) ?_
  rintro ⟨artifact, y⟩ hy
  exact Prog.obeys_done ⟨Or.inr (Or.inr fun _ => rfl), hy⟩

theorem plain_patchNode (hx : OnCourse c x) :
    Plain c ψ (EndsWell c p) (patchNode P o r workspace node x) := by
  unfold patchNode
  refine Prog.obeys_bind (plain_of_aside (aside_ensureEvidence hx)) ?_
  rintro ⟨evidence, y⟩ hy
  refine Prog.obeys_bind (generatePatchPlan_obeys (fun _ h => h.plain) (fun input hmode => ?_) hy) ?_
  · refine ⟨trivial, rfl, ?_⟩
    simp [RepositoryCall.repairs, hmode]
  rintro ⟨generated, z⟩ ⟨hgen, hz⟩
  cases generated with
  | ended result => exact Prog.obeys_done ⟨clean_of_halts hgen, hz⟩
  | generated patchPlan policy contextArtifact =>
      refine Prog.obeys_bind (plain_of_aside (aside_examinePatchPlan (Or.inl rfl) hz)) ?_
      rintro ⟨examined, w⟩ ⟨hex, hw⟩
      cases examined with
      | ended result => exact Prog.obeys_done ⟨clean_of_halts hex, hw⟩
      | accepted refs =>
          refine Prog.obeys_bind (plain_of_aside (aside_await ⟨trivial, rfl, rfl⟩)) fun _ _ => ?_
          refine Prog.obeys_bind (Q := fun _ => True)
            (Prog.obeys_perform ⟨trivial, rfl, rfl⟩ fun _ _ => trivial) fun outcome _ => ?_
          refine Prog.obeys_bind (plain_of_aside (aside_recordArtifact
            (x := Execution.keepPatch w outcome) (hw.of_eq rfl rfl) rfl)) ?_
          rintro ⟨artifact, v⟩ hv
          refine Prog.obeys_done ⟨?_, hv⟩
          by_cases happlied : outcome.applyStatus = .applied
          · have herrors := outcome.applied_iff.mp happlied
            exact Or.inr (Or.inr fun _ => by simp [herrors])
          · exact Or.inl (if_neg happlied)

theorem plain_verifyNode (hx : OnCourse c x) :
    Plain c ψ (EndsWell c p) (verifyNode r node x) := by
  refine plain_of_aside ?_
  unfold verifyNode
  refine Prog.obeys_bind (aside_verifyWorktree hx) ?_
  rintro ⟨artifact, y⟩ hy
  exact Prog.obeys_done ⟨Or.inr (Or.inr fun _ => rfl), hy⟩

theorem plain_reviewNode (hx : OnCourse c x) :
    Plain c ψ (EndsWell c p) (reviewNode P o r node x) := by
  unfold reviewNode
  refine Prog.obeys_bind (Q := fun _ => True) ?_ fun review _ => ?_
  · unfold reviewReport
    split
    · exact attempt_obeys ⟨trivial, rfl, rfl⟩
    · trivial
  · cases review with
    | error message => exact Prog.obeys_done ⟨Or.inl rfl, hx⟩
    | ok review =>
        refine Prog.obeys_bind (plain_of_aside (aside_recordArtifact (hx.of_eq rfl rfl) rfl)) ?_
        rintro ⟨artifact, y⟩ hy
        exact Prog.obeys_done ⟨Or.inr (Or.inr fun _ => rfl), hy⟩

/-- Working on a node that is no repair node. -/
theorem plain_runNode (hkind : node.kind ≠ .repair) (hx : OnCourse c x) :
    Plain c ψ (EndsWell c p) (runNode P o r node x) := by
  have hcompleted : EndsWell c p (⟨.completed, [], []⟩, x) := ⟨Or.inr (Or.inr fun _ => rfl), hx⟩
  unfold runNode
  split
  · exact Prog.obeys_done hcompleted
  · refine Prog.obeys_bind (plain_of_aside (aside_await ⟨trivial, rfl, rfl⟩)) fun workspace _ => ?_
    cases hnode : node.kind with
    | inspect => exact plain_inspectNode hx
    | patch => exact plain_patchNode hx
    | verify => exact plain_verifyNode hx
    | repair => exact (hkind hnode).elim
    | review => exact plain_reviewNode hx
    | _ => exact Prog.obeys_done hcompleted

/-- A repair is clean only where its patch is applied. -/
theorem repairing_attemptRepair {verification : RepositoryVerificationReport}
    {repair : RepairAttempt} {repairArtifact : RepositoryArtifact} (hx : OnCourse c x) :
    Repairing c (RepairsApply p) (EndsWell c p)
      (attemptRepair P o r workspace node verification repair repairArtifact x) := by
  unfold attemptRepair
  refine Prog.obeys_bind (repairing_of_aside (aside_ensureEvidence hx)) ?_
  rintro ⟨evidence, z⟩ hz
  refine Prog.obeys_bind (generatePatchPlan_obeys (fun _ h => h.plain.repair)
    (fun _ _ => ⟨trivial, rfl⟩) hz) ?_
  rintro ⟨generated, w⟩ ⟨-, hw⟩
  cases generated with
  | ended result => exact Prog.obeys_done ⟨Or.inr (Or.inl rfl), hw⟩
  | generated patchPlan policy contextArtifact =>
      refine Prog.obeys_bind (repairing_of_aside (aside_examinePatchPlan (Or.inr rfl) hw)) ?_
      rintro ⟨examined, v⟩ ⟨hex, hv⟩
      cases examined with
      | ended result => exact Prog.obeys_done ⟨clean_of_halts hex, hv⟩
      | accepted refs =>
          refine Prog.obeys_bind (Q := fun outcome => p → outcome.applyStatus = .applied)
            (Prog.obeys_perform ⟨trivial, rfl⟩ fun _ happlied => by
              simpa [RepairsApply] using happlied) fun outcome houtcome => ?_
          refine Prog.obeys_bind (repairing_of_aside (aside_recordArtifact
            (x := Execution.keepPatch v outcome) (hv.of_eq rfl rfl) rfl)) ?_
          rintro ⟨patchArtifact, u⟩ hu
          refine Prog.obeys_bind (repairing_of_aside (aside_verifyWorktree hu)) ?_
          rintro ⟨verifyArtifact, t⟩ ht
          refine Prog.obeys_done ⟨Or.inr (Or.inr fun hp => ?_), ht⟩
          have herrors := outcome.applied_iff.mp (houtcome hp)
          simp [herrors]

/-- A program that makes the calls of a node. -/
abbrev InNode {α : Type} (c : RepositoryPlanStatus)
    (ψ : (call : RepositoryCall) → RepositoryAnswer call → Prop) (Q : α → Prop)
    (program : RepositoryProgram α) : Prop :=
  Prog.Obeys (NodeCall c) ψ Q program

/-- How a node ends, as far as the status goes. -/
def EndsOn (c : RepositoryPlanStatus) (p : Prop) (made : RepositoryNodeResult × Execution) : Prop :=
  made.1.Clean p ∧ c.SameCourse made.2.status

theorem inNode_repairNode {c : RepositoryPlanStatus} (hx : c.SameCourse x.status) :
    InNode c (RepairsApply p) (EndsOn c p) (repairNode P o r workspace node x) := by
  unfold repairNode
  cases x.memory.verification with
  | none => exact Prog.obeys_done ⟨Or.inr (Or.inr fun _ => rfl), hx⟩
  | some verification =>
      dsimp only
      split
      · exact Prog.obeys_done ⟨Or.inr (Or.inr fun _ => rfl), hx⟩
      · refine Prog.obeys_bind (recordArtifact_obeys (φ := NodeCall c) trivial) ?_
        rintro ⟨repairArtifact, y⟩ ⟨hstatus, -⟩
        have hy : OnCourse ⟨c, y.memory.repairs⟩ y := by
          refine ⟨?_, rfl⟩
          show c.SameCourse y.status
          rw [hstatus]
          exact hx
        exact (repairing_attemptRepair hy).mono (fun _ h => h.1) (fun _ _ h => h)
          fun _ h => ⟨h.1, h.2.status⟩

/-- **Working on a node keeps the course of the run**, and a node that goes on has no errors
unless a repair patch was not applied. -/
theorem inNode_runNode {c : RepositoryPlanStatus} (hx : c.SameCourse x.status) :
    InNode c (RepairsApply p) (EndsOn c p) (runNode P o r node x) := by
  by_cases hkind : node.kind = .repair
  · unfold runNode
    rw [if_neg (by simp [hkind])]
    refine Prog.obeys_bind (Q := fun _ => True)
      (Prog.obeys_perform trivial fun _ _ => trivial) fun workspace _ => ?_
    rw [hkind]
    exact inNode_repairNode hx
  · have hcourse : OnCourse ⟨c, x.memory.repairs⟩ x := ⟨hx, rfl⟩
    exact (plain_runNode hkind hcourse).mono (fun _ h => h.1) (fun _ _ h => h)
      fun _ h => ⟨h.1, h.2.status⟩

/-! ### Marking -/

/-- The states that marking a node can record. -/
def MarkedFrom (P : RepositoryPlatform) (plan : Planfile) (state : PlanState) (nodeId : String)
    (status : PlanNodeStatus) (artifacts : List PlanArtifactRef) (errors : List String)
    (marked : PlanState) : Prop :=
  ∃ completedAt updatedAt, marked =
    markedRepositoryState P plan state nodeId status artifacts errors completedAt updatedAt

theorem markNode_obeys {φ : RepositoryCall → Prop} {state : PlanState} {status : PlanNodeStatus}
    {artifacts : List PlanArtifactRef} {errors : List String} (hclock : φ .clock)
    (hrecord : ∀ marked, MarkedFrom P r.plan state node.id status artifacts errors marked →
      φ (.recordPlanState marked)) :
    Prog.Obeys φ ψ (MarkedFrom P r.plan state node.id status artifacts errors)
      (markNode P r state node status artifacts errors) := by
  unfold markNode
  refine Prog.obeys_bind (Q := fun _ => True)
    (Prog.obeys_perform hclock fun _ _ => trivial) fun completedAt _ => ?_
  refine Prog.obeys_bind (Q := fun _ => True)
    (Prog.obeys_perform hclock fun _ _ => trivial) fun updatedAt _ => ?_
  have hmarked : MarkedFrom P r.plan state node.id status artifacts errors
      (markedRepositoryState P r.plan state node.id status artifacts errors completedAt updatedAt) :=
    ⟨completedAt, updatedAt, rfl⟩
  exact Prog.obeys_bind (Q := fun _ => True)
    (Prog.obeys_perform (hrecord _ hmarked) fun _ _ => trivial) fun _ _ => Prog.obeys_done hmarked

/-- The written status is the patched one, but for its time. -/
theorem writeStatus_obeys {φ : RepositoryCall → Prop}
    {patch : RepositoryPlanStatus → RepositoryPlanStatus} (hclock : φ .clock)
    (hwrite : ∀ updatedAt, φ (.writeStatus { patch x.status with updatedAt })) :
    Prog.Obeys φ ψ (fun y => y.memory = x.memory ∧
        ∃ updatedAt, y.status = { patch x.status with updatedAt })
      (writeStatus x patch) := by
  unfold writeStatus
  refine Prog.obeys_bind (Q := fun _ => True)
    (Prog.obeys_perform hclock fun _ _ => trivial) fun updatedAt _ => ?_
  exact Prog.obeys_bind (Q := fun _ => True)
    (Prog.obeys_perform (hwrite updatedAt) fun _ _ => trivial)
    fun _ _ => Prog.obeys_done ⟨rfl, updatedAt, rfl⟩

/-- An item of the marked list is the marked one, or another one as it was. -/
theorem mem_markNodeStates {items : List PlanNodeState} {nodeId : String} {status : PlanNodeStatus}
    {artifacts : List PlanArtifactRef} {errors : List String} {completedAt : String}
    {item : PlanNodeState}
    (h : item ∈ markNodeStates items nodeId status artifacts errors completedAt) :
    (item.nodeId = nodeId ∧ item.status = status ∧ item.errors = errors) ∨
      (item ∈ items ∧ item.nodeId ≠ nodeId) := by
  obtain ⟨before, hbefore, hitem⟩ := List.mem_map.mp h
  by_cases hid : before.nodeId = nodeId
  · rw [if_pos hid] at hitem
    subst hitem
    exact Or.inl ⟨hid, rfl, rfl⟩
  · rw [if_neg hid] at hitem
    subst hitem
    exact Or.inr ⟨hbefore, hid⟩

theorem MarkedFrom.mem {plan : Planfile} {state marked : PlanState} {nodeId : String}
    {status : PlanNodeStatus} {artifacts : List PlanArtifactRef} {errors : List String}
    (hmarked : MarkedFrom P plan state nodeId status artifacts errors marked) {item : PlanNodeState}
    (h : item ∈ marked.nodeStates) :
    (item.nodeId = nodeId ∧ item.status = status ∧ item.errors = errors) ∨
      (item ∈ state.nodeStates ∧ item.nodeId ≠ nodeId) := by
  obtain ⟨completedAt, updatedAt, rfl⟩ := hmarked
  exact mem_markNodeStates h

/-! ### A sample to run -/

def sampleRepositoryPlatform : RepositoryPlatform :=
  { samplePlatform with toLowerCase := id, patchPlanHash := fun _ => sampleDigest }

def sampleWorktree : WorktreeSession where
  worktreeId := "worktree_plan"
  planId := "plan"
  repoRoot := "/repo"
  worktreePath := "/repo/.open-lagrange/worktrees/plan"
  baseRef := "main"
  baseCommit := "base"
  branchName := "ol/plan"
  status := .created
  createdAt := "2026-01-01T00:00:00Z"
  updatedAt := "2026-01-01T00:00:00Z"
  finalPatchArtifactId := none
  retainOnFailure := some true

/-- A fresh run of a plan. -/
def sampleRepositoryOptions (plan : Planfile) : RepositoryPlanRunnerOptions where
  planfile := plan
  session := sampleWorktree
  initialStatus := none
  resumeFromNodeId := none
  approvedScopeRequest := none
  expandedFiles := none
  expandedVerificationCommands := none
  hasReviewReportGenerator := false
  now := some "2026-01-01T00:00:00Z"

/-- What the constructor makes of it. -/
def sampleRepositoryRunner (plan : Planfile) : RepositoryRunner where
  now := "2026-01-01T00:00:00Z"
  plan
  session := sampleWorktree
  status := createRepositoryPlanStatus "plan" "2026-01-01T00:00:00Z"

/-! ### A smooth environment -/

/-- A patch plan that nothing is wrong with. -/
def smoothPatchPlan (input : GeneratePatchPlanFromEvidenceInput) : RepositoryPatchPlan where
  patchPlanId := "patch"
  planId := "plan"
  nodeId := "node"
  summary := "summary"
  rationale := "rationale"
  evidenceRefs := [input.evidenceBundle.evidenceBundleId]
  operations := [⟨"operation", .createFile, "path", none, none, none, none, none, none, none, none,
    "rationale"⟩]
  expectedChangedFiles := ["path"]
  verificationCommandIds := []
  preconditions := []
  riskLevel := .write
  approvalRequired := false
  confidence := none
  requiresScopeExpansion := false
  scopeExpansionRequest := none

/-- The answers of an environment in which everything succeeds. -/
def smoothAnswer : (call : RepositoryCall) → RepositoryAnswer call
  | .clock => "now"
  | .persistExecutionCopy _ | .recordPlanState _ | .writeStatus _ | .proposePatch _ _ _
  | .registerArtifacts _ => ()
  | .readVerification _ => none
  | .readPatchArtifact _ => none
  | .loadWorkspace _ _ => ⟨"workspace", "/", [], [], 0, 0, false⟩
  | .listFiles _ _ => .parsed []
  | .readFile _ path => .parsed ⟨path, ""⟩
  | .searchText _ _ _ => .parsed []
  | .recordArtifact _ _ _ => ⟨"artifact", "path", "now"⟩
  | .createPatchPlanWorkOrder _ _ _ =>
      ⟨"", "", "", "", "", [], [], [], [], ⟨"", "", "", []⟩, [], .null, [], [], 0, .implementer⟩
  | .generatePatchPlan input => .patchPlan (smoothPatchPlan input)
  | .createScopeExpansionApproval _ => ⟨"", .requested⟩
  | .createPatchApproval _ _ => .requested
  | .validatePatchPlan _ _ _ => ⟨true, true, none, [], [], false, []⟩
  | .applyPatchPlan _ _ _ _ => ⟨⟨"", "", "", "", [], "", [], [], .applied, [], "", ""⟩, by simp⟩
  | .detectVerificationPolicy _ => []
  | .runVerificationPolicy _ _ _ => ⟨"", [], true, [], ""⟩
  | .generateReviewReport _ => ⟨"", "", ""⟩
  | .exportFinalPatch _ => ⟨"", "", []⟩

def smooth : Prog.Handler RepositoryCall RepositoryAnswer Unit := fun call s =>
  (.ok (smoothAnswer call), s)

/-! ### An environment in which verification fails -/

/-- A plan with the given repair nodes. -/
def repairingPlan (repairs : List String) : Planfile :=
  samplePlan ([sampleNode "frame_goal" .frame [],
      sampleNode "verify_changes" .verify ["frame_goal"]] ++
    repairs.map (sampleNode · .repair ["verify_changes"]) ++
    [sampleNode "review_changes" .review ("verify_changes" :: repairs)])

/-- A repair patch that is applied. -/
def appliedPatch : PatchOutcome :=
  ⟨⟨"", "", "", "", [], "", [], [], .applied, [], "", ""⟩, by simp⟩

/-- A repair patch that cannot be applied. -/
def refusedPatch : PatchOutcome where
  toRepositoryPatchArtifact :=
    ⟨"", "", "", "", [], "", [], [], .failed,
      [⟨"PRECONDITION_FAILED", "Patch precondition failed.", none, none, "now"⟩], "", ""⟩
  applied_iff := by simp

/-- Verification fails, and each repair patch that is tried comes to `outcome`. -/
def failingAnswer (outcome : PatchOutcome) : (call : RepositoryCall) → RepositoryAnswer call
  | .applyPatchPlan .repair _ _ _ => outcome
  | .runVerificationPolicy _ _ _ => ⟨"", [], false, [], ""⟩
  | call => smoothAnswer call

def failing (outcome : PatchOutcome) : Prog.Handler RepositoryCall RepositoryAnswer Unit :=
  fun call s => (.ok (failingAnswer outcome call), s)

end OpenLagrange
