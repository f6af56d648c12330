/-
What a repository run does to the requests that its status lists.

A run lists a request when it has asked for its approval, and it takes none away and changes
none.  `Lists` is the invariant: the status is that of one plan, and what it lists is good, for
any notion of good that the requests of the start meet and every answered question meets.
-/
import OpenLagrange.Proofs.RepositoryRun

namespace OpenLagrange

open RepositoryPlanRunner

/-! ### The invariant -/

/-- The status of a plan, all of whose requests are good. -/
structure RepositoryPlanStatus.Lists (planId : String)
    (Good : RepositoryScopeExpansionStatus → Prop) (status : RepositoryPlanStatus) : Prop where
  planId : status.planId = planId
  requests : ∀ item ∈ status.scopeExpansionRequests, Good item

/-- The statuses that are written are such ones. -/
def ListsCall (planId : String) (Good : RepositoryScopeExpansionStatus → Prop) :
    RepositoryCall → Prop
  | .writeStatus status => status.Lists planId Good
  | _ => True

/-- What is listed for an answered question is good. -/
def ListsAnswer (P : RepositoryPlatform) (Good : RepositoryScopeExpansionStatus → Prop) :
    (call : RepositoryCall) → RepositoryAnswer call → Prop
  | .createScopeExpansionApproval request, approval =>
      ∀ r, Good (scopeExpansionEntry P r request approval)
  | _, _ => True

variable {P : RepositoryPlatform} {o : RepositoryPlanRunnerOptions} {r : RepositoryRunner}
  {planId : String} {Good : RepositoryScopeExpansionStatus → Prop} {x : Execution}
  {node : PlanNode} {workspace : RepositoryWorkspace}

abbrev Listing {α : Type} (P : RepositoryPlatform) (planId : String)
    (Good : RepositoryScopeExpansionStatus → Prop) (Q : α → Prop) (program : RepositoryProgram α) :
    Prop :=
  Prog.Obeys (ListsCall planId Good) (ListsAnswer P Good) Q program

/-- The execution has a status that lists good requests. -/
abbrev Execution.Lists (planId : String) (Good : RepositoryScopeExpansionStatus → Prop)
    (x : Execution) : Prop := x.status.Lists planId Good

/-- Only the plan and the requests of a status count. -/
theorem RepositoryPlanStatus.Lists.of_eq {status status' : RepositoryPlanStatus}
    (h : status.Lists planId Good) (hplan : status'.planId = status.planId)
    (hrequests : status'.scopeExpansionRequests = status.scopeExpansionRequests) :
    status'.Lists planId Good := by
  constructor
  · rw [hplan]
    exact h.planId
  · rw [hrequests]
    exact h.requests

/-! ### The parts of a node -/

theorem listing_await {call : RepositoryCall} (hcall : ListsCall planId Good call) :
    Listing P planId Good (fun _ => True) (await call) :=
  Prog.obeys_perform hcall fun _ _ => trivial

theorem listing_attempt {call : RepositoryCall} (hcall : ListsCall planId Good call) :
    Listing P planId Good (fun _ => True) (await call).attempt :=
  attempt_obeys hcall

theorem listing_writeStatus {patch : RepositoryPlanStatus → RepositoryPlanStatus}
    (hpatch : (patch x.status).Lists planId Good) :
    Listing P planId Good (fun y => y.Lists planId Good) (writeStatus x patch) := by
  unfold writeStatus
  refine Prog.obeys_bind (listing_await trivial) ?_
  intro updatedAt _
  have hwritten : RepositoryPlanStatus.Lists planId Good { patch x.status with updatedAt } :=
    hpatch.of_eq rfl rfl
  refine Prog.obeys_bind (listing_await hwritten) ?_
  intro _ _
  exact Prog.obeys_done hwritten

theorem listing_recordArtifact {kind : RepositoryArtifactKind} {title summary : String}
    {content : ArtifactContent} (hx : x.Lists planId Good) :
    Listing P planId Good (fun made => made.2.Lists planId Good)
      (recordArtifact x kind title summary content) := by
  refine (recordArtifact_obeys (φ := ListsCall planId Good) trivial).mono (fun _ h => h)
    (fun _ _ h => h) ?_
  intro made hmade
  show made.2.status.Lists planId Good
  rw [hmade.1]
  exact hx

theorem listing_orNone {α : Type} (output : StepOutput (List α)) :
    Listing P planId Good (fun _ => True) output.orNone := by
  cases output <;> trivial

theorem listing_orThrow {α : Type} (output : StepOutput α) :
    Listing P planId Good (fun _ => True) output.orThrow := by
  cases output <;> trivial

theorem listing_readFiles {nodeId : String} (paths : List String) :
    Listing P planId Good (fun _ => True) (readFiles nodeId paths) := by
  induction paths with
  | nil => trivial
  | cons path rest ih =>
      unfold readFiles
      refine Prog.obeys_bind (listing_await trivial) ?_
      intro output _
      refine Prog.obeys_bind (listing_orThrow output) ?_
      intro read _
      exact Prog.obeys_bind ih fun _ _ => Prog.obeys_done trivial

theorem listing_collectEvidence :
    Listing P planId Good (fun _ => True) (collectEvidence P o r workspace node) := by
  unfold collectEvidence collectEvidenceBundle
  refine Prog.obeys_bind (listing_await trivial) ?_
  intro listed _
  refine Prog.obeys_bind (listing_orNone listed) ?_
  intro files _
  refine Prog.obeys_bind (listing_readFiles _) ?_
  intro reads _
  refine Prog.obeys_bind (listing_await trivial) ?_
  intro searched _
  exact Prog.obeys_bind (listing_orNone searched) fun _ _ => Prog.obeys_done trivial

theorem listing_ensureEvidence {title : String} (hx : x.Lists planId Good) :
    Listing P planId Good (fun made => made.2.Lists planId Good)
      (ensureEvidence P o r title workspace node x) := by
  unfold ensureEvidence
  cases x.memory.evidence with
  | some evidence => exact Prog.obeys_done hx
  | none =>
      refine Prog.obeys_bind listing_collectEvidence ?_
      intro evidence _
      refine Prog.obeys_bind (listing_recordArtifact
        (x := { x with memory := { x.memory with evidence := some evidence } }) hx) ?_
      intro made hmade
      refine Prog.obeys_bind (listing_writeStatus (hmade.of_eq rfl rfl)) ?_
      intro y hy
      exact Prog.obeys_done hy

theorem listing_generatePatchPlan {evidence : EvidenceBundle} {mode : PatchMode}
    {failures : Option (List VerificationFailure)} {diff : Option String}
    (hx : x.Lists planId Good) :
    Listing P planId Good (fun made => made.2.Lists planId Good)
      (generatePatchPlan P o r node evidence mode failures diff x) := by
  unfold generatePatchPlan
  refine Prog.obeys_bind (listing_await trivial) ?_
  intro workOrder _
  refine Prog.obeys_bind (listing_recordArtifact hx) ?_
  intro made hmade
  refine Prog.obeys_bind (listing_attempt trivial) ?_
  intro answer _
  exact Prog.obeys_done hmade

/-- The one place where a request is added: it is listed once its approval was asked for. -/
theorem listing_handleScopeExpansion {patchPlan : RepositoryPatchPlan} {evidence : EvidenceBundle}
    (hx : x.Lists planId Good) :
    Listing P planId Good (fun made => made.2.Lists planId Good)
      (handleScopeExpansionIfNeeded P r node patchPlan evidence x) := by
  unfold handleScopeExpansionIfNeeded
  cases patchPlan.requiresScopeExpansion with
  | false => exact Prog.obeys_done hx
  | true =>
      cases patchPlan.scopeExpansionRequest with
      | none =>
          refine Prog.obeys_bind (listing_recordArtifact hx) ?_
          intro made hmade
          exact Prog.obeys_done hmade
      | some request =>
          dsimp only
          cases scopeRequestOf P r node evidence request with
          | error message => exact Prog.obeys_fail
          | ok request =>
              apply Prog.obeys_bind (Q := fun approval =>
                Good (scopeExpansionEntry P r request approval))
              · exact Prog.obeys_perform trivial fun approval hgood => hgood r
              · intro approval hgood
                refine Prog.obeys_bind (listing_recordArtifact hx) ?_
                intro made hmade
                refine Prog.obeys_bind (listing_writeStatus ⟨hmade.planId, ?_⟩) ?_
                · intro item hitem
                  rcases List.mem_append.mp hitem with hold | hnew
                  · exact hmade.requests item hold
                  · rw [List.mem_singleton.mp hnew]
                    exact hgood
                · intro y hy
                  exact Prog.obeys_done hy

theorem listing_examinePatchPlan {variant : PatchVariant} {evidence : EvidenceBundle}
    {lead : List PlanArtifactRef} {patchPlan : RepositoryPatchPlan} {policy : PatchPolicy}
    (hx : x.Lists planId Good) :
    Listing P planId Good (fun made => made.2.Lists planId Good)
      (examinePatchPlan P r variant workspace node evidence lead patchPlan policy x) := by
  unfold examinePatchPlan
  refine Prog.obeys_bind (listing_recordArtifact
    (x := { x with memory := { x.memory with patchPlan := some patchPlan } }) hx) ?_
  intro made hmade
  refine Prog.obeys_bind (listing_handleScopeExpansion hmade) ?_
  rintro ⟨scopeResult, y⟩ hy
  cases scopeResult with
  | some scope => exact Prog.obeys_done (hy.of_eq rfl rfl)
  | none =>
      refine Prog.obeys_bind (listing_await trivial) ?_
      intro validation _
      refine Prog.obeys_bind (listing_recordArtifact hy) ?_
      rintro ⟨validationArtifact, z⟩ hz
      dsimp only
      cases validation.valid with
      | false => exact Prog.obeys_done (hz.of_eq rfl rfl)
      | true =>
          cases validation.approvalRequired with
          | false => exact Prog.obeys_done (hz.of_eq rfl rfl)
          | true =>
              unfold createPatchApproval
              apply Prog.obeys_bind (Q := fun made : RepositoryArtifact × Execution =>
                made.2.Lists planId Good)
              · refine Prog.obeys_bind (listing_await trivial) ?_
                intro decision _
                exact listing_recordArtifact (hz.of_eq rfl rfl)
              · intro approved happroved
                exact Prog.obeys_done happroved

theorem listing_verifyWorktree {title passed failed : String} {given : List String}
    (hx : x.Lists planId Good) :
    Listing P planId Good (fun made => made.2.Lists planId Good)
      (verifyWorktree r title passed failed node given x) := by
  unfold verifyWorktree
  refine Prog.obeys_bind (listing_await trivial) ?_
  intro commands _
  refine Prog.obeys_bind (listing_await trivial) ?_
  intro report _
  exact listing_recordArtifact (hx.of_eq rfl rfl)

/-! ### The nodes -/

theorem listing_patchNode (hx : x.Lists planId Good) :
    Listing P planId Good (fun made => made.2.Lists planId Good)
      (patchNode P o r workspace node x) := by
  unfold patchNode
  refine Prog.obeys_bind (listing_ensureEvidence hx) ?_
  rintro ⟨evidence, y⟩ hy
  refine Prog.obeys_bind (listing_generatePatchPlan hy) ?_
  rintro ⟨generated, z⟩ hz
  cases generated with
  | ended result => exact Prog.obeys_done hz
  | generated patchPlan policy contextArtifact =>
      refine Prog.obeys_bind (listing_examinePatchPlan hz) ?_
      rintro ⟨examined, w⟩ hw
      cases examined with
      | ended result => exact Prog.obeys_done hw
      | accepted refs =>
          refine Prog.obeys_bind (listing_await trivial) ?_
          intro _ _
          refine Prog.obeys_bind (listing_await trivial) ?_
          intro outcome _
          refine Prog.obeys_bind
            (listing_recordArtifact (x := Execution.keepPatch w outcome) (hw.of_eq rfl rfl)) ?_
          intro made hmade
          exact Prog.obeys_done hmade

theorem listing_attemptRepair {verification : RepositoryVerificationReport}
    {repair : RepairAttempt} {repairArtifact : RepositoryArtifact} (hx : x.Lists planId Good) :
    Listing P planId Good (fun made => made.2.Lists planId Good)
      (attemptRepair P o r workspace node verification repair repairArtifact x) := by
  unfold attemptRepair
  refine Prog.obeys_bind (listing_ensureEvidence hx) ?_
  rintro ⟨evidence, y⟩ hy
  refine Prog.obeys_bind (listing_generatePatchPlan hy) ?_
  rintro ⟨generated, z⟩ hz
  cases generated with
  | ended result => exact Prog.obeys_done hz
  | generated patchPlan policy contextArtifact =>
      refine Prog.obeys_bind (listing_examinePatchPlan hz) ?_
      rintro ⟨examined, w⟩ hw
      cases examined with
      | ended result => exact Prog.obeys_done hw
      | accepted refs =>
          refine Prog.obeys_bind (listing_await trivial) ?_
          intro outcome _
          refine Prog.obeys_bind
            (listing_recordArtifact (x := Execution.keepPatch w outcome) (hw.of_eq rfl rfl)) ?_
          rintro ⟨patchArtifact, v⟩ hv
          refine Prog.obeys_bind (listing_verifyWorktree hv) ?_
          intro made hmade
          exact Prog.obeys_done hmade

theorem listing_repairNode (hx : x.Lists planId Good) :
    Listing P planId Good (fun made => made.2.Lists planId Good)
      (repairNode P o r workspace node x) := by
  unfold repairNode
  cases x.memory.verification with
  | none => exact Prog.obeys_done hx
  | some verification =>
      dsimp only
      by_cases hpassed : verification.passed = true
      · rw [if_pos hpassed]
        exact Prog.obeys_done hx
      · rw [if_neg hpassed]
        refine Prog.obeys_bind (listing_recordArtifact (hx.of_eq rfl rfl)) ?_
        intro made hmade
        exact listing_attemptRepair hmade

theorem listing_reviewNode (hx : x.Lists planId Good) :
    Listing P planId Good (fun made => made.2.Lists planId Good) (reviewNode P o r node x) := by
  unfold reviewNode
  apply Prog.obeys_bind (Q := fun _ => True)
  · unfold reviewReport
    split
    · exact listing_attempt trivial
    · trivial
  · intro review _
    cases review with
    | error message => exact Prog.obeys_done hx
    | ok review =>
        refine Prog.obeys_bind (listing_recordArtifact (hx.of_eq rfl rfl)) ?_
        intro made hmade
        exact Prog.obeys_done hmade

/-- **Working on a node** keeps the requests that are listed good. -/
theorem listing_runNode (hx : x.Lists planId Good) :
    Listing P planId Good (fun made => made.2.Lists planId Good) (runNode P o r node x) := by
  unfold runNode
  by_cases hnothing : node.kind = .frame ∨ node.kind = .design
  · rw [if_pos hnothing]
    exact Prog.obeys_done hx
  · rw [if_neg hnothing]
    refine Prog.obeys_bind (listing_await trivial) ?_
    intro workspace _
    cases node.kind with
    | inspect =>
        unfold inspectNode
        refine Prog.obeys_bind listing_collectEvidence ?_
        intro evidence _
        refine Prog.obeys_bind (listing_recordArtifact
          (x := { x with memory := { x.memory with evidence := some evidence } }) hx) ?_
        intro made hmade
        exact Prog.obeys_done hmade
    | patch => exact listing_patchNode hx
    | verify =>
        unfold verifyNode
        refine Prog.obeys_bind (listing_verifyWorktree hx) ?_
        intro made hmade
        exact Prog.obeys_done hmade
    | repair => exact listing_repairNode hx
    | review => exact listing_reviewNode hx
    | _ => exact Prog.obeys_done hx

/-! ### The run -/

theorem listing_markNode {state : PlanState} {status : PlanNodeStatus}
    {artifacts : List PlanArtifactRef} {errors : List String} :
    Listing P planId Good (fun _ => True) (markNode P r state node status artifacts errors) :=
  (markNode_obeys trivial fun _ _ => trivial).mono (fun _ h => h) (fun _ _ h => h)
    fun _ _ => trivial

theorem listing_runNodes (nodes : List PlanNode) (state : PlanState) (hx : x.Lists planId Good) :
    Listing P planId Good (fun made => made.2.Lists planId Good)
      (runNodes P o r nodes state x) := by
  induction nodes generalizing state x with
  | nil => exact Prog.obeys_done hx
  | cons node rest ih =>
      unfold runNodes
      refine Prog.obeys_bind listing_markNode ?_
      intro running _
      refine Prog.obeys_bind (listing_writeStatus (hx.of_eq rfl rfl)) ?_
      intro y hy
      refine Prog.obeys_bind (listing_runNode hy) ?_
      rintro ⟨result, z⟩ hz
      refine Prog.obeys_bind listing_markNode ?_
      intro marked _
      have hended : (endedStatus r node marked result z.memory z.status).Lists planId Good := by
        unfold endedStatus
        dsimp only
        split
        · exact hz.of_eq rfl rfl
        · exact hz.of_eq rfl rfl
      refine Prog.obeys_bind (listing_writeStatus hended) ?_
      intro w hw
      by_cases hstop : result.status = .failed ∨ result.status = .yielded
      · rw [if_pos hstop]
        exact Prog.obeys_done hw
      · rw [if_neg hstop]
        exact ih marked hw

theorem listing_createInitialMemory :
    Listing P planId Good (fun _ => True) (createInitialMemory o) := by
  unfold createInitialMemory
  have hback : ∀ {α : Type} (read : String → RepositoryProgram (Option α)) (id : Option String),
      (∀ id, Listing P planId Good (fun _ => True) (read id)) →
      Listing P planId Good (fun _ => True) (readBack read id) := by
    intro α read id hread
    cases id with
    | none => trivial
    | some id => exact hread id
  refine Prog.obeys_bind (hback _ _ fun id => listing_await trivial) ?_
  intro verification _
  refine Prog.obeys_bind (hback _ _ fun id => listing_await trivial) ?_
  intro artifact _
  exact Prog.obeys_done trivial

theorem listing_finish {state : PlanState} (hx : x.Lists planId Good) :
    Listing P planId Good (fun result => result.status.Lists planId Good) (finish r state x) := by
  unfold finish
  refine Prog.obeys_bind (listing_await trivial) ?_
  intro finalPatch _
  refine Prog.obeys_bind (listing_recordArtifact hx) ?_
  intro made hmade
  refine Prog.obeys_bind (listing_await trivial) ?_
  intro updatedAt _
  refine Prog.obeys_bind (listing_writeStatus (hmade.of_eq rfl rfl)) ?_
  intro y hy
  refine Prog.obeys_bind (listing_await trivial) ?_
  intro _ _
  exact Prog.obeys_done hy

theorem listing_run (hr : r.status.Lists planId Good) :
    Listing P planId Good (fun result => result.status.Lists planId Good) (run P o r) := by
  unfold run
  dsimp only
  split
  · refine Prog.obeys_bind (listing_await trivial) ?_
    intro _ _
    refine Prog.obeys_bind (listing_await trivial) ?_
    intro _ _
    refine Prog.obeys_bind listing_createInitialMemory ?_
    intro memory _
    refine Prog.obeys_bind (listing_runNodes _ _ hr) ?_
    rintro ⟨state, y⟩ hy
    exact listing_finish hy
  · exact Prog.obeys_fail

/-- **A run lists what it found and what it asked for.**  The requests of every status that it
writes, and of the one that it ends with, are good if those of the start are. -/
theorem listing_constructAndRun
    (hstart : ∀ now, (o.initialStatus.getD
      (createRepositoryPlanStatus o.planfile.planId now)).Lists planId Good) :
    Listing P planId Good (fun result => result.status.Lists planId Good)
      (constructAndRun P o) := by
  unfold constructAndRun
  apply Prog.obeys_bind (Q := fun r : RepositoryRunner => r.status.Lists planId Good)
  · unfold construct
    apply Prog.obeys_bind (Q := fun _ => True)
    · unfold readNow
      split
      · trivial
      · exact listing_await trivial
    · intro now _
      by_cases hrefined : o.planfile.refined P.isDatetime = true
      · by_cases hnow : P.isDatetime now = true
        · simp only [hrefined, hnow, Bool.not_true, Bool.false_eq_true, if_false]
          refine Prog.obeys_bind (listing_await trivial) ?_
          intro updatedAt _
          have hstarted : (startedStatus o (withCanonicalPlanDigest P.sha256 o.planfile)
              { o.session with status := .running, updatedAt } now).Lists planId Good :=
            (hstart now).of_eq rfl rfl
          refine Prog.obeys_bind (listing_await hstarted) ?_
          intro _ _
          exact Prog.obeys_done hstarted
        · simp only [hrefined, hnow, Bool.not_true, Bool.not_false, Bool.false_eq_true, if_false,
            if_true]
          exact Prog.obeys_fail
      · simp only [hrefined, Bool.not_false, if_true]
        exact Prog.obeys_fail
  · intro r hr
    exact listing_run hr

end OpenLagrange
