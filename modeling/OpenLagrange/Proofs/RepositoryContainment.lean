/-
Which failures a repository run contains.

Only asking for a patch plan and the review generator are guarded: what they throw becomes the
outcome of the node.  Everything else that throws while a node is worked on ends the run with
the node marked running.  Four things throw by themselves, on answers that are no failures of
the calls: a list or a search whose output its schema refuses, a read without an output, and a
scope request that is not for the node or refers to evidence it does not have.
-/
import OpenLagrange.Proofs.RepositoryRun

namespace OpenLagrange

open RepositoryPlanRunner

/-! ### Contained answers -/

/-- The request is for the node and refers to its evidence. -/
structure ScopeExpansionRequest.Fits (request : ScopeExpansionRequest) (planId nodeId : String)
    (evidence : EvidenceBundle) : Prop where
  planId : request.planId = planId
  nodeId : request.nodeId = nodeId
  evidenceRefs : ∀ ref ∈ request.evidenceRefs, ref ∈ evidence.refs

/-- A scope request that the plan makes fits. -/
def RepositoryPatchPlan.RequestFits (plan : RepositoryPatchPlan) (planId nodeId : String)
    (evidence : EvidenceBundle) : Prop :=
  plan.requiresScopeExpansion = true →
    ∀ request, plan.scopeExpansionRequest = some request → request.Fits planId nodeId evidence

/-- The schema accepts what there is. -/
def StepOutput.Readable {α : Type} : StepOutput α → Prop
  | .refused _ => False
  | _ => True

/-- There is an output, and the schema accepts it. -/
def StepOutput.Present {α : Type} : StepOutput α → Prop
  | .parsed _ => True
  | _ => False

/-- An answer that the code of a node does not throw on. -/
def Contained (isDatetime : String → Bool) :
    (call : RepositoryCall) → RepositoryAnswer call → Prop
  | .clock, now => isDatetime now = true
  | .listFiles _ _, output => output.Readable
  | .searchText _ _ _, output => output.Readable
  | .readFile _ _, output => output.Present
  | .generatePatchPlan input, .patchPlan plan =>
      plan.RequestFits input.planId input.nodeId input.evidenceBundle
  | _, _ => True

/-- The calls whose throws become the outcome of a node. -/
def RepositoryCall.guarded : RepositoryCall → Prop
  | .generatePatchPlan _ | .generateReviewReport _ => True
  | _ => False

variable {P : RepositoryPlatform} {o : RepositoryPlanRunnerOptions} {r : RepositoryRunner}
  {c : RepositoryPlanStatus} {x : Execution} {node : PlanNode} {workspace : RepositoryWorkspace}

/-- A program that returns when its calls are contained. -/
abbrev Contains {α : Type} (P : RepositoryPlatform) (program : RepositoryProgram α) : Prop :=
  Prog.ReturnsWithin (Contained P.isDatetime) RepositoryCall.guarded program

/-- What a program can return, whatever it calls. -/
abbrev Yields {α : Type} (P : RepositoryPlatform) (Q : α → Prop) (program : RepositoryProgram α) :
    Prop :=
  Prog.Obeys (fun _ => True) (Contained P.isDatetime) Q program

theorem contains_bind {α β : Type} {Q : α → Prop} {program : RepositoryProgram α}
    {f : α → RepositoryProgram β} (hp : Contains P program) (hQ : Yields P Q program)
    (hf : ∀ a, Q a → Contains P (f a)) : Contains P (program.bind f) :=
  Prog.returnsWithin_bind hp hQ hf

/-- The rest returns whatever the first part returns. -/
theorem contains_bind_any {α β : Type} {program : RepositoryProgram α}
    {f : α → RepositoryProgram β} (hp : Contains P program) (hf : ∀ a, Contains P (f a)) :
    Contains P (program.bind f) :=
  contains_bind hp (obeys_any program) fun a _ => hf a

theorem contains_await {call : RepositoryCall} (hcall : ¬ call.guarded) : Contains P (await call) :=
  Prog.returnsWithin_perform hcall

/-- An awaited call is contained, and so is what it answers. -/
theorem contains_await_bind {α : Type} {call : RepositoryCall}
    {f : RepositoryAnswer call → RepositoryProgram α} (hcall : ¬ call.guarded)
    (hf : ∀ a, Contained P.isDatetime call a → Contains P (f a)) :
    Contains P ((await call).bind f) :=
  contains_bind (contains_await hcall) (Prog.obeys_perform trivial fun _ h => h) hf

/-- What a guarded call throws is a value. -/
theorem contains_attempt {call : RepositoryCall} : Contains P (await call).attempt :=
  ⟨fun _ _ => trivial, fun _ _ => trivial⟩

/-! ### The parts of a node -/

theorem contains_writeStatus {patch : RepositoryPlanStatus → RepositoryPlanStatus} :
    Contains P (writeStatus x patch) := by
  unfold writeStatus
  refine contains_bind_any (contains_await id) fun updatedAt => ?_
  exact contains_bind_any (contains_await id) fun _ => trivial

theorem contains_recordArtifact {kind : RepositoryArtifactKind} {title summary : String}
    {content : ArtifactContent} : Contains P (recordArtifact x kind title summary content) := by
  unfold recordArtifact
  exact contains_bind_any (contains_await id) fun _ => trivial

theorem contains_markNode {state : PlanState} {status : PlanNodeStatus}
    {artifacts : List PlanArtifactRef} {errors : List String} :
    Contains P (markNode P r state node status artifacts errors) := by
  unfold markNode
  refine contains_bind_any (contains_await id) fun completedAt => ?_
  refine contains_bind_any (contains_await id) fun updatedAt => ?_
  exact contains_bind_any (contains_await id) fun _ => trivial

theorem contains_orNone {α : Type} {output : StepOutput (List α)} (h : output.Readable) :
    Contains P output.orNone := by
  cases output with
  | refused issues => exact h.elim
  | missing issues => trivial
  | parsed values => trivial

theorem contains_orThrow {α : Type} {output : StepOutput α} (h : output.Present) :
    Contains P output.orThrow := by
  cases output with
  | parsed value => trivial
  | missing issues => exact h.elim
  | refused issues => exact h.elim

theorem contains_readFiles {nodeId : String} (paths : List String) :
    Contains P (readFiles nodeId paths) := by
  induction paths with
  | nil => trivial
  | cons path rest ih =>
      unfold readFiles
      refine contains_await_bind id fun output houtput => ?_
      refine contains_bind_any (contains_orThrow houtput) fun read => ?_
      exact contains_bind_any ih fun _ => trivial

theorem contains_collectEvidence : Contains P (collectEvidence P o r workspace node) := by
  unfold collectEvidence collectEvidenceBundle
  refine contains_await_bind id fun listed hlisted => ?_
  refine contains_bind_any (contains_orNone hlisted) fun files => ?_
  refine contains_bind_any (contains_readFiles _) fun reads => ?_
  refine contains_await_bind id fun searched hsearched => ?_
  exact contains_bind_any (contains_orNone hsearched) fun _ => trivial

theorem contains_ensureEvidence {title : String} :
    Contains P (ensureEvidence P o r title workspace node x) := by
  unfold ensureEvidence
  cases x.memory.evidence with
  | some evidence => trivial
  | none =>
      refine contains_bind_any contains_collectEvidence fun evidence => ?_
      refine contains_bind_any contains_recordArtifact ?_
      rintro ⟨artifact, y⟩
      exact contains_bind_any contains_writeStatus fun _ => trivial

/-! ### Patch plans -/

/-- A generated plan has passed its schema, and its scope request fits. -/
def RepositoryPlanRunner.GeneratedPatchPlan.Fits (P : RepositoryPlatform) (planId nodeId : String)
    (evidence : EvidenceBundle) : GeneratedPatchPlan → Prop
  | .generated plan _ _ =>
      plan.refined P.isDatetime = true ∧ plan.RequestFits planId nodeId evidence
  | .ended _ => True

theorem generatedPatchPlan_fits {input : GeneratePatchPlanFromEvidenceInput} {policy : PatchPolicy}
    {artifact : RepositoryArtifact} (answer : Except String PatchPlanGeneration)
    (hanswer : ∀ a, answer = .ok a → Contained P.isDatetime (.generatePatchPlan input) a) :
    (generatedPatchPlan P input.evidenceBundle policy artifact answer).Fits P input.planId
      input.nodeId input.evidenceBundle := by
  rcases answer with message | (plan | message)
  · trivial
  · unfold generatedPatchPlan
    dsimp only
    split
    · rename_i hrefined
      split
      · trivial
      · exact ⟨hrefined, hanswer _ rfl⟩
    · trivial
  · trivial

theorem contains_generatePatchPlan {evidence : EvidenceBundle} {mode : PatchMode}
    {failures : Option (List VerificationFailure)} {diff : Option String} :
    Contains P (generatePatchPlan P o r node evidence mode failures diff x) := by
  unfold generatePatchPlan
  refine contains_bind_any (contains_await id) fun workOrder => ?_
  refine contains_bind_any contains_recordArtifact ?_
  rintro ⟨contextArtifact, y⟩
  exact contains_bind_any contains_attempt fun _ => trivial

theorem generatePatchPlan_fits {evidence : EvidenceBundle} {mode : PatchMode}
    {failures : Option (List VerificationFailure)} {diff : Option String} :
    Yields P (fun made => made.1.Fits P r.plan.planId node.id evidence)
      (generatePatchPlan P o r node evidence mode failures diff x) := by
  unfold generatePatchPlan
  refine Prog.obeys_bind (obeys_any _) fun workOrder _ => ?_
  refine Prog.obeys_bind (obeys_any _) ?_
  rintro ⟨contextArtifact, y⟩ -
  refine Prog.obeys_bind (Prog.obeys_attempt (Prog.obeys_perform trivial fun _ h => h)) ?_
  intro answer hanswer
  exact Prog.obeys_done (generatedPatchPlan_fits answer hanswer)

/-- A request that fits is completed to one that the schema accepts. -/
theorem scopeRequestOf_ok {evidence : EvidenceBundle} {request : ScopeExpansionRequest}
    (hnow : P.isDatetime r.now = true) (hrefined : request.refined P.isDatetime = true)
    (hfits : request.Fits r.plan.planId node.id evidence) :
    ∃ normalized, scopeRequestOf P r node evidence request = .ok normalized := by
  have hvalid : validateScopeExpansionRequest request r.plan.planId node.id evidence.refs
      = .ok request := by
    unfold validateScopeExpansionRequest
    rw [if_neg (by simp [hfits.planId, hfits.nodeId])]
    have hknown : request.evidenceRefs.find? (· ∉ evidence.refs) = none := by
      rw [List.find?_eq_none]
      intro ref href
      simpa using hfits.evidenceRefs ref href
    rw [hknown]
  have hwork : ∀ rest, nonempty (request.workOrderId.getD
      (request.workOrderId.getD ("work_order_" ++ rest))) = true := by
    intro rest
    cases hid : request.workOrderId with
    | none => exact nonempty_append (by decide)
    | some id =>
        have hall : request.workOrderId.all nonempty = true := by
          simp only [ScopeExpansionRequest.refined, Bool.and_eq_true] at hrefined
          tauto
        rw [hid] at hall
        exact hall
  have hcreated : P.isDatetime (request.createdAt.getD r.now) = true := by
    cases hat : request.createdAt with
    | none => exact hnow
    | some at_ =>
        have hall : request.createdAt.all P.isDatetime = true := by
          simp only [ScopeExpansionRequest.refined, Bool.and_eq_true] at hrefined
          tauto
        rw [hat] at hall
        exact hall
  unfold scopeRequestOf
  rw [hvalid]
  unfold normalizeScopeExpansionRequest
  dsimp only
  rw [if_pos]
  · exact ⟨_, rfl⟩
  · rw [← hfits.planId, ← hfits.nodeId]
    simp only [ScopeExpansionRequest.refined, Bool.and_eq_true] at hrefined
    simp only [PersistedScopeExpansionRequest.refined, PersistedScopeExpansionRequest.toRequest,
      ScopeExpansionRequest.refined, Bool.and_eq_true, Option.all_some, hwork, hcreated]
    tauto

theorem refined_scopeRequest {plan : RepositoryPatchPlan} {request : ScopeExpansionRequest}
    (hrefined : plan.refined P.isDatetime = true) (hrequest : plan.scopeExpansionRequest = some request) :
    request.refined P.isDatetime = true := by
  have hall : plan.scopeExpansionRequest.all (·.refined P.isDatetime) = true := by
    simp only [RepositoryPatchPlan.refined, Bool.and_eq_true] at hrefined
    exact hrefined.2
  rw [hrequest] at hall
  exact hall

theorem contains_handleScopeExpansion {plan : RepositoryPatchPlan} {evidence : EvidenceBundle}
    (hnow : P.isDatetime r.now = true) (hrefined : plan.refined P.isDatetime = true)
    (hfits : plan.RequestFits r.plan.planId node.id evidence) :
    Contains P (handleScopeExpansionIfNeeded P r node plan evidence x) := by
  unfold handleScopeExpansionIfNeeded
  cases hneeds : plan.requiresScopeExpansion with
  | false => trivial
  | true =>
      cases hrequest : plan.scopeExpansionRequest with
      | none =>
          refine contains_bind_any contains_recordArtifact ?_
          rintro ⟨artifact, y⟩
          trivial
      | some request =>
          obtain ⟨normalized, hok⟩ := scopeRequestOf_ok hnow (refined_scopeRequest hrefined hrequest)
            (hfits hneeds request hrequest)
          dsimp only
          rw [hok]
          refine contains_bind_any (contains_await id) fun approval => ?_
          refine contains_bind_any contains_recordArtifact ?_
          rintro ⟨artifact, y⟩
          exact contains_bind_any contains_writeStatus fun _ => trivial

theorem contains_examinePatchPlan {variant : PatchVariant} {evidence : EvidenceBundle}
    {lead : List PlanArtifactRef} {plan : RepositoryPatchPlan} {policy : PatchPolicy}
    (hnow : P.isDatetime r.now = true) (hrefined : plan.refined P.isDatetime = true)
    (hfits : plan.RequestFits r.plan.planId node.id evidence) :
    Contains P (examinePatchPlan P r variant workspace node evidence lead plan policy x) := by
  unfold examinePatchPlan
  refine contains_bind_any contains_recordArtifact ?_
  rintro ⟨planArtifact, y⟩
  refine contains_bind_any (contains_handleScopeExpansion hnow hrefined hfits) ?_
  rintro ⟨scopeResult, z⟩
  cases scopeResult with
  | some scope => trivial
  | none =>
      refine contains_bind_any (contains_await id) fun validation => ?_
      refine contains_bind_any contains_recordArtifact ?_
      rintro ⟨validationArtifact, w⟩
      dsimp only
      split
      · trivial
      · split
        · refine contains_bind_any ?_ ?_
          · unfold createPatchApproval
            exact contains_bind_any (contains_await id) fun _ => contains_recordArtifact
          · rintro ⟨approvalArtifact, v⟩
            trivial
        · trivial

theorem contains_verifyWorktree {title passed failed : String} {given : List String} :
    Contains P (verifyWorktree r title passed failed node given x) := by
  unfold verifyWorktree
  refine contains_bind_any (contains_await id) fun commands => ?_
  exact contains_bind_any (contains_await id) fun report => contains_recordArtifact

/-! ### The nodes -/

theorem contains_patchNode (hnow : P.isDatetime r.now = true) :
    Contains P (patchNode P o r workspace node x) := by
  unfold patchNode
  refine contains_bind_any contains_ensureEvidence ?_
  rintro ⟨evidence, y⟩
  refine contains_bind contains_generatePatchPlan generatePatchPlan_fits ?_
  rintro ⟨generated, z⟩ hfits
  cases generated with
  | ended result => trivial
  | generated plan policy contextArtifact =>
      refine contains_bind_any (contains_examinePatchPlan hnow hfits.1 hfits.2) ?_
      rintro ⟨examined, w⟩
      cases examined with
      | ended result => trivial
      | accepted refs =>
          refine contains_bind_any (contains_await id) fun _ => ?_
          refine contains_bind_any (contains_await id) fun outcome => ?_
          refine contains_bind_any contains_recordArtifact ?_
          rintro ⟨artifact, v⟩
          trivial

theorem contains_attemptRepair {verification : RepositoryVerificationReport}
    {repair : RepairAttempt} {repairArtifact : RepositoryArtifact}
    (hnow : P.isDatetime r.now = true) :
    Contains P (attemptRepair P o r workspace node verification repair repairArtifact x) := by
  unfold attemptRepair
  refine contains_bind_any contains_ensureEvidence ?_
  rintro ⟨evidence, z⟩
  refine contains_bind contains_generatePatchPlan generatePatchPlan_fits ?_
  rintro ⟨generated, w⟩ hfits
  cases generated with
  | ended result => trivial
  | generated plan policy contextArtifact =>
      refine contains_bind_any (contains_examinePatchPlan hnow hfits.1 hfits.2) ?_
      rintro ⟨examined, v⟩
      cases examined with
      | ended result => trivial
      | accepted refs =>
          refine contains_bind_any (contains_await id) fun outcome => ?_
          refine contains_bind_any contains_recordArtifact ?_
          rintro ⟨patchArtifact, u⟩
          refine contains_bind_any contains_verifyWorktree ?_
          rintro ⟨verifyArtifact, t⟩
          trivial

theorem contains_repairNode (hnow : P.isDatetime r.now = true) :
    Contains P (repairNode P o r workspace node x) := by
  unfold repairNode
  cases x.memory.verification with
  | none => trivial
  | some verification =>
      dsimp only
      split
      · trivial
      · refine contains_bind_any contains_recordArtifact ?_
        rintro ⟨repairArtifact, y⟩
        exact contains_attemptRepair hnow

theorem contains_reviewNode : Contains P (reviewNode P o r node x) := by
  unfold reviewNode
  refine contains_bind_any ?_ fun review => ?_
  · unfold reviewReport
    split
    · exact contains_attempt
    · trivial
  · cases review with
    | error message => trivial
    | ok review =>
        refine contains_bind_any contains_recordArtifact ?_
        rintro ⟨artifact, y⟩
        trivial

theorem contains_runNode (hnow : P.isDatetime r.now = true) : Contains P (runNode P o r node x) := by
  unfold runNode
  split
  · trivial
  · refine contains_bind_any (contains_await id) fun workspace => ?_
    cases node.kind with
    | inspect =>
        refine contains_bind_any contains_collectEvidence fun evidence => ?_
        refine contains_bind_any contains_recordArtifact ?_
        rintro ⟨artifact, y⟩
        trivial
    | patch => exact contains_patchNode hnow
    | verify =>
        refine contains_bind_any contains_verifyWorktree ?_
        rintro ⟨artifact, y⟩
        trivial
    | repair => exact contains_repairNode hnow
    | review => exact contains_reviewNode
    | _ => trivial

/-! ### The run -/

theorem contains_runNodes (hnow : P.isDatetime r.now = true) (nodes : List PlanNode)
    (state : PlanState) (x : Execution) : Contains P (runNodes P o r nodes state x) := by
  induction nodes generalizing state x with
  | nil => trivial
  | cons node rest ih =>
      unfold runNodes
      refine contains_bind_any contains_markNode fun running => ?_
      refine contains_bind_any contains_writeStatus fun y => ?_
      refine contains_bind_any (contains_runNode hnow) ?_
      rintro ⟨result, z⟩
      refine contains_bind_any contains_markNode fun marked => ?_
      refine contains_bind_any contains_writeStatus fun w => ?_
      split
      · trivial
      · exact ih marked w

theorem contains_run (hnow : P.isDatetime r.now = true)
    (hvalid : (validatePlanfile P.toPlatform none r.plan).ok = true) : Contains P (run P o r) := by
  unfold run
  dsimp only
  rw [if_pos hvalid]
  refine contains_bind_any (contains_await id) fun _ => ?_
  refine contains_bind_any (contains_await id) fun _ => ?_
  refine contains_bind_any ?_ fun memory => ?_
  · unfold createInitialMemory
    refine contains_bind_any ?_ fun verification => contains_bind_any ?_ fun artifact => trivial
    · cases (o.initialStatus.bind fun status => truthy status.verificationReportIds.getLast?) with
      | none => trivial
      | some verificationId => exact contains_await id
    · cases (rememberedMemory o).patchArtifactId with
      | none => trivial
      | some artifactId => exact contains_await id
  · refine contains_bind_any (contains_runNodes hnow _ _ _) ?_
    rintro ⟨state, x⟩
    show Contains P (finish r state x)
    unfold finish
    refine contains_bind_any (contains_await id) fun finalPatch => ?_
    refine contains_bind_any contains_recordArtifact ?_
    rintro ⟨finalArtifact, y⟩
    refine contains_bind_any (contains_await id) fun updatedAt => ?_
    refine contains_bind_any contains_writeStatus fun z => ?_
    exact contains_bind_any (contains_await id) fun _ => trivial

/-! ### What is left running -/

/-- The node states a run starts from, when it goes on from an earlier one. -/
def resumedNodeStates (o : RepositoryPlanRunnerOptions) : List PlanNodeState :=
  (o.initialStatus.bind (·.planState)).elim [] (·.nodeStates)

/-- No node is running that was not left running before. -/
def NothingRunning (o : RepositoryPlanRunnerOptions) (state : PlanState) : Prop :=
  ∀ item ∈ state.nodeStates, item.status = .running → item ∈ resumedNodeStates o

theorem startState_ended : NothingRunning o (startState P o r) := by
  intro item hitem hrunning
  unfold startState at hitem
  unfold resumedNodeStates
  cases hstate : o.initialStatus.bind (·.planState) with
  | some state =>
      rw [hstate] at hitem
      exact hitem
  | none =>
      rw [hstate] at hitem
      obtain ⟨initial, hinitial, rfl⟩ := List.mem_map.mp hitem
      obtain ⟨node, -, rfl⟩ := List.mem_map.mp hinitial
      dsimp only at hrunning
      split at hrunning <;> cases hrunning

/-- A node that was marked and has ended leaves nothing running. -/
theorem ended_of_marked {plan : Planfile} {state running marked : PlanState} {nodeId : String}
    {artifacts artifacts' : List PlanArtifactRef} {errors errors' : List String}
    {outcome : NodeOutcome} (hstate : NothingRunning o state)
    (hrunning : MarkedFrom P plan state nodeId .running artifacts errors running)
    (hmarked : MarkedFrom P plan running nodeId outcome.status artifacts' errors' marked) :
    NothingRunning o marked := by
  intro item hitem hstatus
  rcases hmarked.mem hitem with ⟨-, hended, -⟩ | ⟨hitem, hother⟩
  · rw [hended] at hstatus
    cases outcome <;> cases hstatus
  · rcases hrunning.mem hitem with ⟨hsame, -⟩ | ⟨hitem, -⟩
    · exact (hother hsame).elim
    · exact hstate item hitem hstatus

theorem runNodes_ended (nodes : List PlanNode) (state : PlanState) (x : Execution)
    (hstate : NothingRunning o state) :
    Yields P (fun out => NothingRunning o out.1) (runNodes P o r nodes state x) := by
  induction nodes generalizing state x with
  | nil => exact hstate
  | cons node rest ih =>
      unfold runNodes
      refine Prog.obeys_bind (markNode_obeys trivial fun _ _ => trivial) fun running hrunning => ?_
      refine Prog.obeys_bind (obeys_any _) fun y _ => ?_
      refine Prog.obeys_bind (obeys_any _) ?_
      rintro ⟨result, z⟩ -
      refine Prog.obeys_bind (markNode_obeys trivial fun _ _ => trivial) fun marked hmarked => ?_
      refine Prog.obeys_bind (obeys_any _) fun w _ => ?_
      have hended := ended_of_marked hstate hrunning hmarked
      split
      · exact Prog.obeys_done hended
      · exact ih marked w hended

/-- What a run returns: a status that is not running, and a state in which every node ended. -/
def EndedResult (o : RepositoryPlanRunnerOptions) (result : RepositoryPlanRunnerResult) : Prop :=
  result.status.status ≠ .running ∧ NothingRunning o result.state

theorem finalRunStatus_ne_running (status : PlanStatus) : finalRunStatus status ≠ .running := by
  cases status <;> nofun

theorem finish_ended {state : PlanState} (hstate : NothingRunning o state) :
    Yields P (EndedResult o) (finish r state x) := by
  unfold finish
  refine Prog.obeys_bind (obeys_any _) fun finalPatch _ => ?_
  refine Prog.obeys_bind (obeys_any _) ?_
  rintro ⟨finalArtifact, y⟩ -
  refine Prog.obeys_bind (obeys_any _) fun updatedAt _ => ?_
  refine Prog.obeys_bind (writeStatus_obeys trivial fun _ => trivial) ?_
  rintro z ⟨-, now, hz⟩
  refine Prog.obeys_bind (obeys_any _) fun _ _ => Prog.obeys_done ⟨?_, hstate⟩
  rw [hz]
  exact finalRunStatus_ne_running state.status

theorem run_ended : Yields P (EndedResult o) (run P o r) := by
  unfold run
  dsimp only
  split
  · refine Prog.obeys_bind (obeys_any _) fun _ _ => ?_
    refine Prog.obeys_bind (obeys_any _) fun _ _ => ?_
    refine Prog.obeys_bind (obeys_any _) fun memory _ => ?_
    refine Prog.obeys_bind (runNodes_ended _ _ _ startState_ended) ?_
    rintro ⟨state, y⟩ hstate
    exact finish_ended hstate
  · exact Prog.obeys_fail

/-! ### A contained run -/

/-- The state that a call records. -/
def RepositoryCall.recorded : RepositoryCall → Option PlanState
  | .recordPlanState state => some state
  | _ => none

/-- How a run has to end: it returns and no node is left running, or it is refused with no node
left running by what it recorded. -/
def ErrorsContained {S : Type} (o : RepositoryPlanRunnerOptions)
    (e : Prog.Exec S RepositoryCall RepositoryPlanRunnerResult) : Prop :=
  match e.outcome with
  | .ok result => EndedResult o result
  | .error _ => ∀ state, (e.trace.filterMap (·.2.recorded)).getLast? = some state → NothingRunning o state

/-- Every call that is made answers what is contained, or is guarded and throws. -/
def CallsContained {S : Type} (P : RepositoryPlatform)
    (h : Prog.Handler RepositoryCall RepositoryAnswer S) (trace : List (S × RepositoryCall)) : Prop :=
  ∀ call ∈ trace,
    (∃ a, (h call.2 call.1).1 = .ok a ∧ Contained P.isDatetime call.2 a) ∨
      (call.2.guarded ∧ ∃ message, (h call.2 call.1).1 = .error message)

theorem CallsContained.answers {S : Type} {h : Prog.Handler RepositoryCall RepositoryAnswer S}
    {trace : List (S × RepositoryCall)} (hcalls : CallsContained P h trace)
    {call : S × RepositoryCall} (hcall : call ∈ trace) (a : RepositoryAnswer call.2)
    (ha : (h call.2 call.1).1 = .ok a) : Contained P.isDatetime call.2 a := by
  rcases hcalls call hcall with ⟨b, hb, hcontained⟩ | ⟨-, message, hm⟩
  · rw [hb] at ha
    cases ha
    exact hcontained
  · rw [hm] at ha
    cases ha

/-- The constructor records no state, and the time it keeps is one. -/
theorem construct_yields : Prog.Obeys (fun call => call.recorded = none) (Contained P.isDatetime)
    (fun r => P.isDatetime r.now = true) (construct P o) := by
  unfold construct
  refine Prog.obeys_bind (Q := fun _ => True) ?_ fun now _ => ?_
  · unfold readNow
    split
    · trivial
    · exact ⟨rfl, fun _ _ => trivial, fun _ => trivial⟩
  · split
    · exact Prog.obeys_fail
    · split
      · exact Prog.obeys_fail
      · rename_i hnow
        refine Prog.obeys_bind (Q := fun _ => True)
          ⟨rfl, fun _ _ => trivial, fun _ => trivial⟩ fun updatedAt _ => ?_
        refine Prog.obeys_bind (Q := fun _ => True)
          ⟨rfl, fun _ _ => trivial, fun _ => trivial⟩ fun _ _ => Prog.obeys_done ?_
        simpa using hnow

theorem smooth_contained (call : RepositoryCall) :
    Contained sampleRepositoryPlatform.isDatetime call (smoothAnswer call) := by
  cases call with
  | clock => rfl
  | generatePatchPlan input =>
      intro hneeds
      cases hneeds
  | _ => trivial

/-- A plan that collects evidence. -/
def inspectingPlan : Planfile :=
  samplePlan [sampleNode "frame_goal" .frame [], sampleNode "inspect_repo" .inspect ["frame_goal"]]

/-- One file is listed, and reading it is denied. -/
def denyingAnswer : (call : RepositoryCall) → RepositoryAnswer call
  | .loadWorkspace _ _ => ⟨"workspace", "/", [], [], 128000, 24, false⟩
  | .listFiles _ _ => .parsed ["secret.ts"]
  | .readFile _ _ => .missing "Required"
  | call => smoothAnswer call

def denying : Prog.Handler RepositoryCall RepositoryAnswer Unit := fun call s =>
  (.ok (denyingAnswer call), s)

end OpenLagrange
