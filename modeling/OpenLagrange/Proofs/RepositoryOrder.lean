/-
The order in which a repository run works on its nodes.

The plan runner starts a node when its dependencies are done.  The repository runner does not look
at dependencies: it walks the nodes in listing order.  So it starts nodes in an order that the
plan runner's rule permits exactly where the listing already is one: each node of the walk comes
after those of its dependencies that were not done before the run.

That this is enough holds for every environment.  That it is needed is seen in a smooth one, where
every call answers and every node goes on, so that the walk reaches all its nodes.
-/
import OpenLagrange.Proofs.RepositoryRun

namespace OpenLagrange

open RepositoryPlanRunner

/-! ### The rule of the plan runner -/

/-- The ids of the nodes that are completed or skipped. -/
def PlanState.doneIds (state : PlanState) : List String :=
  (state.nodeStates.filter (·.status.isDone)).map (·.nodeId)

/-- What `readyNodes` asks of the dependencies of a node. -/
def DependenciesDone (state : PlanState) (node : PlanNode) : Prop :=
  ∀ dependency ∈ node.dependsOn, dependency ∈ state.doneIds

/-- The node that the status is at has its dependencies done. -/
def AtPermittedNode (plan : Planfile) (status : RepositoryPlanStatus) : Prop :=
  ∀ node ∈ plan.nodes, status.currentNode = some node.id →
    ∃ state, status.planState = some state ∧ DependenciesDone state node

/-- The run is only ever at nodes whose dependencies are done. -/
def RunsInOrder {S : Type} (plan : Planfile) (trace : List (S × RepositoryCall)) : Prop :=
  ∀ call ∈ trace, ∀ status, call.2 = .writeStatus status → AtPermittedNode plan status

/-- Every node comes after its dependencies, but for those that are done at the start. -/
def WalkedInOrder (start : PlanState) : List String → List PlanNode → Prop
  | _, [] => True
  | before, node :: rest =>
      (∀ d ∈ node.dependsOn, (d ∈ before ∧ d ∈ start.ids) ∨ d ∈ start.doneIds) ∧
        WalkedInOrder start (before ++ [node.id]) rest

/-! ### What marking does to the done nodes -/

variable {P : RepositoryPlatform} {o : RepositoryPlanRunnerOptions} {r : RepositoryRunner}
  {x : Execution} {node : PlanNode} {workspace : RepositoryWorkspace} {start state : PlanState}

theorem mem_doneIds {d : String} :
    d ∈ state.doneIds ↔ ∃ item ∈ state.nodeStates, item.nodeId = d ∧ item.status.isDone = true := by
  simp only [PlanState.doneIds, List.mem_map, List.mem_filter]
  constructor
  · rintro ⟨item, ⟨hitem, hdone⟩, rfl⟩
    exact ⟨item, hitem, rfl, hdone⟩
  · rintro ⟨item, hitem, rfl, hdone⟩
    exact ⟨item, ⟨hitem, hdone⟩, rfl⟩

theorem ids_of_doneIds {d : String} (h : d ∈ state.doneIds) : d ∈ state.ids := by
  obtain ⟨item, hitem, rfl, -⟩ := mem_doneIds.mp h
  exact List.mem_map.mpr ⟨item, hitem, rfl⟩

section Marked

variable {plan : Planfile} {marked : PlanState} {nodeId : String} {status : PlanNodeStatus}
  {artifacts : List PlanArtifactRef} {errors : List String}

theorem MarkedFrom.ids (h : MarkedFrom P plan state nodeId status artifacts errors marked) :
    marked.ids = state.ids := by
  obtain ⟨completedAt, updatedAt, rfl⟩ := h
  simp only [PlanState.ids, markedRepositoryState, markNodeStates, List.map_map]
  refine List.map_congr_left fun item _ => ?_
  simp only [Function.comp]
  split <;> rfl

theorem MarkedFrom.mem_doneIds (h : MarkedFrom P plan state nodeId status artifacts errors marked)
    {d : String} : d ∈ marked.doneIds ↔
      (d = nodeId ∧ d ∈ state.ids ∧ status.isDone = true) ∨ (d ≠ nodeId ∧ d ∈ state.doneIds) := by
  obtain ⟨completedAt, updatedAt, rfl⟩ := h
  rw [OpenLagrange.mem_doneIds, OpenLagrange.mem_doneIds]
  constructor
  · rintro ⟨item, hitem, rfl, hdone⟩
    obtain ⟨before, hbefore, rfl⟩ := List.mem_map.mp hitem
    by_cases hid : before.nodeId = nodeId
    · rw [if_pos hid] at hdone ⊢
      exact Or.inl ⟨hid, List.mem_map.mpr ⟨before, hbefore, rfl⟩, hdone⟩
    · rw [if_neg hid] at hdone ⊢
      exact Or.inr ⟨hid, before, hbefore, rfl, hdone⟩
  · rintro (⟨rfl, hid, hdone⟩ | ⟨hne, item, hitem, rfl, hdone⟩)
    · obtain ⟨before, hbefore, hid⟩ := List.mem_map.mp hid
      refine ⟨_, List.mem_map.mpr ⟨before, hbefore, rfl⟩, ?_, ?_⟩
      · rw [if_pos hid]
        exact hid
      · rw [if_pos hid]
        exact hdone
    · refine ⟨item, List.mem_map.mpr ⟨item, hitem, if_neg hne⟩, rfl, hdone⟩

end Marked

/-- Where the walk is: the nodes before are done, and the others are as at the start. -/
structure Walked (start : PlanState) (before : List String) (state : PlanState) : Prop where
  ids : state.ids = start.ids
  done : ∀ d, d ∈ state.doneIds ↔ (d ∈ before ∧ d ∈ start.ids) ∨ d ∈ start.doneIds

theorem walked_start : Walked start [] start where
  ids := rfl
  done d := by simp

/-- What is done while a node runs, apart from the node. -/
theorem Walked.running {before : List String} {running : PlanState} {plan : Planfile}
    (hstate : Walked start before state)
    (hrunning : MarkedFrom P plan state node.id .running [] [] running) {d : String}
    (hd : d ≠ node.id) :
    d ∈ running.doneIds ↔ (d ∈ before ∧ d ∈ start.ids) ∨ d ∈ start.doneIds := by
  rw [hrunning.mem_doneIds, ← hstate.done]
  simp [hd]

/-- A node that goes on is done. -/
theorem Walked.next {before : List String} {running marked : PlanState} {plan : Planfile}
    {outcome : NodeOutcome} {artifacts : List PlanArtifactRef} {errors : List String}
    (hstate : Walked start before state)
    (hrunning : MarkedFrom P plan state node.id .running [] [] running)
    (hmarked : MarkedFrom P plan running node.id outcome.status artifacts errors marked)
    (hdone : outcome.status.isDone = true) : Walked start (before ++ [node.id]) marked := by
  have hids : running.ids = start.ids := hrunning.ids.trans hstate.ids
  refine ⟨hmarked.ids.trans hids, fun d => ?_⟩
  rw [hmarked.mem_doneIds, hids]
  by_cases hd : d = node.id
  · constructor
    · rintro (⟨-, hlisted, -⟩ | ⟨hne, -⟩)
      · exact Or.inl ⟨by simp [hd], hlisted⟩
      · exact (hne hd).elim
    · rintro (⟨-, hlisted⟩ | hstart)
      · exact Or.inl ⟨hd, hlisted, hdone⟩
      · exact Or.inl ⟨hd, ids_of_doneIds hstart, hdone⟩
  · rw [hstate.running hrunning hd]
    simp [hd]

/-! ### In order -/

/-- Every status that is written is at a permitted node. -/
def WritesPermitted (plan : Planfile) (call : RepositoryCall) : Prop :=
  ∀ status, call = .writeStatus status → AtPermittedNode plan status

/-- Only the current node of a status and its state of the plan matter. -/
theorem AtPermittedNode.of_sameCourse {plan : Planfile} {a b : RepositoryPlanStatus}
    (h : AtPermittedNode plan a) (hab : a.SameCourse b) : AtPermittedNode plan b := by
  intro node hnode hcurrent
  rw [hab.currentNode] at hcurrent
  rw [hab.planState]
  exact h node hnode hcurrent

/-- A call that writes no status. -/
theorem writesPermitted_of_ne {plan : Planfile} {call : RepositoryCall}
    (h : ∀ status, call ≠ .writeStatus status) : WritesPermitted plan call :=
  fun status hcall => (h status hcall).elim

theorem writesPermitted_clock {plan : Planfile} : WritesPermitted plan .clock :=
  writesPermitted_of_ne fun status h => by cases h

theorem writesPermitted_record {plan : Planfile} {state : PlanState} :
    WritesPermitted plan (.recordPlanState state) :=
  writesPermitted_of_ne fun status h => by cases h

theorem writesPermitted_of_nodeCall {plan : Planfile} {c : RepositoryPlanStatus}
    (h : AtPermittedNode plan c) {call : RepositoryCall} (hcall : NodeCall c call) :
    WritesPermitted plan call := by
  rintro status rfl
  exact h.of_sameCourse hcall

/-- The status at a node of the plan, in a state in which the dependencies of the node are done. -/
theorem atPermittedNode_of_current {plan : Planfile} (hs : plan.Sound) (hnode : node ∈ plan.nodes)
    {status : RepositoryPlanStatus} (hcurrent : status.currentNode = some node.id)
    (hstate : status.planState = some state) (hdone : DependenciesDone state node) :
    AtPermittedNode plan status := by
  intro other hother hsame
  have hid : other.id = node.id := by
    rw [hcurrent] at hsame
    exact (Option.some.inj hsame).symm
  have heq : other = node := List.inj_on_of_nodup_map hs.nodup hother hnode hid
  rw [heq]
  exact ⟨state, hstate, hdone⟩

/-- No node of a sound plan depends on itself. -/
theorem Planfile.Sound.not_self {plan : Planfile} (hs : plan.Sound) (hnode : node ∈ plan.nodes) :
    node.id ∉ node.dependsOn := by
  intro hself
  have hbelow : plan.graph.Below node.id node.id := by
    show node.id ∈ plan.graph.deps node.id
    rw [Planfile.deps_of_nodup hs.nodup hnode]
    exact hself
  exact hs.acyclic.irrefl.irrefl node.id hbelow

theorem endedStatus_course (r : RepositoryRunner) (node : PlanNode) (state : PlanState)
    (result : RepositoryNodeResult) (memory : RepositoryExecutionMemory)
    (status : RepositoryPlanStatus) :
    (endedStatus r node state result memory status).currentNode = status.currentNode ∧
      (endedStatus r node state result memory status).planState = some state ∧
      (endedStatus r node state result memory status).status = status.status := by
  unfold endedStatus
  dsimp only
  split <;> exact ⟨rfl, rfl, rfl⟩

/-- **A walk in order is permitted**, whatever its calls answer. -/
theorem runNodes_permitted (hs : r.plan.Sound) {nodes : List PlanNode} {before : List String}
    (hnodes : ∀ node ∈ nodes, node ∈ r.plan.nodes) (hstate : Walked start before state)
    (hwalk : WalkedInOrder start before nodes)
    (hx : nodes = [] → AtPermittedNode r.plan x.status) :
    Prog.Obeys (WritesPermitted r.plan) (fun _ _ => True)
      (fun out => AtPermittedNode r.plan out.2.status) (runNodes P o r nodes state x) := by
  induction nodes generalizing before state x with
  | nil => exact hx rfl
  | cons node rest ih =>
      have hnode : node ∈ r.plan.nodes := hnodes node List.mem_cons_self
      have hself : ∀ d ∈ node.dependsOn, d ≠ node.id := by
        rintro d hd rfl
        exact hs.not_self hnode hd
      unfold runNodes
      refine Prog.obeys_bind (markNode_obeys writesPermitted_clock fun _ _ => writesPermitted_record) fun running hrunning => ?_
      have hdeps : DependenciesDone running node := fun d hd =>
        (hstate.running hrunning (hself d hd)).mpr (hwalk.1 d hd)
      have hat : ∀ status : RepositoryPlanStatus, status.currentNode = some node.id →
          status.planState = some running → AtPermittedNode r.plan status := fun status h h' =>
        atPermittedNode_of_current hs hnode h h' hdeps
      refine Prog.obeys_bind (writeStatus_obeys writesPermitted_clock ?_) ?_
      · intro updatedAt status hstatus
        cases hstatus
        exact hat _ rfl rfl
      rintro y ⟨-, updatedAt, hy⟩
      have hycurrent : y.status.currentNode = some node.id := by rw [hy]; rfl
      have hystate : y.status.planState = some running := by rw [hy]; rfl
      have hycourse : y.status.SameCourse y.status := ⟨rfl, rfl, rfl⟩
      refine Prog.obeys_bind ((inNode_runNode (p := False) hycourse).mono
        (fun call => writesPermitted_of_nodeCall (hat y.status hycurrent hystate))
        (fun call a _ => ?_) fun _ h => h) ?_
      · unfold RepairsApply
        split
        · exact False.elim
        · trivial
      rintro ⟨result, z⟩ ⟨-, hz⟩
      refine Prog.obeys_bind (markNode_obeys writesPermitted_clock fun _ _ => writesPermitted_record) fun marked hmarked => ?_
      have hdeps' : DependenciesDone marked node := fun d hd =>
        hmarked.mem_doneIds.mpr (Or.inr ⟨hself d hd, hdeps d hd⟩)
      have hended : ∀ status : RepositoryPlanStatus,
          status.currentNode = (endedStatus r node marked result z.memory z.status).currentNode →
          status.planState = (endedStatus r node marked result z.memory z.status).planState →
          AtPermittedNode r.plan status := by
        intro status hcurrent hplan
        have hcourse := endedStatus_course r node marked result z.memory z.status
        refine atPermittedNode_of_current hs hnode ?_ (hplan.trans hcourse.2.1) hdeps'
        rw [hcurrent, hcourse.1, hz.currentNode, hycurrent]
      refine Prog.obeys_bind (writeStatus_obeys writesPermitted_clock ?_) ?_
      · intro now status hstatus
        cases hstatus
        exact hended _ rfl rfl
      rintro w ⟨-, now, hw⟩
      have hwat : AtPermittedNode r.plan w.status := by
        rw [hw]
        exact hended _ rfl rfl
      split
      · exact Prog.obeys_done hwat
      · rename_i hgoes
        have hdone : result.status.status.isDone = true := by
          revert hgoes
          cases result.status <;> simp [NodeOutcome.status, PlanNodeStatus.isDone]
        exact ih (fun node hnode => hnodes node (List.mem_cons_of_mem _ hnode))
          (hstate.next hrunning hmarked hdone) hwalk.2 fun _ => hwat

/-! ### A smooth environment -/

/-- In a smooth environment the program returns, with a value in `Q`. -/
def Succeeds {α : Type} (Q : α → Prop) (program : RepositoryProgram α) : Prop :=
  ∃ a, (Prog.exec smooth program ()).outcome = .ok a ∧ Q a

theorem succeeds_done {α : Type} {Q : α → Prop} {a : α} (ha : Q a) :
    Succeeds Q (.done a : RepositoryProgram α) := ⟨a, rfl, ha⟩

theorem succeeds_bind {α β : Type} {Q : α → Prop} {Q' : β → Prop} {program : RepositoryProgram α}
    {f : α → RepositoryProgram β} (hp : Succeeds Q program) (hf : ∀ a, Q a → Succeeds Q' (f a)) :
    Succeeds Q' (program.bind f) := by
  obtain ⟨a, ha, hQ⟩ := hp
  obtain ⟨b, hb, hQ'⟩ := hf a hQ
  refine ⟨b, ?_, hQ'⟩
  rw [Prog.exec_bind_ok smooth f ha]
  exact hb

theorem succeeds_await_bind {α : Type} {Q : α → Prop} {call : RepositoryCall}
    {f : RepositoryAnswer call → RepositoryProgram α} (hf : Succeeds Q (f (smoothAnswer call))) :
    Succeeds Q ((await call).bind f) :=
  succeeds_bind (Q := fun a => a = smoothAnswer call) ⟨_, rfl, rfl⟩ fun a ha => by
    rw [ha]
    exact hf

theorem succeeds_writeStatus {patch : RepositoryPlanStatus → RepositoryPlanStatus} :
    Succeeds (fun y => y.memory = x.memory) (writeStatus x patch) := ⟨_, rfl, rfl⟩

theorem succeeds_recordArtifact {kind : RepositoryArtifactKind} {title summary : String}
    {content : ArtifactContent} :
    Succeeds (fun made => made.2.memory = x.memory) (recordArtifact x kind title summary content) :=
  ⟨_, rfl, rfl⟩

theorem succeeds_readFiles {nodeId : String} (paths : List String) :
    Succeeds (fun _ => True) (readFiles nodeId paths) := by
  induction paths with
  | nil => exact succeeds_done trivial
  | cons path rest ih =>
      unfold readFiles
      refine succeeds_await_bind ?_
      refine succeeds_bind (Q := fun _ => True) ⟨_, rfl, trivial⟩ fun read _ => ?_
      exact succeeds_bind ih fun reads _ => succeeds_done trivial

theorem succeeds_collectEvidence :
    Succeeds (fun evidence => evidence.evidenceBundleId ≠ "")
      (collectEvidence P o r workspace node) := by
  unfold collectEvidence collectEvidenceBundle
  refine succeeds_await_bind ?_
  refine succeeds_bind (Q := fun _ => True) ⟨_, rfl, trivial⟩ fun files _ => ?_
  refine succeeds_bind (succeeds_readFiles _) fun reads _ => ?_
  refine succeeds_await_bind ?_
  refine succeeds_bind (Q := fun _ => True) ⟨_, rfl, trivial⟩ fun searchResults _ =>
    succeeds_done ?_
  intro hempty
  exact absurd (String.append_eq_empty_iff.mp hempty).1 (by decide)

/-- The evidence at hand has an id. -/
def Named (x : Execution) : Prop :=
  ∀ evidence, x.memory.evidence = some evidence → evidence.evidenceBundleId ≠ ""

theorem Named.of_memory {y : Execution} (hx : Named x) (h : y.memory.evidence = x.memory.evidence) :
    Named y := by
  intro evidence hevidence
  rw [h] at hevidence
  exact hx evidence hevidence

theorem succeeds_ensureEvidence {title : String} (hx : Named x) :
    Succeeds (fun made => made.1.evidenceBundleId ≠ "" ∧ Named made.2)
      (ensureEvidence P o r title workspace node x) := by
  unfold ensureEvidence
  cases hevidence : x.memory.evidence with
  | some evidence => exact succeeds_done ⟨hx evidence hevidence, hx⟩
  | none =>
      refine succeeds_bind succeeds_collectEvidence fun evidence hid => ?_
      refine succeeds_bind succeeds_recordArtifact ?_
      rintro ⟨artifact, y⟩ hy
      refine succeeds_bind succeeds_writeStatus fun z hz => succeeds_done ⟨hid, ?_⟩
      intro other hother
      rw [hz, hy] at hother
      cases hother
      exact hid

theorem smoothPatchPlan_refined {input : GeneratePatchPlanFromEvidenceInput}
    {isDatetime : String → Bool} (hid : input.evidenceBundle.evidenceBundleId ≠ "") :
    (smoothPatchPlan input).refined isDatetime = true := by
  simp [RepositoryPatchPlan.refined, smoothPatchPlan, nonempty, hid,
    RepositoryPatchOperation.refined]

theorem succeeds_generatePatchPlan {evidence : EvidenceBundle} {mode : PatchMode}
    {failures : Option (List VerificationFailure)} {diff : Option String}
    (hid : evidence.evidenceBundleId ≠ "") :
    Succeeds (fun made => (∃ plan policy artifact, made.1 = .generated plan policy artifact ∧
        plan.requiresScopeExpansion = false) ∧ made.2.memory = x.memory)
      (generatePatchPlan P o r node evidence mode failures diff x) := by
  unfold generatePatchPlan
  refine succeeds_await_bind ?_
  refine succeeds_bind succeeds_recordArtifact ?_
  rintro ⟨contextArtifact, y⟩ hy
  refine succeeds_bind (Q := fun answer => ∃ input : GeneratePatchPlanFromEvidenceInput,
    input.evidenceBundle = evidence ∧ answer = .ok (.patchPlan (smoothPatchPlan input)))
    ⟨_, rfl, _, rfl, rfl⟩ ?_
  rintro answer ⟨input, rfl, rfl⟩
  refine succeeds_done ⟨⟨smoothPatchPlan input, patchPolicy o r node input.evidenceBundle,
    contextArtifact, ?_, rfl⟩, hy⟩
  unfold generatedPatchPlan
  dsimp only
  rw [if_pos (smoothPatchPlan_refined hid), if_neg]
  simp [smoothPatchPlan, EvidenceBundle.refs]

theorem succeeds_examinePatchPlan {variant : PatchVariant} {evidence : EvidenceBundle}
    {lead : List PlanArtifactRef} {plan : RepositoryPatchPlan} {policy : PatchPolicy}
    (hscope : plan.requiresScopeExpansion = false) (hx : Named x) :
    Succeeds (fun made => (∃ refs, made.1 = .accepted refs) ∧ Named made.2)
      (examinePatchPlan P r variant workspace node evidence lead plan policy x) := by
  unfold examinePatchPlan handleScopeExpansionIfNeeded
  refine succeeds_bind succeeds_recordArtifact ?_
  rintro ⟨planArtifact, y⟩ hy
  dsimp only
  rw [hscope]
  refine succeeds_await_bind ?_
  refine succeeds_bind succeeds_recordArtifact ?_
  rintro ⟨validationArtifact, z⟩ hz
  refine succeeds_done ⟨⟨_, rfl⟩, hx.of_memory ?_⟩
  show z.memory.evidence = x.memory.evidence
  rw [hz, hy]

/-- A node that goes on. -/
def GoesOn (made : RepositoryNodeResult × Execution) : Prop :=
  made.1.status.status.isDone = true ∧ Named made.2

theorem succeeds_patchNode (hx : Named x) :
    Succeeds GoesOn (patchNode P o r workspace node x) := by
  unfold patchNode
  refine succeeds_bind (succeeds_ensureEvidence hx) ?_
  rintro ⟨evidence, y⟩ ⟨hid, hy⟩
  refine succeeds_bind (succeeds_generatePatchPlan hid) ?_
  rintro ⟨generated, z⟩ ⟨⟨plan, policy, artifact, rfl, hscope⟩, hz⟩
  refine succeeds_bind (succeeds_examinePatchPlan hscope (hy.of_memory (congrArg _ hz))) ?_
  rintro ⟨examined, w⟩ ⟨⟨refs, rfl⟩, hw⟩
  exact ⟨_, rfl, rfl, hw⟩

theorem succeeds_attemptRepair {verification : RepositoryVerificationReport}
    {repair : RepairAttempt} {repairArtifact : RepositoryArtifact} (hx : Named x) :
    Succeeds GoesOn (attemptRepair P o r workspace node verification repair repairArtifact x) := by
  unfold attemptRepair
  refine succeeds_bind (succeeds_ensureEvidence hx) ?_
  rintro ⟨evidence, z⟩ ⟨hid, hz⟩
  refine succeeds_bind (succeeds_generatePatchPlan hid) ?_
  rintro ⟨generated, w⟩ ⟨⟨plan, policy, artifact, rfl, hscope⟩, hw⟩
  refine succeeds_bind (succeeds_examinePatchPlan hscope (hz.of_memory (congrArg _ hw))) ?_
  rintro ⟨examined, v⟩ ⟨⟨refs, rfl⟩, hv⟩
  exact ⟨_, rfl, rfl, hv⟩

theorem succeeds_repairNode (hx : Named x) :
    Succeeds GoesOn (repairNode P o r workspace node x) := by
  unfold repairNode
  cases x.memory.verification with
  | none => exact succeeds_done ⟨rfl, hx⟩
  | some verification =>
      dsimp only
      split
      · exact succeeds_done ⟨rfl, hx⟩
      · refine succeeds_bind succeeds_recordArtifact ?_
        rintro ⟨repairArtifact, y⟩ hy
        exact succeeds_attemptRepair (hx.of_memory (congrArg (·.evidence) hy))

theorem succeeds_runNode (hx : Named x) : Succeeds GoesOn (runNode P o r node x) := by
  unfold runNode
  split
  · exact succeeds_done ⟨rfl, hx⟩
  · refine succeeds_await_bind ?_
    cases node.kind with
    | inspect =>
        show Succeeds GoesOn (inspectNode P o r _ node x)
        unfold inspectNode
        refine succeeds_bind succeeds_collectEvidence fun evidence hid => ?_
        refine succeeds_bind succeeds_recordArtifact ?_
        rintro ⟨artifact, y⟩ hy
        refine succeeds_done ⟨rfl, ?_⟩
        intro other hother
        rw [hy] at hother
        cases hother
        exact hid
    | patch => exact succeeds_patchNode hx
    | verify => exact ⟨_, rfl, rfl, hx⟩
    | repair => exact succeeds_repairNode hx
    | review =>
        show Succeeds GoesOn (reviewNode P o r node x)
        unfold reviewNode reviewReport
        split
        · exact ⟨_, rfl, rfl, hx⟩
        · exact ⟨_, rfl, rfl, hx⟩
    | _ => exact succeeds_done ⟨rfl, hx⟩

/-! ### Needed -/

/-- The smooth run of the program is only at permitted nodes. -/
def SmoothlyPermitted {α : Type} (plan : Planfile) (program : RepositoryProgram α) : Prop :=
  ∀ call ∈ (Prog.exec smooth program ()).trace, WritesPermitted plan call.2

theorem smoothly_bind {α β : Type} {plan : Planfile} {program : RepositoryProgram α}
    {f : α → RepositoryProgram β} {a : α} (h : SmoothlyPermitted plan (program.bind f))
    (ha : (Prog.exec smooth program ()).outcome = .ok a) :
    SmoothlyPermitted plan program ∧ SmoothlyPermitted plan (f a) :=
  ⟨fun call hcall => h call (Prog.mem_trace_bind_left smooth hcall),
    fun call hcall => h call (Prog.mem_trace_bind_right smooth ha hcall)⟩

/-- A status that is written is seen. -/
theorem smoothly_writeStatus {plan : Planfile} {patch : RepositoryPlanStatus → RepositoryPlanStatus}
    (h : SmoothlyPermitted plan (writeStatus x patch)) :
    AtPermittedNode plan { patch x.status with updatedAt := "now" } :=
  h ((), .writeStatus { patch x.status with updatedAt := "now" })
    (List.mem_cons_of_mem _ List.mem_cons_self) _ rfl

theorem walkedInOrder_of_permitted (hs : r.plan.Sound) {nodes : List PlanNode}
    {before : List String} (hnodes : ∀ node ∈ nodes, node ∈ r.plan.nodes)
    (hstate : Walked start before state) (hx : Named x)
    (hruns : SmoothlyPermitted r.plan (runNodes P o r nodes state x)) :
    WalkedInOrder start before nodes := by
  induction nodes generalizing before state x with
  | nil => trivial
  | cons node rest ih =>
      have hnode : node ∈ r.plan.nodes := hnodes node List.mem_cons_self
      unfold runNodes at hruns
      have hmarkedRunning := (smoothly_bind hruns (a := markedRepositoryState P r.plan state node.id
        .running [] [] "now" "now") rfl).2
      have hstarted := smoothly_bind hmarkedRunning rfl
      have hat := smoothly_writeStatus hstarted.1
      have hrunning : MarkedFrom P r.plan state node.id .running [] []
          (markedRepositoryState P r.plan state node.id .running [] [] "now" "now") := ⟨_, _, rfl⟩
      refine ⟨?_, ?_⟩
      · obtain ⟨running, hplan, hdone⟩ := hat node hnode rfl
        cases hplan
        intro d hd
        refine (hstate.running hrunning ?_).mp (hdone d hd)
        rintro rfl
        exact hs.not_self hnode hd
      · have hsucceeds : Succeeds GoesOn (runNode P o r node _) := succeeds_runNode
          (x := { x with status :=
            { startedNodeStatus node (markedRepositoryState P r.plan state node.id .running [] []
              "now" "now") x.status with updatedAt := "now" } }) hx
        obtain ⟨⟨result, z⟩, hrun, hdone, hz⟩ := hsucceeds
        have hworked := (smoothly_bind hstarted.2 hrun).2
        have hmarked := (smoothly_bind hworked (a := markedRepositoryState P r.plan
          (markedRepositoryState P r.plan state node.id .running [] [] "now" "now") node.id
          result.status.status result.artifactRefs result.errors "now" "now") rfl).2
        have hended := (smoothly_bind hmarked rfl).2
        have hgoes : ¬ (result.status = .failed ∨ result.status = .yielded) := by
          revert hdone
          cases result.status <;> simp [NodeOutcome.status, PlanNodeStatus.isDone]
        rw [if_neg hgoes] at hended
        refine ih (fun node hnode => hnodes node (List.mem_cons_of_mem _ hnode)) ?_ ?_ hended
        · exact hstate.next hrunning ⟨_, _, rfl⟩ hdone
        · exact Named.of_memory (x := z) hz rfl

/-! ### The whole run -/

theorem nodesForRun_mem : ∀ node ∈ nodesForRun o r, node ∈ r.plan.nodes := by
  intro node hnode
  unfold nodesForRun at hnode
  split at hnode
  · exact hnode
  · split at hnode
    · exact (List.dropWhile_suffix _).subset hnode
    · exact hnode

/-- A plan with nodes has nodes to walk. -/
theorem nodesForRun_ne_nil (h : r.plan.nodes ≠ []) : nodesForRun o r ≠ [] := by
  unfold nodesForRun
  split
  · exact h
  · split
    · rename_i id _ hid
      rw [ne_eq, List.dropWhile_eq_nil_iff]
      intro hall
      obtain ⟨node, hnode, hsame⟩ := List.any_eq_true.mp hid
      have hne := hall node hnode
      simp only [decide_eq_true_eq] at hne hsame
      exact hne hsame
    · exact h

theorem run_permitted (hs : r.plan.Sound)
    (hwalk : WalkedInOrder (startState P o r) [] (nodesForRun o r)) :
    Prog.Obeys (WritesPermitted r.plan) (fun _ _ => True) (fun _ => True) (run P o r) := by
  have hother : ∀ {call : RepositoryCall}, (∀ status, call ≠ .writeStatus status) →
      Prog.Obeys (WritesPermitted r.plan) (fun _ _ => True) (fun _ => True) (await call) :=
    fun h => Prog.obeys_perform (writesPermitted_of_ne h) fun _ _ => trivial
  unfold run
  dsimp only
  split
  · refine Prog.obeys_bind (hother fun _ h => by cases h) fun _ _ => ?_
    refine Prog.obeys_bind (hother fun _ h => by cases h) fun _ _ => ?_
    refine Prog.obeys_bind (Q := fun _ => True) ?_ fun memory _ => ?_
    · unfold createInitialMemory
      refine Prog.obeys_bind (Q := fun _ => True) ?_ fun verification _ =>
        Prog.obeys_bind (Q := fun _ => True) ?_ fun artifact _ => trivial
      · cases (o.initialStatus.bind fun status => truthy status.verificationReportIds.getLast?) with
        | none => trivial
        | some id => exact hother fun _ h => by cases h
      · cases (rememberedMemory o).patchArtifactId with
        | none => trivial
        | some id => exact hother fun _ h => by cases h
    · refine Prog.obeys_bind (runNodes_permitted hs nodesForRun_mem walked_start hwalk ?_) ?_
      · intro hnil node hnode
        have hsome : r.plan.nodes ≠ [] := List.ne_nil_of_mem hnode
        exact (nodesForRun_ne_nil hsome hnil).elim
      rintro ⟨state, x⟩ hx
      unfold finish
      refine Prog.obeys_bind (hother fun _ h => by cases h) fun finalPatch _ => ?_
      refine Prog.obeys_bind (recordArtifact_obeys (writesPermitted_of_ne fun _ h => by cases h)) ?_
      rintro ⟨finalArtifact, y⟩ ⟨hy, -⟩
      refine Prog.obeys_bind (hother fun _ h => by cases h) fun updatedAt _ => ?_
      have hkept : ∀ status : RepositoryPlanStatus, status.currentNode = y.status.currentNode →
          status.planState = y.status.planState → AtPermittedNode r.plan status := by
        intro status hcurrent hplan node hnode hat
        rw [hcurrent, hy] at hat
        rw [hplan, hy]
        exact hx node hnode hat
      refine Prog.obeys_bind (writeStatus_obeys writesPermitted_clock ?_) fun z _ => ?_
      · intro now status hstatus
        cases hstatus
        exact hkept _ rfl rfl
      · exact Prog.obeys_bind (hother fun _ h => by cases h) fun _ _ => trivial
  · exact Prog.obeys_fail

/-- The smooth run of an accepted plan walks to its end. -/
theorem walkedInOrder_of_run (hvalid : (validatePlanfile P.toPlatform none r.plan).ok = true)
    (hruns : SmoothlyPermitted r.plan (run P o r)) :
    WalkedInOrder (startState P o r) [] (nodesForRun o r) := by
  unfold run at hruns
  dsimp only at hruns
  rw [if_pos hvalid] at hruns
  have hpersisted := (smoothly_bind hruns rfl).2
  have hrecorded := (smoothly_bind hpersisted rfl).2
  have hmemory : Succeeds (fun memory => memory.evidence = none) (createInitialMemory o) := by
    unfold createInitialMemory
    refine succeeds_bind (Q := fun _ => True) ?_ fun verification _ =>
      succeeds_bind (Q := fun _ => True) ?_ fun artifact _ => succeeds_done rfl
    · cases (o.initialStatus.bind fun status => truthy status.verificationReportIds.getLast?) with
      | none => exact succeeds_done trivial
      | some id => exact ⟨_, rfl, trivial⟩
    · cases (rememberedMemory o).patchArtifactId with
      | none => exact succeeds_done trivial
      | some id => exact ⟨_, rfl, trivial⟩
  obtain ⟨memory, hmade, hevidence⟩ := hmemory
  have hremembered := (smoothly_bind hrecorded hmade).2
  have hnodes : SmoothlyPermitted r.plan (runNodes P o r (nodesForRun o r) (startState P o r)
      ⟨r.status, [], memory⟩) := fun call hcall =>
    hremembered call (Prog.mem_trace_bind_left smooth hcall)
  refine walkedInOrder_of_permitted (sound_of_valid hvalid) nodesForRun_mem walked_start ?_ hnodes
  intro evidence hsome
  rw [hevidence] at hsome
  cases hsome

/-- **A repository run starts its nodes in an order that the plan runner permits**, whatever its
environment, exactly if the listing order does. -/
theorem run_inOrder_iff (P : RepositoryPlatform) (o : RepositoryPlanRunnerOptions)
    (r : RepositoryRunner) (hvalid : (validatePlanfile P.toPlatform none r.plan).ok = true) :
    (∀ (S : Type) (h : Prog.Handler RepositoryCall RepositoryAnswer S) (s : S),
      RunsInOrder r.plan (Prog.exec h (run P o r) s).trace) ↔
      WalkedInOrder (startState P o r) [] (nodesForRun o r) := by
  constructor
  · intro h
    exact walkedInOrder_of_run hvalid fun call hcall status hstatus =>
      h Unit smooth () call hcall status hstatus
  · intro hwalk S h s call hcall status hstatus
    have hpermitted := run_permitted (sound_of_valid hvalid) hwalk
    exact (hpermitted.exec_along (h := h) (s := s) fun _ _ _ _ => trivial).1 call hcall status hstatus

/-- The second node depends on the third one. -/
def backwardPlan : Planfile :=
  samplePlan [sampleNode "frame_goal" .frame [], sampleNode "late_design" .design ["early_design"],
    sampleNode "early_design" .design ["frame_goal"]]

theorem run_inOrder_forward :
    RunsInOrder sampleChain (Prog.exec smooth (run sampleRepositoryPlatform
      (sampleRepositoryOptions sampleChain) (sampleRepositoryRunner sampleChain)) ()).trace :=
  (run_inOrder_iff sampleRepositoryPlatform (sampleRepositoryOptions sampleChain)
    (sampleRepositoryRunner sampleChain) (by decide +kernel)).mpr (by
      refine ⟨nofun, ?_, trivial⟩
      intro d hd
      exact Or.inl ⟨hd, by decide +kernel +revert⟩) Unit smooth ()

/-- The plan is accepted, and its run starts a node before the one it depends on. -/
theorem backwardPlan_out_of_order :
    (validatePlanfile sampleRepositoryPlatform.toPlatform none backwardPlan).ok = true ∧
      ¬ RunsInOrder backwardPlan (Prog.exec smooth (run sampleRepositoryPlatform
        (sampleRepositoryOptions backwardPlan) (sampleRepositoryRunner backwardPlan)) ()).trace := by
  have hvalid : (validatePlanfile sampleRepositoryPlatform.toPlatform none backwardPlan).ok = true := by
    decide +kernel
  refine ⟨hvalid, fun hruns => ?_⟩
  have hwalk := walkedInOrder_of_run (P := sampleRepositoryPlatform)
    (o := sampleRepositoryOptions backwardPlan) (r := sampleRepositoryRunner backwardPlan) hvalid
    fun call hcall status hstatus => hruns call hcall status hstatus
  rcases hwalk.2.1 "early_design" List.mem_cons_self with ⟨hbefore, -⟩ | hdone
  · exact absurd hbefore (by decide)
  · exact absurd hdone (by decide +kernel)

end OpenLagrange
