/-
Plan states as phases.

The runner works on lists: it looks nodes up by id, rewrites the entry of one node,
and filters the plan for what is ready.  Here those lists become a function from ids
to phases.  A state `Fits` its plan when it lists exactly the plan's nodes in order,
which creating a state gives and every rewriting keeps; for a fitting state of a
sound plan, `readyNodes` is the ready list of the plan's graph, and marking a node is
updating one phase.
-/
import OpenLagrange.Planning.ControlPlane
import OpenLagrange.Proofs.Validator

namespace OpenLagrange

/-! ### Looking nodes up -/

theorem PlanState.node?_of_nodup {state : PlanState} (hnd : state.ids.Nodup) {ns : PlanNodeState}
    (h : ns ∈ state.nodeStates) : state.node? ns.nodeId = some ns :=
  find?_of_nodup hnd h

theorem PlanState.node?_mem {state : PlanState} {id : String} {ns : PlanNodeState}
    (h : state.node? id = some ns) : ns ∈ state.nodeStates ∧ ns.nodeId = id := by
  have hid := List.find?_some h
  exact ⟨List.mem_of_find?_eq_some h, by simpa using hid⟩

theorem PlanState.node?_eq_none {state : PlanState} {id : String} :
    state.node? id = none ↔ id ∉ state.ids := by
  unfold PlanState.node? PlanState.ids
  rw [List.find?_eq_none]
  simp

theorem PlanState.phase_of_mem {state : PlanState} (hnd : state.ids.Nodup) {ns : PlanNodeState}
    (h : ns ∈ state.nodeStates) : state.phase ns.nodeId = ns.status.phase := by
  unfold PlanState.phase
  rw [state.node?_of_nodup hnd h]

/-- A phase other than halted is the phase of a listed node. -/
theorem PlanState.phase_eq_iff {state : PlanState} (hnd : state.ids.Nodup) {id : String} {p : Phase}
    (hp : p ≠ .halted) :
    state.phase id = p ↔ ∃ ns ∈ state.nodeStates, ns.nodeId = id ∧ ns.status.phase = p := by
  constructor
  · intro h
    unfold PlanState.phase at h
    cases hf : state.node? id with
    | none =>
        rw [hf] at h
        exact absurd h.symm hp
    | some ns =>
        rw [hf] at h
        obtain ⟨hmem, hid⟩ := PlanState.node?_mem hf
        exact ⟨ns, hmem, hid, h⟩
  · rintro ⟨ns, hmem, rfl, rfl⟩
    exact state.phase_of_mem hnd hmem

theorem PlanState.mem_done_iff {state : PlanState} (hnd : state.ids.Nodup) {id : String} :
    id ∈ (state.nodeStates.filter (·.status.isDone)).map (·.nodeId) ↔ state.phase id = .done := by
  rw [state.phase_eq_iff hnd (by simp)]
  simp only [List.mem_map, List.mem_filter, PlanNodeStatus.phase_done]
  constructor
  · rintro ⟨ns, ⟨hmem, hdone⟩, hid⟩
    exact ⟨ns, hmem, hid, hdone⟩
  · rintro ⟨ns, hmem, hid, hdone⟩
    exact ⟨ns, ⟨hmem, hdone⟩, hid⟩

theorem PlanState.mem_waiting_iff {state : PlanState} (hnd : state.ids.Nodup) {id : String} :
    id ∈ (state.nodeStates.filter (·.status.isWaiting)).map (·.nodeId) ↔
      state.phase id = .waiting := by
  rw [state.phase_eq_iff hnd (by simp)]
  simp only [List.mem_map, List.mem_filter, PlanNodeStatus.phase_waiting]
  constructor
  · rintro ⟨ns, ⟨hmem, hwait⟩, hid⟩
    exact ⟨ns, hmem, hid, hwait⟩
  · rintro ⟨ns, hmem, hid, hwait⟩
    exact ⟨ns, ⟨hmem, hwait⟩, hid⟩

theorem PlanState.done_iff {state : PlanState} (hnd : state.ids.Nodup) {id : String} :
    state.done id = true ↔ state.phase id = .done := by
  rw [state.phase_eq_iff hnd (by simp)]
  simp [PlanState.done]

theorem PlanState.allDone_iff {state : PlanState} (hnd : state.ids.Nodup) :
    state.allDone = true ↔ ∀ id ∈ state.ids, state.phase id = .done := by
  unfold PlanState.allDone
  rw [List.all_eq_true]
  constructor
  · intro h id hid
    obtain ⟨ns, hmem, rfl⟩ := List.mem_map.mp hid
    rw [state.phase_of_mem hnd hmem, PlanNodeStatus.phase_done]
    exact h ns hmem
  · intro h ns hmem
    have hphase := h ns.nodeId (List.mem_map.mpr ⟨ns, hmem, rfl⟩)
    rw [state.phase_of_mem hnd hmem, PlanNodeStatus.phase_done] at hphase
    exact hphase

/-! ### Rewriting one entry -/

/-- Looking a node up after its entries were rewritten. -/
theorem node?_map {state state' : PlanState} {p : PlanNodeState → Prop} [DecidablePred p]
    {f : PlanNodeState → PlanNodeState}
    (hmap : state'.nodeStates = state.nodeStates.map fun ns => if p ns then f ns else ns)
    (hf : ∀ ns, (f ns).nodeId = ns.nodeId) (id : String) :
    state'.node? id = (state.node? id).map fun ns => if p ns then f ns else ns := by
  unfold PlanState.node?
  rw [hmap, List.find?_map]
  congr 2
  funext ns
  simp only [Function.comp_apply]
  by_cases hns : p ns
  · rw [if_pos hns, hf]
  · rw [if_neg hns]

/-- Rewriting the entries of one id updates the phase of that id. -/
theorem phase_update {state state' : PlanState} {id : String} {p : Phase}
    {f : PlanNodeState → PlanNodeState}
    (hmap : state'.nodeStates = state.nodeStates.map fun ns => if ns.nodeId = id then f ns else ns)
    (hf : ∀ ns, (f ns).nodeId = ns.nodeId) (hp : ∀ ns, (f ns).status.phase = p)
    (hid : id ∈ state.ids) : state'.phase = Function.update state.phase id p := by
  funext other
  unfold PlanState.phase
  rw [node?_map hmap hf]
  by_cases ho : other = id
  · rw [ho, Function.update_self]
    cases hn : state.node? id with
    | none => exact absurd hid (PlanState.node?_eq_none.mp hn)
    | some ns =>
        obtain ⟨-, hnid⟩ := PlanState.node?_mem hn
        simp only [Option.map_some, if_pos hnid, hp]
  · rw [Function.update_of_ne ho]
    cases hn : state.node? other with
    | none => rfl
    | some ns =>
        obtain ⟨-, hnid⟩ := PlanState.node?_mem hn
        have hne : ns.nodeId ≠ id := fun he => ho (hnid.symm.trans he)
        simp only [Option.map_some, if_neg hne]

theorem ids_update {state state' : PlanState} {p : PlanNodeState → Prop} [DecidablePred p]
    {f : PlanNodeState → PlanNodeState}
    (hmap : state'.nodeStates = state.nodeStates.map fun ns => if p ns then f ns else ns)
    (hf : ∀ ns, (f ns).nodeId = ns.nodeId) :
    state'.ids = state.ids := by
  unfold PlanState.ids
  rw [hmap, List.map_map]
  refine List.map_congr_left fun ns _ => ?_
  simp only [Function.comp_apply]
  by_cases hns : p ns
  · rw [if_pos hns, hf]
  · rw [if_neg hns]

/-! ### States that fit a plan -/

/-- A state that lists exactly the nodes of a plan. -/
structure PlanState.Fits (state : PlanState) (plan : Planfile) : Prop where
  ids : state.ids = plan.nodes.map (·.id)
  planId : state.planId = plan.planId

variable {P : Platform} {plan : Planfile} {state : PlanState} {node : PlanNode} {now : String}

theorem PlanState.Fits.nodup (h : state.Fits plan) (hs : plan.Sound) : state.ids.Nodup := by
  rw [h.ids]
  exact hs.nodup

theorem PlanState.Fits.mem (h : state.Fits plan) (hn : node ∈ plan.nodes) : node.id ∈ state.ids := by
  rw [h.ids]
  exact List.mem_map.mpr ⟨node, hn, rfl⟩

theorem PlanState.Fits.tasks (h : state.Fits plan) : state.ids = plan.graph.tasks := h.ids

theorem initialPlanState_fits : (initialPlanState P plan now).Fits plan := by
  refine ⟨?_, rfl⟩
  simp [initialPlanState, createInitialPlanState, PlanState.ids, Function.comp_def]

/-- A fresh state has every node waiting. -/
theorem initialPlanState_phase (hs : plan.Sound) {id : String} (hid : id ∈ plan.graph.tasks) :
    (initialPlanState P plan now).phase id = .waiting := by
  have hfits : (initialPlanState P plan now).Fits plan := initialPlanState_fits
  rw [← hfits.tasks] at hid
  obtain ⟨ns, hns, rfl⟩ := List.mem_map.mp hid
  rw [PlanState.phase_of_mem (hfits.nodup hs) hns, PlanNodeStatus.phase_waiting]
  simp only [initialPlanState, createInitialPlanState, List.map_map, List.mem_map,
    Function.comp_apply] at hns
  obtain ⟨node, -, rfl⟩ := hns
  by_cases hd : node.dependsOn.length = 0
  · simp [hd, PlanNodeStatus.isWaiting]
  · simp [hd, PlanNodeStatus.isWaiting]

theorem runningState_fits (h : state.Fits plan) : (runningState state node now).Fits plan := by
  refine ⟨?_, h.planId⟩
  rw [← h.ids]
  exact ids_update rfl fun _ => rfl

theorem runningState_phase (hid : node.id ∈ state.ids) :
    (runningState state node now).phase = Function.update state.phase node.id .active :=
  phase_update rfl (fun _ => rfl) (fun _ => rfl) hid

variable {outcome : NodeOutcome} {artifacts : List PlanArtifactRef} {errors : List String}

theorem markedState_fits (h : state.Fits plan) :
    (markedState P plan state node outcome artifacts errors now).Fits plan := by
  refine ⟨?_, h.planId⟩
  rw [← h.ids]
  exact ids_update rfl fun _ => rfl

theorem markedState_phase (hid : node.id ∈ state.ids) :
    (markedState P plan state node outcome artifacts errors now).phase =
      Function.update state.phase node.id outcome.status.phase :=
  phase_update rfl (fun _ => rfl) (fun _ => rfl) hid

/-- Marking the running node overwrites its phase. -/
theorem markedState_running_phase (hid : node.id ∈ state.ids) {now' : String} :
    (markedState P plan (runningState state node now') node outcome artifacts errors now).phase =
      Function.update state.phase node.id outcome.status.phase := by
  have hid' : node.id ∈ (runningState state node now').ids := by
    have hids : (runningState state node now').ids = state.ids := ids_update rfl fun _ => rfl
    rw [hids]
    exact hid
  rw [markedState_phase hid', runningState_phase hid, Function.update_idem]

/-! ### Readiness -/

/-- **The ready nodes are the ready tasks of the plan's graph.** -/
theorem readyNodes_eq (hs : plan.Sound) (h : state.Fits plan) :
    (readyNodes plan state).map (·.id) = plan.graph.ready state.phase := by
  unfold TaskGraph.ready
  simp only [readyNodes, Planfile.graph, List.filter_map]
  congr 1
  refine List.filter_congr fun node hnode => ?_
  have hdeps := plan.deps_of_nodup hs.nodup hnode
  simp only [Planfile.graph] at hdeps
  simp only [Function.comp_apply, decide_eq_decide, hdeps]
  rw [state.mem_waiting_iff (h.nodup hs)]
  refine and_congr_right fun _ => forall₂_congr fun d _ => ?_
  exact state.mem_done_iff (h.nodup hs)

theorem ready_eq_nil_iff (hs : plan.Sound) (h : state.Fits plan) :
    readyNodes plan state = [] ↔ plan.graph.ready state.phase = [] := by
  rw [← readyNodes_eq hs h, List.map_eq_nil_iff]

theorem ready_of_readyNodes (hs : plan.Sound) (h : state.Fits plan) {rest : List PlanNode}
    (hr : readyNodes plan state = node :: rest) :
    plan.graph.ready state.phase = node.id :: rest.map (·.id) := by
  rw [← readyNodes_eq hs h, hr, List.map_cons]

theorem mem_of_readyNodes (hr : node ∈ readyNodes plan state) : node ∈ plan.nodes :=
  List.mem_of_mem_filter hr

/-- **Progress.**  A fitting state in which every node waits or is done, and some node
is not done, has a ready node. -/
theorem readyNodes_ne_nil (hs : plan.Sound) (h : state.Fits plan)
    (hphase : ∀ id ∈ plan.graph.tasks, state.phase id = .waiting ∨ state.phase id = .done)
    {id : String} (hid : id ∈ plan.graph.tasks) (hnot : state.phase id ≠ .done) :
    readyNodes plan state ≠ [] := by
  rw [Ne, ready_eq_nil_iff hs h]
  refine TaskGraph.exists_ready hs.acyclic ?_ hphase hid ((hphase id hid).resolve_right hnot)
  intro n hn d hd
  obtain ⟨node, hnode, rfl⟩ := Planfile.mem_tasks.mp hn
  rw [plan.deps_of_nodup hs.nodup hnode] at hd
  exact hs.deps node hnode d hd

end OpenLagrange
