/-
A run of an accepted plan is safe, and it ends.

Both results are about `runToCompletion` from the state `load` creates, whatever the
nodes come to.  Safety needs nothing else: nodes start only on top of what is done,
each at most once, and none after a node failed or yielded.  It holds for the calls
made so far even when one of them throws.

That the run ends in a status that says so needs the validator.  A plan whose
dependencies lead back to themselves would leave every node of the cycle waiting, with
nothing ready and the status running.
-/
import OpenLagrange.Proofs.Runner

namespace OpenLagrange

open PlanRunner

/-! ### What a run does -/

/-- The node of the plan that a call tells the start of. -/
def Call.startedNode (planId : String) : Call → Option String
  | .emitRunEvent _ id (.nodeStarted base) => if id = planId then some base.nodeId else none
  | _ => none

/-- The nodes of a plan that were started, in order. -/
def startedNodes (planId : String) (trace : List (World × Call)) : List String :=
  trace.filterMap fun c => c.2.startedNode planId

/-- The store holds no state of the plan, or the one `load` creates. -/
def Unstarted (P : Platform) (planfile : Planfile) (w : World) : Prop :=
  ∀ state, w.planStates planfile.planId = some state →
    ∃ now, state = initialPlanState P (withCanonicalPlanDigest P.sha256 planfile) now

/-- A node that is completed, skipped or running has only completed or skipped dependencies. -/
def PlanState.Supported (plan : Planfile) (state : PlanState) : Prop :=
  ∀ node ∈ plan.nodes, ∀ nodeState ∈ state.nodeStates, nodeState.nodeId = node.id →
    nodeState.status.isDone = true ∨ nodeState.status = .running →
    ∀ dependency ∈ node.dependsOn, state.done dependency = true

variable {P : Platform} {env : Env} {o : PlanRunnerOptions} {plan planfile : Planfile}
  {planId : String} {trace : List (World × Call)} {w : World} {state : PlanState}

theorem startedNodes_eq :
    startedNodes planId trace = (trace.filterMap (observe planId)).filterMap Seen.started := by
  unfold startedNodes
  rw [List.filterMap_filterMap]
  congr 1
  funext ⟨w, call⟩
  cases call with
  | emitRunEvent listener id body =>
      cases body with
      | nodeStarted base =>
          by_cases hid : id = planId
          · simp [Call.startedNode, observe, hid]
          · simp [Call.startedNode, observe, hid]
      | _ => rfl
  | recordPlanState s =>
      by_cases hid : s.planId = planId
      · simp [Call.startedNode, observe, hid]
      · simp [Call.startedNode, observe, hid]
  | runCapabilityStep runId input =>
      by_cases hid : input.planId = planId
      · simp [Call.startedNode, observe, hid]
      · simp [Call.startedNode, observe, hid]
  | _ => rfl

theorem observe_started {c : World × Call} {id : String} (h : c.2.startedNode planId = some id) :
    observe planId c = some (.start id (c.1.phases planId)) := by
  obtain ⟨w, call⟩ := c
  cases call with
  | emitRunEvent listener plan body =>
      cases body with
      | nodeStarted base =>
          by_cases hid : plan = planId
          · simp only [Call.startedNode, if_pos hid, Option.some.injEq] at h
            simp only [observe, if_pos hid, h]
          · simp only [Call.startedNode, if_neg hid] at h
            cases h
      | _ => cases h
  | _ => cases h

theorem observe_record (h : state.planId = planId) :
    observe planId (w, .recordPlanState state) = some (.record state.phase) := by
  simp only [observe, if_pos h]

theorem supported_iff (hs : plan.Sound) (h : state.Fits plan) :
    state.Supported plan ↔ plan.graph.Closed state.phase := by
  have hnd := h.nodup hs
  constructor
  · intro hsup id hid hphase d hd
    obtain ⟨node, hnode, rfl⟩ := Planfile.mem_tasks.mp hid
    rw [plan.deps_of_nodup hs.nodup hnode] at hd
    rw [← state.done_iff hnd]
    rcases hphase with hphase | hphase
    · obtain ⟨ns, hns, hnid, hst⟩ := (state.phase_eq_iff hnd (by simp)).mp hphase
      exact hsup node hnode ns hns hnid (Or.inl (PlanNodeStatus.phase_done.mp hst)) d hd
    · obtain ⟨ns, hns, hnid, hst⟩ := (state.phase_eq_iff hnd (by simp)).mp hphase
      exact hsup node hnode ns hns hnid (Or.inr (PlanNodeStatus.phase_active.mp hst)) d hd
  · intro hclosed node hnode ns hns hnid hst d hd
    rw [state.done_iff hnd]
    refine hclosed node.id (Planfile.mem_tasks.mpr ⟨node, hnode, rfl⟩) ?_ d ?_
    · rw [← hnid, state.phase_of_mem hnd hns, PlanNodeStatus.phase_done, PlanNodeStatus.phase_active]
      exact hst
    · rw [plan.deps_of_nodup hs.nodup hnode]
      exact hd

/-! ### Safety -/

/-- From a fresh state a run shows what a safe worker shows. -/
theorem RunEnd.safe {stored : Option PlanState} {out : Except String PlanRunnerExecutionResult}
    {w' : World} {seen : List (Seen String Value)} (h : RunEnd P env o plan stored out w' seen)
    (hs : plan.Sound)
    (hstored : ∀ state, stored = some state → ∃ now, state = initialPlanState P plan now) :
    plan.graph.Safe seen := by
  have hwait : ∀ now, ∀ id ∈ plan.graph.tasks, (initialPlanState P plan now).phase id = .waiting :=
    fun _ _ hid => initialPlanState_phase hs hid
  have hnil : plan.graph.Safe ([] : List (Seen String Value)) :=
    TaskGraph.Greedy.safe (W := nodeWork P env o plan) (m := Outputs.empty) .stopped (hwait "")
  cases h with
  | unloaded _ _ hseen =>
      rcases hseen with rfl | ⟨now, rfl⟩
      · exact hnil
      · exact hnil.record (hwait now)
  | ran hopen _ _ hg _ =>
      cases hopen with
      | stored hsome =>
          obtain ⟨now, rfl⟩ := hstored _ hsome
          exact hg.safe (hwait now)
      | fresh _ => exact (hg.safe (hwait _)).record (hwait _)

/-- A rejected plan is not run. -/
theorem runToCompletion_rejected {message : String} (h : accept P o planfile = .error message) :
    Prog.exec (handle P env) (runToCompletion P o planfile) w = ⟨.error message, w, []⟩ := by
  unfold runToCompletion
  rw [h]
  rfl

theorem unstarted_stored (hacc : accept P o planfile = .ok plan) (hw : Unstarted P planfile w) :
    ∀ state, w.planStates plan.planId = some state → ∃ now, state = initialPlanState P plan now := by
  obtain ⟨rfl, -⟩ := accept_ok hacc
  exact hw

theorem unstarted_fits (hacc : accept P o planfile = .ok plan) (hw : Unstarted P planfile w) :
    w.Fits plan := by
  intro state hstate
  obtain ⟨now, rfl⟩ := unstarted_stored hacc hw state hstate
  exact initialPlanState_fits

/-- The run of an accepted plan shows what a safe worker shows, and every state it meets
or records lists the nodes of the plan. -/
theorem accepted_safe (hacc : accept P o planfile = .ok plan) (hw : Unstarted P planfile w) :
    let trace := (Prog.exec (handle P env) (runToCompletion P o planfile) w).trace
    plan.graph.Safe (trace.filterMap (observe plan.planId)) ∧
      ∀ c ∈ trace, c.1.Fits plan ∧ Call.fits plan c.2 := by
  intro trace
  have hfits := unstarted_fits hacc hw
  have hshows := (runToCompletion_shows hacc hfits : Prog.Shows (handle P env) (observe plan.planId) _ w _)
  have hsafe := RunEnd.safe hshows (accept_sound hacc) (unstarted_stored hacc hw)
  have hkeeps : Prog.Keeps (handle P env) (Call.fits plan) (Answer.fits plan) (World.Fits plan) :=
    keeps_fits
  exact ⟨hsafe, ((runToCompletion_fitting hacc).exec hkeeps hfits).2.1⟩

/-- What a safe worker shows, said of the calls. -/
theorem safe_trace (hs : plan.Sound) (hsafe : plan.graph.Safe (trace.filterMap (observe plan.planId)))
    (hfits : ∀ c ∈ trace, c.1.Fits plan ∧ Call.fits plan c.2) :
    (∀ c ∈ trace, ∀ id, c.2.startedNode plan.planId = some id →
      ∃ node ∈ plan.nodes, node.id = id ∧
        ∃ state, c.1.planStates plan.planId = some state ∧
          ∀ dependency ∈ node.dependsOn, state.done dependency = true) ∧
    (startedNodes plan.planId trace).Nodup ∧
    (∀ c ∈ trace, ∀ state, c.2 = .recordPlanState state → state.Supported plan) ∧
    (∀ before c after state, trace = before ++ c :: after → c.2 = .recordPlanState state →
      (∃ nodeState ∈ state.nodeStates, nodeState.status.isStopped = true) →
      startedNodes plan.planId after = []) := by
  refine ⟨?_, ?_, ?_, ?_⟩
  · intro c hc id hid
    have hready := hsafe.ready id _ (List.mem_filterMap.mpr ⟨c, hc, observe_started hid⟩)
    obtain ⟨hmem, hwait, hdeps⟩ := TaskGraph.mem_ready.mp hready
    obtain ⟨node, hnode, rfl⟩ := Planfile.mem_tasks.mp hmem
    refine ⟨node, hnode, rfl, ?_⟩
    cases hstored : c.1.planStates plan.planId with
    | none =>
        unfold World.phases at hwait
        rw [hstored] at hwait
        cases hwait
    | some state =>
        refine ⟨state, rfl, ?_⟩
        intro d hd
        have hphase := hdeps d (by rw [plan.deps_of_nodup hs.nodup hnode]; exact hd)
        rw [phases_of_stored hstored] at hphase
        exact (state.done_iff (((hfits c hc).1 state hstored).nodup hs)).mpr hphase
  · rw [startedNodes_eq]
    exact hsafe.once
  · rintro ⟨w', _⟩ hc state rfl
    have hfit := (hfits _ hc).2 state rfl
    exact (supported_iff hs hfit).mpr
      (hsafe.closed _ (List.mem_filterMap.mpr ⟨_, hc, observe_record hfit.planId⟩))
  · rintro before ⟨w', _⟩ after state rfl rfl ⟨ns, hns, hstopped⟩
    have hfit := (hfits _ (List.mem_append_right _ List.mem_cons_self)).2 state rfl
    rw [startedNodes_eq]
    refine hsafe.final (before.filterMap (observe plan.planId)) _ state.phase ns.nodeId ?_ ?_ ?_
    · rw [List.filterMap_append, List.filterMap_cons_some (observe_record hfit.planId)]
    · rw [← hfit.tasks]
      exact List.mem_map.mpr ⟨ns, hns, rfl⟩
    · rw [state.phase_of_mem (hfit.nodup hs) hns, PlanNodeStatus.phase_halted]
      exact hstopped

/-- **A run is safe.**  From the state `load` creates, and whatever the nodes come to:
a node starts only when the stored state has its dependencies completed or skipped, no
node starts twice, every recorded state is supported, and after one with a failed or
yielded node nothing starts. -/
theorem runToCompletion_safe (P : Platform) (env : Env) (o : PlanRunnerOptions)
    (planfile : Planfile) (w : World) (hw : Unstarted P planfile w) :
    let trace := (Prog.exec (handle P env) (runToCompletion P o planfile) w).trace
    (∀ c ∈ trace, ∀ id, c.2.startedNode planfile.planId = some id →
      ∃ node ∈ planfile.nodes, node.id = id ∧
        ∃ state, c.1.planStates planfile.planId = some state ∧
          ∀ dependency ∈ node.dependsOn, state.done dependency = true) ∧
    (startedNodes planfile.planId trace).Nodup ∧
    (∀ c ∈ trace, ∀ state, c.2 = .recordPlanState state → state.Supported planfile) ∧
    (∀ before c after state, trace = before ++ c :: after → c.2 = .recordPlanState state →
      (∃ nodeState ∈ state.nodeStates, nodeState.status.isStopped = true) →
      startedNodes planfile.planId after = []) := by
  intro trace
  cases hacc : accept P o planfile with
  | error message =>
      have htrace : trace = [] := by
        simp only [trace, runToCompletion_rejected hacc]
      rw [htrace]
      refine ⟨by simp, List.nodup_nil, by simp, ?_⟩
      intro before c after state hsplit
      simp at hsplit
  | ok plan =>
      obtain ⟨hsafe, hfits⟩ := @accepted_safe P env o plan planfile w hacc hw
      have hsafe' := safe_trace (accept_sound hacc) hsafe hfits
      obtain ⟨rfl, -⟩ := accept_ok hacc
      exact hsafe'

theorem unstarted_empty : Unstarted P planfile World.empty := by
  intro state hstate
  cases hstate

/-- Both nodes of the chain start, each once. -/
theorem sampleChain_safe :
    startedNodes "plan" (Prog.exec (handle samplePlatform sampleEnv)
      (runToCompletion samplePlatform sampleOptions sampleChain) World.empty).trace
        = ["first", "second"] ∧
    (startedNodes "plan" (Prog.exec (handle samplePlatform sampleEnv)
      (runToCompletion samplePlatform sampleOptions sampleChain) World.empty).trace).Nodup :=
  ⟨by decide, (runToCompletion_safe samplePlatform sampleEnv sampleOptions sampleChain World.empty
    unstarted_empty).2.1⟩

/-! ### How a run ends -/

/-- From a fresh state a run that returns has completed the whole plan, or has failed or
yielded at some node. -/
theorem RunEnd.finished {stored : Option PlanState} {r : PlanRunnerExecutionResult} {w' : World}
    {seen : List (Seen String Value)} (h : RunEnd P env o plan stored (.ok r) w' seen)
    (hs : plan.Sound) (hne : plan.nodes ≠ [])
    (hstored : ∀ state, stored = some state → ∃ now, state = initialPlanState P plan now) :
    r.state.Fits plan ∧
      ((r.state.status = .completed ∧ (∀ id ∈ plan.graph.tasks, r.state.phase id = .done) ∧
          ∀ id ∈ plan.graph.tasks, id ∈ seen.filterMap Seen.started) ∨
        ((r.state.status = .failed ∨ r.state.status = .yielded) ∧
          ∃ id ∈ plan.graph.tasks, r.state.phase id = .halted)) := by
  cases h with
  | @ran pre start main _ _ state' m' ending hopen hw hfits hg hout =>
      obtain ⟨rfl, -, hend⟩ := hout r rfl
      have hstart : ∃ now, start = initialPlanState P plan now := by
        cases hopen with
        | stored hsome => exact hstored _ hsome
        | fresh _ => exact ⟨_, rfl⟩
      obtain ⟨now, rfl⟩ := hstart
      have hwait : ∀ id ∈ plan.graph.tasks, (initialPlanState P plan now).phase id = .waiting :=
        fun _ hid => initialPlanState_phase hs hid
      have hmem : ∀ id ∈ plan.graph.tasks, ∀ d ∈ plan.graph.deps id, d ∈ plan.graph.tasks := by
        intro id hid d hd
        obtain ⟨node, hnode, rfl⟩ := Planfile.mem_tasks.mp hid
        rw [plan.deps_of_nodup hs.nodup hnode] at hd
        exact hs.deps node hnode d hd
      refine ⟨hfits, ?_⟩
      cases ending with
      | interrupted =>
          rcases hend with ⟨-, hend⟩ | ⟨hend, -⟩
          · exact hend.elim
          · cases hend
      | idle =>
          left
          have hdone := hg.idle_all_done hs.acyclic hmem fun id hid => Or.inl (hwait id hid)
          have hstarted : ∀ id ∈ plan.graph.tasks, id ∈ main.filterMap Seen.started := by
            intro id hid
            refine hg.started_of_changed ?_
            rw [hdone id hid, hwait id hid]
            simp
          refine ⟨?_, hdone, ?_⟩
          · rcases hend with ⟨-, hend⟩ | ⟨-, hsame⟩
            · have hall : r.state.allDone = true := by
                rw [PlanState.allDone_iff (hfits.nodup hs), hfits.tasks]
                exact hdone
              rw [show r.state.status = _ from hend, if_pos hall]
            · -- Nothing was started, although every node waited.
              obtain ⟨node, hnode⟩ := List.exists_mem_of_ne_nil _ hne
              have hid : node.id ∈ plan.graph.tasks := Planfile.mem_tasks.mpr ⟨node, hnode, rfl⟩
              have hdone' := hdone node.id hid
              rw [hsame, hwait node.id hid] at hdone'
              cases hdone'
          · intro id hid
            rw [List.filterMap_append, List.mem_append]
            exact Or.inr (hstarted id hid)
      | halted =>
          right
          have hend' : r.state.Told .halted := by
            rcases hend with ⟨-, hend⟩ | ⟨hend, -⟩
            · exact hend
            · cases hend
          have hhalt : ∀ ns ∈ r.state.nodeStates, ns.status.isStopped = true →
              ∃ id ∈ plan.graph.tasks, r.state.phase id = .halted := by
            intro ns hns hst
            refine ⟨ns.nodeId, ?_, ?_⟩
            · rw [← hfits.tasks]
              exact List.mem_map.mpr ⟨ns, hns, rfl⟩
            · rw [r.state.phase_of_mem (hfits.nodup hs) hns, PlanNodeStatus.phase_halted]
              exact hst
          rcases hend' with ⟨hst, ns, hns, hnst⟩ | ⟨hst, ns, hns, hnst⟩
          · exact ⟨Or.inl hst, hhalt ns hns (by rw [hnst]; rfl)⟩
          · exact ⟨Or.inr hst, hhalt ns hns (by rw [hnst]; rfl)⟩

/-- The capability of every node that runs one can be run. -/
def StepsResolve (P : Platform) (o : PlanRunnerOptions) (planfile : Planfile) : Prop :=
  ∀ node ∈ planfile.nodes, canRunCapabilityStep node = true →
    (resolvedCapability P o node).isSome = true ∧ o.delegationContext.isSome = true

theorem returns_now : Prog.Returns (PlanRunner.now o) := by
  unfold PlanRunner.now
  split
  · trivial
  · exact Prog.returns_perform

theorem returns_emit {body : RunEventBody} : Prog.Returns (emit o plan body) := by
  unfold emit
  split
  · exact Prog.returns_perform
  · exact Prog.returns_bind returns_now fun _ => Prog.returns_perform

variable {node : PlanNode} {outputs : Outputs}

theorem returns_emitNodeStarted : Prog.Returns (emitNodeStarted o plan node) := by
  refine Prog.returns_bind returns_emit fun _ => ?_
  unfold emitPhaseStarted
  split
  · exact returns_emit
  · exact returns_emit
  · trivial

theorem returns_emitArtifacts {artifacts : List PlanArtifactRef} :
    Prog.Returns (emitArtifacts o plan node artifacts) := by
  induction artifacts with
  | nil => trivial
  | cons artifact rest ih =>
      refine Prog.returns_bind ?_ fun _ => ih
      unfold emitArtifact
      split
      · trivial
      · exact returns_emit

theorem returns_markNode {outcome : NodeOutcome} {artifacts : List PlanArtifactRef}
    {errors : List String} :
    Prog.Returns (markNode P o plan state node outcome artifacts errors) := by
  refine Prog.returns_bind returns_now fun now => ?_
  refine Prog.returns_bind Prog.returns_perform fun recorded => ?_
  refine Prog.returns_bind returns_emit fun _ => ?_
  refine Prog.returns_bind returns_emitArtifacts fun _ => ?_
  refine Prog.returns_bind ?_ fun _ => trivial
  unfold emitPhaseCompleted
  split
  · exact returns_emit
  · exact returns_emit
  · trivial

theorem returns_stepArtifacts {refs : List String} : Prog.Returns (stepArtifacts o refs) := by
  induction refs with
  | nil => trivial
  | cons id rest ih =>
      exact Prog.returns_bind returns_now fun _ => Prog.returns_bind ih fun _ => trivial

theorem returns_workOn (hres : canRunCapabilityStep node = true →
      (resolvedCapability P o node).isSome = true ∧ o.delegationContext.isSome = true) :
    Prog.Returns (workOn P o plan state node outputs) := by
  unfold workOn
  split
  · trivial
  · split
    · rename_i hcap
      obtain ⟨hsome, hctx⟩ := hres hcap
      obtain ⟨descriptor, hdesc⟩ := Option.isSome_iff_exists.mp hsome
      obtain ⟨context, hcontext⟩ := Option.isSome_iff_exists.mp hctx
      refine Prog.returns_bind ?_ fun result => ?_
      · unfold runCapabilityNode
        rw [hdesc, hcontext]
        exact Prog.returns_perform
      · exact Prog.returns_bind returns_stepArtifacts fun _ => trivial
    · split
      · exact Prog.returns_bind Prog.returns_perform fun _ =>
          Prog.returns_bind Prog.returns_perform fun _ => trivial
      · trivial

theorem returns_runRound (hres : canRunCapabilityStep node = true →
      (resolvedCapability P o node).isSome = true ∧ o.delegationContext.isSome = true) :
    Prog.Returns (runRound P o plan state node outputs) := by
  refine Prog.returns_bind returns_emitNodeStarted fun _ => ?_
  refine Prog.returns_bind ?_ fun running => ?_
  · exact Prog.returns_bind returns_now fun _ => Prog.returns_perform
  refine Prog.returns_bind (returns_workOn hres) fun work => ?_
  exact Prog.returns_bind returns_markNode fun _ => trivial

theorem returns_storedOrLoad (hacc : accept P o planfile = .ok plan) :
    Prog.Returns (storedOrLoad P o plan) := by
  refine Prog.returns_bind Prog.returns_perform fun found => ?_
  cases found with
  | some state => trivial
  | none =>
      dsimp only
      unfold load
      rw [accept_accepted hacc]
      refine Prog.returns_bind returns_now fun now => ?_
      refine Prog.returns_bind Prog.returns_perform fun recorded => ?_
      exact Prog.returns_bind returns_emit fun _ => trivial

theorem returns_runRounds (hres : StepsResolve P o plan) {k : Nat} :
    Prog.Returns (runRounds P o plan k state outputs) := by
  induction k generalizing state outputs with
  | zero => trivial
  | succ k ih =>
      unfold runRounds
      split
      · trivial
      · rename_i node rest hready
        have hnode : node ∈ plan.nodes := mem_of_readyNodes (hready ▸ List.mem_cons_self)
        refine Prog.returns_bind (returns_runRound (hres node hnode)) fun r => ?_
        split
        · trivial
        · exact ih

theorem returns_runToCompletion (hacc : accept P o planfile = .ok plan)
    (hres : StepsResolve P o plan) : Prog.Returns (runToCompletion P o planfile) := by
  unfold runToCompletion
  rw [hacc]
  refine Prog.returns_bind (returns_storedOrLoad hacc) fun state => ?_
  refine Prog.returns_bind returns_emit fun _ => ?_
  refine Prog.returns_bind (returns_runRounds hres) fun result => ?_
  refine Prog.returns_bind ?_ fun _ => trivial
  unfold announceEnd
  split
  · exact returns_emit
  · exact Prog.returns_bind returns_now fun _ => returns_emit
  · exact returns_emit
  · trivial

/-- **A run ends.**  A run of an accepted plan from the state `load` creates, in which
nothing throws, returns: completed, with every node done and started exactly once, or
else failed or yielded.  Until then there is always a ready node to go on with: every
recorded state with no running, failed or yielded node and some node not done has one. -/
theorem runToCompletion_ends (P : Platform) (env : Env) (o : PlanRunnerOptions)
    (planfile plan : Planfile) (w : World) (hacc : accept P o planfile = .ok plan)
    (hne : planfile.nodes ≠ []) (hw : Unstarted P planfile w) :
    let run := Prog.exec (handle P env) (runToCompletion P o planfile) w
    (∀ r, run.outcome = .ok r →
      (r.state.status = .completed ∨ r.state.status = .failed ∨ r.state.status = .yielded) ∧
      (r.state.status = .completed ↔ ∀ node ∈ planfile.nodes, r.state.done node.id = true) ∧
      (r.state.status = .completed → ∀ node ∈ planfile.nodes,
        (startedNodes planfile.planId run.trace).count node.id = 1)) ∧
    (StepsResolve P o planfile → (∀ c ∈ run.trace, ∃ answer, (handle P env c.2 c.1).1 = .ok answer) →
      ∃ r, run.outcome = .ok r) ∧
    ∀ c ∈ run.trace, ∀ state, c.2 = .recordPlanState state →
      (∀ nodeState ∈ state.nodeStates,
        nodeState.status ≠ .running ∧ nodeState.status.isStopped = false) →
      (∃ node ∈ planfile.nodes, state.done node.id = false) →
      readyNodes planfile state ≠ [] := by
  intro run
  have hs := accept_sound hacc
  have hfresh := unstarted_stored hacc hw
  obtain ⟨hsafe, hfits⟩ := @accepted_safe P env o plan planfile w hacc hw
  have hend : RunEnd P env o plan (w.planStates plan.planId) run.outcome run.state
      (run.trace.filterMap (observe plan.planId)) :=
    runToCompletion_shows hacc (unstarted_fits hacc hw)
  obtain ⟨rfl, -⟩ := accept_ok hacc
  refine ⟨?_, fun hres hcalls => (returns_runToCompletion hacc hres).exec _ hcalls, ?_⟩
  · intro r hr
    rw [hr] at hend
    obtain ⟨hfit, hcase⟩ := hend.finished hs hne hfresh
    have hdone : (∀ node ∈ planfile.nodes, r.state.done node.id = true) ↔
        ∀ id ∈ planfile.graph.tasks, r.state.phase id = .done := by
      simp only [Planfile.mem_tasks, forall_exists_index, and_imp, forall_apply_eq_imp_iff₂,
        r.state.done_iff (hfit.nodup hs)]
    rw [hdone]
    rcases hcase with ⟨hst, hall, hstarted⟩ | ⟨hst, id, hid, hhalt⟩
    · refine ⟨Or.inl hst, iff_of_true hst hall, ?_⟩
      intro _ node hnode
      rw [startedNodes_eq]
      exact List.count_eq_one_of_mem hsafe.once
        (hstarted node.id (Planfile.mem_tasks.mpr ⟨node, hnode, rfl⟩))
    · have hnot : r.state.status ≠ .completed := by
        rcases hst with hst | hst <;> simp [hst]
      refine ⟨Or.inr hst, iff_of_false hnot ?_, fun h => absurd h hnot⟩
      intro hall
      have hphase := hall id hid
      rw [hhalt] at hphase
      cases hphase
  · rintro c hc state hrec hquiet ⟨node, hnode, hnot⟩
    have hfit := (hfits c hc).2 state hrec
    have hmem : node.id ∈ (withCanonicalPlanDigest P.sha256 planfile).graph.tasks :=
      Planfile.mem_tasks.mpr ⟨node, hnode, rfl⟩
    show readyNodes (withCanonicalPlanDigest P.sha256 planfile) state ≠ []
    refine readyNodes_ne_nil hs hfit ?_ hmem ?_
    · intro id hid
      rw [← hfit.tasks] at hid
      obtain ⟨ns, hns, rfl⟩ := List.mem_map.mp hid
      rw [state.phase_of_mem (hfit.nodup hs) hns]
      obtain ⟨hrun, hstop⟩ := hquiet ns hns
      cases hst : ns.status <;> simp_all [PlanNodeStatus.isStopped, PlanNodeStatus.phase]
    · rw [Ne, ← state.done_iff (hfit.nodup hs), hnot]
      simp

theorem accept_sampleChain : accept samplePlatform sampleOptions sampleChain
    = .ok (withCanonicalPlanDigest samplePlatform.sha256 sampleChain) :=
  accept_valid (by decide) (by decide)

/-- The chain completes, and no node of it was left out. -/
theorem sampleChain_ends :
    ((Prog.exec (handle samplePlatform sampleEnv)
      (runToCompletion samplePlatform sampleOptions sampleChain) World.empty).outcome.map
        (·.state.status)).toOption = some .completed ∧
    ∀ r, (Prog.exec (handle samplePlatform sampleEnv)
        (runToCompletion samplePlatform sampleOptions sampleChain) World.empty).outcome = .ok r →
      (r.state.status = .completed ↔ ∀ node ∈ sampleChain.nodes, r.state.done node.id = true) :=
  ⟨by decide, fun r hr => ((runToCompletion_ends samplePlatform sampleEnv sampleOptions sampleChain _
    World.empty accept_sampleChain (by decide) unstarted_empty).1 r hr).2.1⟩

end OpenLagrange
