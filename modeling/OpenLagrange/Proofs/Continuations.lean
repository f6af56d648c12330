/-
What continuations do to the nodes of a plan, over any sequence of them.

A resume resets the nodes that failed or yielded, a retry resets one node and all that
depend on it.  Either way a node that stays completed keeps its dependencies completed:
a resume takes no completed node back, and a retry takes everything with it that was
built on what it takes back.  So the nodes stay supported whatever is asked of a run.

The status of the plan is another matter.  A continuation sets it to running without
looking, and only marking a node corrects it, so it is wrong when nothing can start.
-/
import OpenLagrange.Proofs.Execution

namespace OpenLagrange

open PlanRunner

variable {P : Platform} {env : Env} {planfile plan : Planfile} {state : PlanState}
  {continuation : RunContinuationRecord} {now : String}

/-! ### The nodes that depend on a node -/

/-- The node `m` lists `n` among its dependencies. -/
def Planfile.DependsOn (planfile : Planfile) (n m : String) : Prop :=
  ∃ node ∈ planfile.nodes, node.id = m ∧ n ∈ node.dependsOn

theorem supports_iff (hs : planfile.Sound) {n m : String} :
    planfile.graph.Supports n m ↔ planfile.DependsOn n m := by
  constructor
  · rintro ⟨hm, hn⟩
    obtain ⟨node, hnode, rfl⟩ := Planfile.mem_tasks.mp hm
    rw [planfile.deps_of_nodup hs.nodup hnode] at hn
    exact ⟨node, hnode, rfl, hn⟩
  · rintro ⟨node, hnode, rfl, hn⟩
    refine ⟨Planfile.mem_tasks.mpr ⟨node, hnode, rfl⟩, ?_⟩
    rw [planfile.deps_of_nodup hs.nodup hnode]
    exact hn

/-- A pass over the nodes is a pass over the tasks of the plan's graph. -/
theorem dependentsPass_eq (hs : planfile.Sound) (result : List String) :
    dependentsPass planfile result = planfile.graph.dependentsPass result := by
  have htasks : planfile.graph.tasks = planfile.nodes.map (·.id) := rfl
  unfold dependentsPass TaskGraph.dependentsPass
  rw [htasks, List.foldl_map]
  refine List.foldl_ext _ _ _ fun acc node hnode => ?_
  rw [planfile.deps_of_nodup hs.nodup hnode]

theorem dependentsLoop_eq (hs : planfile.Sound) (k : Nat) (result : List String) :
    dependentsLoop planfile k result = planfile.graph.dependentsLoop k result := by
  induction k generalizing result with
  | zero => rfl
  | succ k ih =>
      unfold dependentsLoop TaskGraph.dependentsLoop
      rw [dependentsPass_eq hs]
      dsimp only
      split
      · exact ih _
      · rfl

/-- **The loop ends, with the node and all that transitively depend on it.** -/
theorem dependentNodeIds_spec (hs : planfile.Sound) (nodeId : String) :
    ∃ ids, dependentNodeIds planfile nodeId = some ids ∧
      ∀ m, m ∈ ids ↔ Relation.ReflTransGen planfile.DependsOn nodeId m := by
  obtain ⟨ids, hids, hmem⟩ := planfile.graph.dependentsLoop_mem nodeId
  have hlen : planfile.graph.tasks.length = planfile.nodes.length := by simp [Planfile.graph]
  refine ⟨ids, ?_, ?_⟩
  · unfold dependentNodeIds
    rw [dependentsLoop_eq hs, ← hlen]
    exact hids
  · have hrel : planfile.graph.Supports = planfile.DependsOn := by
      funext n m
      exact propext (supports_iff hs)
    rw [← hrel]
    exact hmem

/-! ### Resetting -/

/-- A reset puts the nodes it is for back to waiting and leaves the others alone. -/
theorem continuedState_phase (id : String) :
    (continuedState planfile state continuation now).phase id =
      if id ∈ resetNodeIds planfile state continuation ∧ id ∈ state.ids then .waiting
      else state.phase id := by
  have hfind : (continuedState planfile state continuation now).node? id
      = (state.node? id).map fun ns =>
        if ns.nodeId ∈ resetNodeIds planfile state continuation then
          resetPlanNodeState ns
            (if some ns.nodeId = continuation.nodeId ∨ continuation.kind = .resume then .ready
              else .pending)
            (continuation.replayMode = some .reuseArtifacts)
        else ns :=
    node?_map (f := fun ns => resetPlanNodeState ns
      (if some ns.nodeId = continuation.nodeId ∨ continuation.kind = .resume then .ready
        else .pending)
      (continuation.replayMode = some .reuseArtifacts)) rfl (fun _ => rfl) id
  unfold PlanState.phase
  rw [hfind]
  cases hn : state.node? id with
  | none =>
      have hnot := PlanState.node?_eq_none.mp hn
      rw [if_neg fun h => hnot h.2]
      rfl
  | some ns =>
      obtain ⟨hns, rfl⟩ := PlanState.node?_mem hn
      have hid : ns.nodeId ∈ state.ids := List.mem_map.mpr ⟨ns, hns, rfl⟩
      by_cases hreset : ns.nodeId ∈ resetNodeIds planfile state continuation
      · rw [if_pos ⟨hreset, hid⟩]
        simp only [Option.map_some, if_pos hreset, resetPlanNodeState]
        split <;> rfl
      · rw [if_neg fun h => hreset h.1]
        simp only [Option.map_some, if_neg hreset]

/-- A resume, and a retry without a node, is for the nodes that failed or yielded. -/
theorem mem_resetNodeIds_stopped (hnd : state.ids.Nodup)
    (hkind : continuation.kind ≠ .retry ∨ continuation.nodeId.filter (· ≠ "") = none) {id : String} :
    id ∈ resetNodeIds planfile state continuation ↔ id ∈ state.ids ∧ state.phase id = .halted := by
  have hids : resetNodeIds planfile state continuation
      = (state.nodeStates.filter (·.status.isStopped)).map (·.nodeId) := by
    unfold resetNodeIds
    split
    · rename_i hretry hnode
      rcases hkind with hkind | hkind
      · exact absurd hretry hkind
      · rw [hkind] at hnode
        cases hnode
    · rfl
  rw [hids]
  constructor
  · intro hmem
    obtain ⟨ns, hns, rfl⟩ := List.mem_map.mp hmem
    obtain ⟨hns, hstopped⟩ := List.mem_filter.mp hns
    refine ⟨List.mem_map.mpr ⟨ns, hns, rfl⟩, ?_⟩
    rw [state.phase_of_mem hnd hns, PlanNodeStatus.phase_halted]
    exact hstopped
  · rintro ⟨hmem, hphase⟩
    obtain ⟨ns, hns, rfl⟩ := List.mem_map.mp hmem
    rw [state.phase_of_mem hnd hns, PlanNodeStatus.phase_halted] at hphase
    exact List.mem_map.mpr ⟨ns, List.mem_filter.mpr ⟨hns, hphase⟩, rfl⟩

/-- A retry of a node is for the node and all that depend on it. -/
theorem mem_resetNodeIds_retry (hs : planfile.Sound) {nodeId : String}
    (hkind : continuation.kind = .retry) (hnode : continuation.nodeId.filter (· ≠ "") = some nodeId)
    {id : String} :
    id ∈ resetNodeIds planfile state continuation ↔
      Relation.ReflTransGen planfile.DependsOn nodeId id := by
  obtain ⟨ids, hids, hmem⟩ := dependentNodeIds_spec hs nodeId
  have hreset : resetNodeIds planfile state continuation = ids := by
    unfold resetNodeIds
    rw [hkind, hnode]
    simp only [hids, Option.getD_some]
  rw [hreset, hmem]

/-- The two kinds of reset. -/
theorem reset_cases (continuation : RunContinuationRecord) :
    (continuation.kind ≠ .retry ∨ continuation.nodeId.filter (· ≠ "") = none) ∨
      ∃ nodeId, continuation.kind = .retry ∧ continuation.nodeId.filter (· ≠ "") = some nodeId := by
  cases hnode : continuation.nodeId.filter (· ≠ "") with
  | none => exact Or.inl (Or.inr rfl)
  | some nodeId =>
      by_cases hkind : continuation.kind = .retry
      · exact Or.inr ⟨nodeId, hkind, rfl⟩
      · exact Or.inl (Or.inl hkind)

/-- **A reset keeps the nodes supported.** -/
theorem continuedState_closed (hs : planfile.Sound) (h : state.Fits planfile)
    (hclosed : planfile.graph.Closed state.phase) :
    planfile.graph.Closed (continuedState planfile state continuation now).phase := by
  have hnd := h.nodup hs
  -- A node that is done or running after the reset was not reset.
  have hkeep : ∀ id, (continuedState planfile state continuation now).phase id = .done ∨
      (continuedState planfile state continuation now).phase id = .active →
      ¬ (id ∈ resetNodeIds planfile state continuation ∧ id ∈ state.ids) := by
    intro id hphase hreset
    rw [continuedState_phase, if_pos hreset] at hphase
    simp at hphase
  refine TaskGraph.closed_reopen hclosed ?_ ?_
  · intro id hphase
    rw [continuedState_phase, if_neg (hkeep id hphase)]
  · intro id hid hphase d hd hdone
    rw [continuedState_phase, if_neg ?_]
    · exact hdone
    rintro ⟨hreset, hmem⟩
    rcases reset_cases continuation with hkind | ⟨nodeId, hkind, hnode⟩
    · -- A resume resets no completed node.
      have hhalted := ((mem_resetNodeIds_stopped hnd hkind).mp hreset).2
      rw [hdone] at hhalted
      cases hhalted
    · -- A retry that resets a node resets what depends on it.
      refine hkeep id hphase ⟨?_, ?_⟩
      · rw [mem_resetNodeIds_retry hs hkind hnode] at hreset ⊢
        exact hreset.tail ((supports_iff hs).mp ⟨hid, hd⟩)
      · rw [h.tasks]
        exact hid

/-! ### Every recorded state lists the nodes of the plan -/

variable {σ : Scope} {runId : String}

theorem fitting_publishRun {input : LiveRunInput} (h : state.Fits plan) :
    Fitting plan (fun _ => True) (publishRun P input state) := by
  refine (silent_perform rfl).fitting_bind fun artifacts => ?_
  refine (silent_perform rfl).fitting_bind fun _ => ?_
  refine (silent_perform rfl).fitting_bind fun _ => ?_
  refine (silent_perform rfl).fitting_bind fun _ => ?_
  refine Prog.obeys_perform ?_ (fun _ _ => trivial)
  rintro _ ⟨⟩
  exact ⟨h.ids, h.planId⟩

theorem fitting_executeLive {input : LiveRunInput}
    (hplan : plan = withCanonicalPlanDigest P.sha256 input.plan) :
    Fitting plan (fun _ => True) (executeLiveLocalPlanfile P input) := by
  unfold executeLiveLocalPlanfile
  dsimp only
  split
  · refine (silent_perform rfl).fitting_bind fun expiresAt => ?_
    cases hacc : accept P (liveRunnerOptions P input expiresAt) input.plan with
    | error message =>
        unfold runToCompletion
        rw [hacc]
        exact Prog.obeys_fail
    | ok accepted =>
        obtain rfl : accepted = plan := by
          rw [hplan]
          exact (accept_ok hacc).1
        exact Prog.obeys_bind (runToCompletion_fitting hacc) fun r hr => fitting_publishRun hr
  · exact Prog.obeys_fail

theorem fitting_executeRecordedRun {record : RunExecutionRecord}
    (hplan : plan = withCanonicalPlanDigest P.sha256 record.planfile) :
    Fitting plan (fun _ => True) (executeRecordedRun P runId record) := by
  refine (silent_perform rfl).fitting_bind fun startedAt => ?_
  refine (silent_perform rfl).fitting_bind fun updatedAt => ?_
  refine (silent_perform rfl).fitting_bind fun _ => ?_
  unfold parsePlanfile
  split
  · refine (silent_perform rfl).fitting_bind fun now => ?_
    refine Prog.obeys_bind (fitting_executeLive hplan) fun _ _ => ?_
    refine silent_buildRunSnapshot.fitting_bind fun snapshot => ?_
    exact silent_concludeRun.fitting_bind fun _ => Prog.obeys_done trivial
  · exact Prog.obeys_fail

theorem fitting_resetStoredState (hid : planfile.planId = plan.planId) :
    Fitting plan (fun _ => True) (resetStoredState planfile continuation) := by
  refine Prog.obeys_bind (Q := fun found => ∀ state, found = some state → state.Fits plan) ?_ ?_
  · refine Prog.obeys_perform ?_ fun found hfound => hfound hid
    rintro recorded ⟨⟩
  · intro found hfound
    cases found with
    | none => exact Prog.obeys_done trivial
    | some state =>
        refine (silent_perform rfl).fitting_bind fun now => ?_
        exact Prog.obeys_bind (fitting_record (continuedState_fits (hfound state rfl))) fun _ _ =>
          Prog.obeys_done trivial

/-- Every state the program records fits the plan of its run. -/
abbrev Recording (σ : Scope) (plan : Planfile) {α : Type} (p : Program α) : Prop :=
  Prog.Obeys (Call.fits plan) (fun call answer => Answer.within σ call answer ∧
    Answer.fits plan call answer) (fun _ => True) p

theorem recording_of_fitting {α : Type} {p : Program α} (h : Fitting plan (fun _ => True) p) :
    Recording σ plan p :=
  Prog.Obeys.mono h (fun _ h => h) (fun _ _ h => h.2) (fun _ h => h)

theorem Silent.recording_bind {α β : Type} {p : Program α} {f : α → Program β} (hp : Silent p)
    (hf : ∀ a, Recording σ plan (f a)) : Recording σ plan (p.bind f) :=
  Prog.obeys_bind (recording_of_fitting hp.fitting) fun a _ => hf a

/-- What a silent part within the run returns is what it returns there. -/
theorem Silent.recording_within {α β : Type} {p : Program α} {f : α → Program β} {Q : α → Prop}
    (hp : Silent p) (hp' : Within σ runId Q p) (hf : ∀ a, Q a → Recording σ plan (f a)) :
    Recording σ plan (p.bind f) := by
  refine Prog.obeys_bind (Prog.Obeys.mono (Prog.Obeys.and hp hp') ?_ ?_ fun _ h => h.2) hf
  · rintro call ⟨hcall, -⟩ recorded rfl
    cases hcall
  · intro call answer h
    exact ⟨trivial, h.1⟩

theorem recording_executeStoredRun (hexec : σ.Executes runId planfile)
    (hplan : plan = withCanonicalPlanDigest P.sha256 planfile) :
    Recording σ plan (executeStoredRun P runId) := by
  refine (silent_perform rfl).recording_within within_getRunExecution fun found hfound => ?_
  cases found with
  | none => exact Prog.obeys_done trivial
  | some record =>
      have hfile := hexec _ (hfound record rfl).planfile
      exact recording_of_fitting (fitting_executeRecordedRun (by rw [hplan, hfile]))

theorem recording_continueRun (hexec : σ.Executes runId planfile)
    (hplan : plan = withCanonicalPlanDigest P.sha256 planfile) (hrun : continuation.runId = runId) :
    Recording σ plan (continueRun P continuation planfile) := by
  have hreset : Fitting plan (fun _ => True) (resetStoredState planfile continuation) :=
    fitting_resetStoredState (by rw [hplan]; rfl)
  refine Prog.obeys_bind (recording_of_fitting hreset) fun _ _ => ?_
  refine (silent_perform rfl).recording_bind fun now => ?_
  refine (silent_perform rfl).recording_bind fun _ => ?_
  rw [hrun]
  refine Prog.obeys_bind (recording_executeStoredRun hexec hplan) fun snapshot _ => ?_
  refine (silent_perform rfl).recording_bind fun now' => ?_
  exact (silent_perform rfl).recording_bind fun _ => Prog.obeys_done trivial

theorem recording_executeRunContinuation {id : String} (hexec : σ.Executes runId planfile)
    (hplan : plan = withCanonicalPlanDigest P.sha256 planfile) (hid : σ.ownerOf id = runId) :
    Recording σ plan (executeRunContinuation P id) := by
  refine (silent_perform rfl).recording_within (within_getRunContinuation hid) fun found hfound => ?_
  cases found with
  | none => exact Prog.obeys_done trivial
  | some continuation =>
      have hrun : continuation.runId = runId := (hfound continuation rfl).runId.trans hid
      dsimp only
      rw [hrun]
      refine (silent_perform rfl).recording_within within_getRunExecution fun latest hlatest => ?_
      cases latest with
      | none => exact Prog.obeys_done trivial
      | some record =>
          dsimp only
          split
          · exact recording_of_fitting silent_executeRunCancellation.fitting
          · have hfile : record.planfile = planfile := hexec _ (hlatest record rfl).planfile
            rw [hfile]
            unfold parsePlanfile
            split
            · exact recording_continueRun hexec hplan hrun
            · exact Prog.obeys_fail

theorem fitting_recordInitial {α : Type} {f : PlanState → Program α}
    (h : (initialPlanState P planfile now).Fits plan) (hf : ∀ recorded, Silent (f recorded)) :
    Fitting plan (fun _ => True)
      ((perform (.recordPlanState (initialPlanState P planfile now))).bind f) :=
  Prog.obeys_bind (fitting_record h) fun recorded _ => (hf recorded).fitting

theorem fitting_createRunState {input : ApplyPlanfileInput}
    (hfits : (initialPlanState P planfile now).Fits plan)
    (h : requestedPlan P input.planfile input.live now = .done planfile) :
    Fitting plan (fun _ => True) (createRunState P planfile input runId now) := by
  unfold createRunState
  split
  · refine Prog.obeys_bind (Q := fun _ => True) ?_ fun state _ => ?_
    · unfold prepareRunState
      dsimp only
      split
      · exact fitting_recordInitial hfits fun recorded =>
          silent_bind (silent_perform rfl) fun _ => Prog.obeys_done trivial
      · exact Prog.obeys_fail
    · refine silent_recordCanonicalRun.fitting_bind fun record => ?_
      exact silent_startRun.fitting_bind fun _ => Prog.obeys_done trivial
  · rename_i hlive
    show Fitting plan _ ((requestedPlan P planfile input.live now).bind _)
    rcases requestedPlan_cases P planfile input.live now with ⟨again, hagain⟩ | ⟨message, hfail⟩
    · rw [hagain, Prog.done_bind, requestedPlan_again hlive h hagain, if_neg hlive]
      unfold recordPlannedRun
      dsimp only
      split
      · exact fitting_recordInitial hfits fun recorded =>
          silent_bind silent_recordCanonicalRun fun record =>
            silent_bind (silent_perform rfl) fun _ => Prog.obeys_done trivial
      · exact Prog.obeys_fail
    · rw [hfail]
      exact Prog.obeys_fail

theorem recording_createRunFromPlanfile {input : ApplyPlanfileInput}
    (hexec : σ.Executes runId planfile) (hplan : plan = withCanonicalPlanDigest P.sha256 planfile)
    (h : σ.Creates P runId input) : Recording σ plan (createRunFromPlanfile P input) := by
  have hnow : Within σ runId (fun t => input.now = none ∨ input.now = some t) (nowOr input.now) :=
    within_nowOr
  refine silent_nowOr.recording_within hnow fun t ht => ?_
  show Recording σ plan ((requestedPlan P input.planfile input.live t).bind _)
  rcases requestedPlan_cases P input.planfile input.live t with ⟨made, hmade⟩ | ⟨message, hfail⟩
  · obtain rfl : made = planfile := hexec _ (h t made ht hmade).2
    have hfits : (initialPlanState P made t).Fits plan := by
      rw [hplan]
      exact fits_withDigest.mpr initialPlanState_fits
    rw [hmade, Prog.done_bind]
    refine Prog.obeys_bind (recording_of_fitting (fitting_createRunState hfits hmade)) fun state _ => ?_
    refine silent_buildRunSnapshot.recording_bind fun snapshot => ?_
    cases snapshot with
    | none => exact Prog.obeys_fail
    | some snapshot => exact Prog.obeys_done trivial
  · rw [hfail]
    exact Prog.obeys_fail

/-- **Every state an operation records lists exactly the nodes of its plan.** -/
theorem recording_operation {op : Operation} (hexec : σ.Executes runId planfile)
    (hplan : plan = withCanonicalPlanDigest P.sha256 planfile) (h : op.On σ P runId) :
    Recording σ plan (op.program P runId) := by
  have hdiscard : ∀ {α : Type} {p : Program α}, Recording σ plan p → Recording σ plan (discard p) := by
    intro α p hp
    exact Prog.obeys_bind hp fun _ _ => Prog.obeys_done trivial
  cases op with
  | create input => exact hdiscard (recording_createRunFromPlanfile hexec hplan h)
  | execute => exact hdiscard (recording_executeStoredRun hexec hplan)
  | resume now => exact hdiscard (recording_of_fitting silent_resumeRun.fitting)
  | retry nodeId replayMode now => exact hdiscard (recording_of_fitting silent_retryRunNode.fitting)
  | cancel now => exact hdiscard (recording_of_fitting silent_cancelRun.fitting)
  | continuation id => exact hdiscard (recording_executeRunContinuation hexec hplan h)
  | cancellation id => exact hdiscard (recording_of_fitting silent_executeRunCancellation.fitting)

/-! ### What an operation does to the plan -/

/-- What an operation on a run comes to, from the world `w`. -/
inductive Operated (P : Platform) (env : Env) (planfile : Planfile) (w : World) :
    Operation → Bool → Option PlanState → List (Seen String Value) → Prop
  | nothing {op okay} : Operated P env planfile w op okay (w.planStates planfile.planId) []
  | created {input okay final seen}
      (h : Created P planfile (w.planStates planfile.planId) final seen) :
      Operated P env planfile w (.create input) okay final seen
  | executed {okay final seen}
      (h : Executed P env (withCanonicalPlanDigest P.sha256 planfile) False
        (w.planStates planfile.planId) okay final seen) :
      Operated P env planfile w .execute okay final seen
  | resumed {id okay final seen} (h : Resumed P env planfile w id okay final seen) :
      Operated P env planfile w (.continuation id) okay final seen

/-- **What an operation on a run does to its plan.** -/
theorem operation_shows {op : Operation} {w : World} (hexec : σ.Executes runId planfile)
    (hp : planfile.planId = σ.planOf runId) (h : op.On σ P runId) (hw : σ.Holds w)
    (hfits : w.Fits planfile) :
    Prog.Shows (handle P env) (observe planfile.planId) (op.program P runId) w
      fun out w' seen => Operated P env planfile w op (returned out)
        (w'.planStates planfile.planId) seen := by
  have hdiscard : ∀ {α : Type} {p : Program α} {op : Operation},
      Prog.Shows (handle P env) (observe planfile.planId) p w (fun out w' seen =>
        Operated P env planfile w op (returned out) (w'.planStates planfile.planId) seen) →
      Prog.Shows (handle P env) (observe planfile.planId) (discard p) w fun out w' seen =>
        Operated P env planfile w op (returned out) (w'.planStates planfile.planId) seen := by
    intro α p op hp
    unfold Prog.Shows at hp ⊢
    rw [exec_discard]
    cases hout : (Prog.exec (handle P env) p w).outcome <;> rw [hout] at hp <;> exact hp
  have hsilent : ∀ {α : Type} {p : Program α} {op : Operation}, Silent p →
      Prog.Shows (handle P env) (observe planfile.planId) (discard p) w fun out w' seen =>
        Operated P env planfile w op (returned out) (w'.planStates planfile.planId) seen := by
    intro α p op hsilent
    refine hdiscard (hsilent.shows fun out w' hw' => ?_)
    rw [hw']
    exact .nothing
  have hfits' : w.Fits (withCanonicalPlanDigest P.sha256 planfile) := by
    intro state hstate
    exact fits_withDigest.mpr (hfits state hstate)
  have hknown : σ.Keeps runId False w := ⟨hw, False.elim⟩
  cases op with
  | create input =>
      refine hdiscard ((createRunFromPlanfile_shows h hexec).mono ?_)
      intro out w' seen hcreated
      exact .created hcreated
  | execute =>
      refine hdiscard ((executeStoredRun_shows hexec rfl hknown hfits').mono ?_)
      intro out w' seen hexecuted
      exact .executed hexecuted
  | resume now => exact hsilent silent_resumeRun
  | retry nodeId replayMode now => exact hsilent silent_retryRunNode
  | cancel now => exact hsilent silent_cancelRun
  | continuation id =>
      refine hdiscard ((executeRunContinuation_shows hexec h hp hw hfits).mono ?_)
      intro out w' seen hresumed
      exact .resumed hresumed
  | cancellation id => exact hsilent silent_executeRunCancellation

/-! ### The nodes stay supported -/

/-- What is stored of a plan lists its nodes, and they are supported. -/
def Upheld (plan : Planfile) (stored : Option PlanState) : Prop :=
  ∀ state, stored = some state → state.Fits plan ∧ plan.graph.Closed state.phase

variable {known : Prop} {stored final : Option PlanState} {ok : Bool}
  {seen : List (Seen String Value)} {w : World}

theorem initialPlanState_closed (hs : plan.Sound) :
    plan.graph.Closed (initialPlanState P plan now).phase := by
  intro id hid hphase
  rw [initialPlanState_phase hs hid] at hphase
  simp at hphase

theorem Created.upheld (h : Created P plan stored final seen) (hs : plan.Sound)
    (hstored : Upheld plan stored) :
    (∀ φ, Seen.record φ ∈ seen → plan.graph.Closed φ) ∧ Upheld plan final := by
  cases h with
  | unrecorded => exact ⟨by simp, hstored⟩
  | recorded hfinal =>
      refine ⟨?_, ?_⟩
      · intro φ hφ
        obtain rfl : φ = _ := by simpa using hφ
        exact initialPlanState_closed hs
      · rcases hfinal with rfl | rfl
        · exact hstored
        · rintro _ ⟨⟩
          exact ⟨initialPlanState_fits, initialPlanState_closed hs⟩

/-- **An execution keeps the nodes supported.** -/
theorem Executed.upheld (h : Executed P env plan known stored ok final seen) (hs : plan.Sound)
    (hstored : Upheld plan stored) :
    (∀ φ, Seen.record φ ∈ seen → plan.graph.Closed φ) ∧ Upheld plan final := by
  cases h with
  | skipped h => exact ⟨by simp, hstored⟩
  | unloaded h hseen =>
      refine ⟨?_, by intro state hstate; cases hstate⟩
      intro φ hφ
      rcases hseen with rfl | ⟨now, rfl⟩
      · cases hφ
      · obtain rfl : φ = _ := by simpa using hφ
        exact initialPlanState_closed hs
  | @ran o pre start main state' m' ending extra left ok hopen hfits hg hextra hnodes hid _ _ =>
      have hstart : plan.graph.Closed start.phase ∧
          ∀ φ, Seen.record φ ∈ pre → plan.graph.Closed φ := by
        cases hopen with
        | stored hsome => exact ⟨(hstored _ hsome).2, by simp⟩
        | fresh hnone =>
            refine ⟨initialPlanState_closed hs, ?_⟩
            intro φ hφ
            obtain rfl : φ = _ := by simpa using hφ
            exact initialPlanState_closed hs
      obtain ⟨hmain, hend⟩ := hg.closed hstart.1
      have hphase : left.phase = state'.phase := by
        funext id
        unfold PlanState.phase PlanState.node?
        rw [hnodes]
      refine ⟨?_, ?_⟩
      · intro φ hφ
        rcases List.mem_append.mp hφ with hφ | hφ
        · rcases List.mem_append.mp hφ with hφ | hφ
          · exact hstart.2 φ hφ
          · exact hmain φ hφ
        · rcases hextra with rfl | rfl
          · cases hφ
          · obtain rfl : φ = _ := by simpa using hφ
            exact hend
      · rintro _ ⟨⟩
        refine ⟨⟨?_, hid.trans hfits.planId⟩, ?_⟩
        · rw [← hfits.ids]
          unfold PlanState.ids
          rw [hnodes]
        · rw [hphase]
          exact hend

theorem sound_withDigest (hs : planfile.Sound) :
    (withCanonicalPlanDigest P.sha256 planfile).Sound := ⟨hs.nodup, hs.deps, hs.acyclic⟩

theorem upheld_withDigest :
    Upheld (withCanonicalPlanDigest P.sha256 planfile) stored ↔ Upheld planfile stored :=
  forall₂_congr fun _ _ => and_congr_left fun _ => fits_withDigest

/-- **A continuation keeps the nodes supported.** -/
theorem Continued.upheld (h : Continued P env planfile continuation stored ok final seen)
    (hs : planfile.Sound) (hstored : Upheld planfile stored) :
    (∀ φ, Seen.record φ ∈ seen → planfile.graph.Closed φ) ∧ Upheld planfile final := by
  have hreset : ∀ {state now}, stored = some state →
      planfile.graph.Closed (continuedState planfile state continuation now).phase := by
    intro state now hstate
    obtain ⟨hfits, hclosed⟩ := hstored state hstate
    exact continuedState_closed hs hfits hclosed
  cases h with
  | stopped => exact ⟨by simp, hstored⟩
  | unreset h =>
      refine ⟨?_, hstored⟩
      intro φ hφ
      obtain rfl : φ = _ := by simpa using hφ
      exact hreset h
  | @executed reset pre main final ok hresets hexec =>
      have hpre : (∀ φ, Seen.record φ ∈ pre → planfile.graph.Closed φ) ∧
          Upheld planfile reset := by
        cases hresets with
        | absent h => exact ⟨by simp, by intro state hstate; cases hstate⟩
        | reset h =>
            refine ⟨?_, ?_⟩
            · intro φ hφ
              obtain rfl : φ = _ := by simpa using hφ
              exact hreset h
            · rintro _ ⟨⟩
              exact ⟨continuedState_fits (hstored _ h).1, hreset h⟩
      obtain ⟨hmain, hfinal⟩ := hexec.upheld (sound_withDigest hs) (upheld_withDigest.mpr hpre.2)
      refine ⟨?_, upheld_withDigest.mp hfinal⟩
      intro φ hφ
      rcases List.mem_append.mp hφ with hφ | hφ
      · exact hpre.1 φ hφ
      · exact hmain φ hφ

/-- **Every operation keeps the nodes supported.** -/
theorem Operated.upheld {op : Operation} (h : Operated P env planfile w op ok final seen)
    (hs : planfile.Sound) (hstored : Upheld planfile (w.planStates planfile.planId)) :
    (∀ φ, Seen.record φ ∈ seen → planfile.graph.Closed φ) ∧ Upheld planfile final := by
  cases h with
  | nothing => exact ⟨by simp, hstored⟩
  | created h => exact h.upheld hs hstored
  | executed h =>
      obtain ⟨hseen, hfinal⟩ := h.upheld (sound_withDigest hs) (upheld_withDigest.mpr hstored)
      exact ⟨hseen, upheld_withDigest.mp hfinal⟩
  | resumed h =>
      cases h with
      | nothing h => exact ⟨by simp, hstored⟩
      | continued hid hkind h => exact h.upheld hs hstored

/-! ### Sessions -/

/-- Operations on one run, one after the other, each run to its end.  What is `allowed`
is asked of the world an operation begins in. -/
inductive Session (P : Platform) (env : Env) (σ : Scope) (runId : String)
    (allowed : World → Operation → Prop) (w₀ : World) : World → Prop
  | opened : Session P env σ runId allowed w₀ w₀
  | next {w op} (h : Session P env σ runId allowed w₀ w) (hop : op.On σ P runId)
      (hallowed : allowed w op) :
      Session P env σ runId allowed w₀ (Prog.exec (handle P env) (op.program P runId) w).state

/-- What a session of one run keeps: everything is stored where it belongs, and the nodes
of its plan are supported. -/
structure Scope.Upholds (σ : Scope) (planfile : Planfile) (w : World) : Prop where
  holds : σ.Holds w
  upheld : Upheld planfile (w.planStates planfile.planId)

theorem Scope.Upholds.fits (h : σ.Upholds planfile w) : w.Fits planfile :=
  fun state hstate => (h.upheld state hstate).1

/-- One operation upholds the plan, and every state it records is supported. -/
theorem operation_upholds {op : Operation} (hs : planfile.Sound) (hexec : σ.Executes runId planfile)
    (hp : planfile.planId = σ.planOf runId) (hop : op.On σ P runId) (hw : σ.Upholds planfile w) :
    σ.Upholds planfile (Prog.exec (handle P env) (op.program P runId) w).state ∧
      ∀ c ∈ (Prog.exec (handle P env) (op.program P runId) w).trace, ∀ state,
        c.2 = .recordPlanState state → state.Supported planfile := by
  have hoperated : Operated P env planfile w op
      (returned (Prog.exec (handle P env) (op.program P runId) w).outcome)
      ((Prog.exec (handle P env) (op.program P runId) w).state.planStates planfile.planId)
      ((Prog.exec (handle P env) (op.program P runId) w).trace.filterMap
        (observe planfile.planId)) := operation_shows hexec hp hop hw.holds hw.fits
  obtain ⟨hseen, hfinal⟩ := hoperated.upheld hs hw.upheld
  -- Within the run and fitting the plan: both are facts about the text of the program.
  have hscope : Prog.Keeps (handle P env) (Call.within σ runId) (Answer.within σ) σ.Holds :=
    keeps_scope
  have hfitting : Prog.Keeps (handle P env) (Call.fits (withCanonicalPlanDigest P.sha256 planfile))
      (Answer.fits _) (World.Fits _) := keeps_fits
  have hobeys := (within_operation hop).and (recording_operation hexec rfl hop)
  have hfits : w.Fits (withCanonicalPlanDigest P.sha256 planfile) :=
    fun state hstate => fits_withDigest.mpr (hw.fits state hstate)
  obtain ⟨hstate, htrace, -⟩ := (hobeys.mono (fun _ h => h) (fun _ _ h => ⟨h.1, h⟩)
    fun _ h => h).exec (hscope.and hfitting) ⟨hw.holds, hfits⟩
  refine ⟨⟨hstate.1, hfinal⟩, ?_⟩
  rintro ⟨w', _⟩ hc state rfl
  have hfit : state.Fits planfile := fits_withDigest.mp ((htrace _ hc).2.2 state rfl)
  refine (supported_iff hs hfit).mpr (hseen _ ?_)
  exact List.mem_filterMap.mpr ⟨_, hc, observe_record hfit.planId⟩

/-- **A whole session upholds the plan.** -/
theorem Session.upholds {allowed : World → Operation → Prop} {w₀ : World}
    (h : Session P env σ runId allowed w₀ w) (hs : planfile.Sound)
    (hexec : σ.Executes runId planfile) (hp : planfile.planId = σ.planOf runId)
    (hw : σ.Upholds planfile w₀) : σ.Upholds planfile w := by
  induction h with
  | opened => exact hw
  | next _ hop _ ih => exact (operation_upholds hs hexec hp hop ih).1

/-! ### What a retry resets -/

/-- The state a call records. -/
def recordedState : World × Call → Option PlanState
  | (_, .recordPlanState state) => some state
  | _ => none

/-- The plan states that were recorded, in order. -/
def recordedStates (trace : List (World × Call)) : List PlanState := trace.filterMap recordedState

/-- `after` is `before` with the node and all that depend on it reset, and nothing else. -/
def Planfile.RetryResets (planfile : Planfile) (nodeId : String) (before after : PlanState) : Prop :=
  List.Forall₂
    (fun old new => new.nodeId = old.nodeId ∧
      (Relation.ReflTransGen planfile.DependsOn nodeId old.nodeId →
        new.status = if old.nodeId = nodeId then .ready else .pending) ∧
      (¬ Relation.ReflTransGen planfile.DependsOn nodeId old.nodeId → new = old))
    before.nodeStates after.nodeStates

theorem continuedState_retries (hs : planfile.Sound) {nodeId : String} (hne : nodeId ≠ "")
    (hkind : continuation.kind = .retry) (hnode : continuation.nodeId = some nodeId) :
    planfile.RetryResets nodeId state (continuedState planfile state continuation now) := by
  have hfilter : continuation.nodeId.filter (· ≠ "") = some nodeId := by
    rw [hnode]
    simp [hne]
  simp only [Planfile.RetryResets, continuedState, List.forall₂_map_right_iff, List.forall₂_same]
  intro ns _
  have hreset : ns.nodeId ∈ resetNodeIds planfile state continuation ↔
      Relation.ReflTransGen planfile.DependsOn nodeId ns.nodeId :=
    mem_resetNodeIds_retry hs hkind hfilter
  by_cases hdep : Relation.ReflTransGen planfile.DependsOn nodeId ns.nodeId
  · rw [if_pos (hreset.mpr hdep)]
    refine ⟨rfl, fun _ => ?_, fun hnot => absurd hdep hnot⟩
    simp [resetPlanNodeState, hnode, hkind]
  · rw [if_neg fun h => hdep (hreset.mp h)]
    exact ⟨rfl, fun h => absurd h hdep, fun _ => rfl⟩

/-- **The first state a continuation records is the reset one**, and a continuation of a
recorded run with a stored plan state does not return without it. -/
theorem executeRunContinuation_resets {id : String} {w : World} (hexec : σ.Executes runId planfile)
    (hid : σ.ownerOf id = runId) (hw : σ.Holds w) (hc : w.continuations id = some continuation)
    (hkind : continuation.kind ≠ .cancel) (hknown : (w.executions runId).isSome = true)
    (hstored : w.planStates planfile.planId = some state) :
    Prog.Shows (handle P env) recordedState (executeRunContinuation P id) w fun out _ seen =>
      (seen = [] ∧ returned out = false) ∨
        ∃ now rest, seen = continuedState planfile state continuation now :: rest := by
  have hfirst : ∀ {α : Type} m, ([] : List PlanState) = [] ∧
      returned (.error m : Except String α) = false := fun _ => ⟨rfl, rfl⟩
  have hrun : continuation.runId = runId := (hw.continuations id continuation hc).runId.trans hid
  refine Prog.shows_bind (Prog.shows_perform ?_)
  cases hout : (handle P env (.getRunContinuation id) w).1 with
  | error m => exact Or.inl (hfirst m)
  | ok found =>
      obtain ⟨hserved, hworld⟩ := handle_ok hout
      have hfound : w.continuations id = found := Except.ok.inj hserved
      obtain rfl : some continuation = found := hc.symm.trans hfound
      dsimp only
      rw [hworld, hrun]
      refine Prog.shows_bind (Prog.shows_perform ?_)
      cases hout₂ : (handle P env (.getRunExecution runId)
          (serve P env (.getRunContinuation id) w).2.next).1 with
      | error m => exact Or.inl (hfirst m)
      | ok latest =>
          obtain ⟨hserved₂, hworld₂⟩ := handle_ok hout₂
          have hlatest : w.executions runId = latest := Except.ok.inj hserved₂
          obtain ⟨record, hrecord⟩ := Option.isSome_iff_exists.mp hknown
          obtain rfl : some record = latest := hrecord.symm.trans hlatest
          have hfile : record.planfile = planfile := hexec _ (hw.executions runId record hrecord).planfile
          dsimp only
          rw [if_neg hkind, hworld₂, hfile]
          unfold parsePlanfile
          split
          · rw [Prog.pure_eq, Prog.bind_eq, Prog.done_bind]
            unfold continueRun resetStoredState
            simp only [Prog.bind_eq, Prog.bind_assoc]
            refine Prog.shows_bind (Prog.shows_perform ?_)
            cases hout₃ : (handle P env (.getPlanState planfile.planId)
                (serve P env (.getRunExecution runId)
                  (serve P env (.getRunContinuation id) w).2.next).2.next).1 with
            | error m => exact Or.inl (hfirst m)
            | ok stored =>
                obtain ⟨hserved₃, hworld₃⟩ := handle_ok hout₃
                obtain rfl : some state = stored := hstored.symm.trans (Except.ok.inj hserved₃)
                dsimp only
                simp only [Prog.bind_assoc]
                refine Prog.shows_bind (Prog.shows_perform ?_)
                cases (handle P env .clock _).1 with
                | error m => exact Or.inl (hfirst m)
                | ok now =>
                    refine Prog.shows_bind (Prog.shows_perform ?_)
                    cases (handle P env (.recordPlanState
                        (continuedState planfile state continuation now)) _).1 with
                    | error m => exact Or.inr ⟨now, [], rfl⟩
                    | ok recorded => exact Or.inr ⟨now, _, rfl⟩
          · exact Prog.shows_fail (Or.inl (hfirst _))

/-- **Sessions keep the nodes of a plan supported, and a retry resets what it should.**

In any session on one run of an accepted plan, whatever fails in it, every plan state that
is recorded is supported.  A stored retry of the node `nodeId` resets exactly the node and
all that transitively depend on it: that is the first state it records, and it does not
return without recording one. -/
theorem session_supported (P : Platform) (env : Env) (σ : Scope) (runId : String)
    (planfile : Planfile) (snapshot : Option CapabilitySnapshot) (w₀ w : World) (op : Operation)
    (hvalid : (validatePlanfile P snapshot planfile).ok = true)
    (hp : planfile.planId = σ.planOf runId) (hexec : σ.Executes runId planfile)
    (hholds : σ.Holds w₀)
    (hstored : ∀ state, w₀.planStates planfile.planId = some state →
      state.Fits planfile ∧ state.Supported planfile)
    (h : Session P env σ runId (fun _ _ => True) w₀ w) (hop : op.On σ P runId) :
    let run := Prog.exec (handle P env) (op.program P runId) w
    (∀ c ∈ run.trace, ∀ state, c.2 = .recordPlanState state → state.Supported planfile) ∧
    (∀ nodeId, ∃ ids, dependentNodeIds planfile nodeId = some ids ∧
      ∀ m, m ∈ ids ↔ Relation.ReflTransGen planfile.DependsOn nodeId m) ∧
    ∀ id continuation nodeId state, op = .continuation id →
      w.continuations id = some continuation → continuation.kind = .retry →
      continuation.nodeId = some nodeId → nodeId ≠ "" → (w.executions runId).isSome = true →
      w.planStates planfile.planId = some state →
      (∀ first, (recordedStates run.trace).head? = some first →
        planfile.RetryResets nodeId state first) ∧
      ((∃ a, run.outcome = .ok a) → (recordedStates run.trace).head?.isSome = true) := by
  intro run
  have hs : planfile.Sound := sound_of_valid hvalid
  have hupheld : Upheld planfile (w₀.planStates planfile.planId) := by
    intro state hstate
    obtain ⟨hfits, hsup⟩ := hstored state hstate
    exact ⟨hfits, (supported_iff hs hfits).mp hsup⟩
  have hw : σ.Upholds planfile w := h.upholds hs hexec hp ⟨hholds, hupheld⟩
  refine ⟨(operation_upholds hs hexec hp hop hw).2, dependentNodeIds_spec hs, ?_⟩
  rintro id continuation nodeId state rfl hc hkind hnode hne hknown hstate
  have hnotCancel : continuation.kind ≠ .cancel := by simp [hkind]
  have hresets : (recordedStates run.trace = [] ∧ returned run.outcome = false) ∨
      ∃ now rest, recordedStates run.trace
        = continuedState planfile state continuation now :: rest := by
    have hshows : Prog.Shows (handle P env) recordedState (executeRunContinuation P id) w _ :=
      executeRunContinuation_resets hexec hop hw.holds hc hnotCancel hknown hstate
    simp only [run, Operation.program, exec_discard]
    unfold Prog.Shows at hshows
    cases hout : (Prog.exec (handle P env) (executeRunContinuation P id) w).outcome <;>
      rw [hout] at hshows <;> exact hshows
  rcases hresets with ⟨hnone, hthrew⟩ | ⟨now, rest, hrec⟩
  · refine ⟨by simp [hnone], ?_⟩
    rintro ⟨a, ha⟩
    rw [ha] at hthrew
    cases hthrew
  · refine ⟨?_, by simp [hrec]⟩
    intro first hfirst
    obtain rfl : continuedState planfile state continuation now = first := by
      simpa [hrec] using hfirst
    exact continuedState_retries hs hne hkind hnode

/-! ### A recorded run of the sample -/

/-- Every run is of the chain, and every continuation of one run. -/
def sampleScope : Scope where
  planOf := fun _ => "plan"
  planfile := fun _ plan => plan = sampleChain
  ownerOf := fun _ => "run"
  kind := fun _ _ => True
  planfile_planId := by
    rintro _ _ rfl
    rfl

def sampleNow : String := "2026-01-01T00:00:00Z"

def sampleContinuation (kind : ContinuationKind) (nodeId : Option String) : RunContinuationRecord :=
  ⟨"cont", "run", kind, .queued, nodeId, some .reuseArtifacts, none, sampleNow, sampleNow⟩

/-- The chain with its nodes in the given states. -/
def sampleState (status : PlanStatus) (first second : PlanNodeStatus) : PlanState :=
  { initialPlanState samplePlatform sampleChain sampleNow with
    status
    nodeStates := [⟨"first", first, none, none, [], []⟩, ⟨"second", second, none, none, [], []⟩] }

/-- A store with a run of the chain, its state and one continuation. -/
def sampleStore (state : PlanState) (continuation : RunContinuationRecord) : World :=
  ((World.empty.setExecution (canonicalRun "run" sampleChain none sampleNow)).setContinuation
    continuation).setPlanState state

theorem sampleStore_holds {state : PlanState} {kind : ContinuationKind} {nodeId : Option String} :
    sampleScope.Holds (sampleStore state (sampleContinuation kind nodeId)) where
  planStates id found hfound := by
    simp only [sampleStore, World.setPlanState] at hfound
    by_cases hid : id = state.planId
    · rw [hid, Function.update_self, Option.some.injEq] at hfound
      rw [hid, hfound]
    · rw [Function.update_of_ne hid] at hfound
      cases hfound
  executions id record hrecord := by
    simp only [sampleStore, World.setPlanState, World.setContinuation, World.setExecution] at hrecord
    by_cases hid : id = "run"
    · rw [hid] at hrecord ⊢
      obtain rfl : canonicalRun "run" sampleChain none sampleNow = record := by
        simpa [canonicalRun] using hrecord
      exact ⟨rfl, rfl, rfl⟩
    · rw [Function.update_of_ne (show id ≠ (canonicalRun "run" sampleChain none sampleNow).runId
        from hid)] at hrecord
      cases hrecord
  continuations id continuation hcont := by
    simp only [sampleStore, World.setPlanState, World.setContinuation] at hcont
    by_cases hid : id = "cont"
    · rw [hid] at hcont ⊢
      obtain rfl : sampleContinuation kind nodeId = continuation := by
        simpa [sampleContinuation] using hcont
      exact ⟨rfl, rfl, trivial⟩
    · rw [Function.update_of_ne (show id ≠ (sampleContinuation kind nodeId).continuationId
        from hid)] at hcont
      cases hcont
  events id event hevent := by cases hevent

theorem sampleScope_executes : sampleScope.Executes "run" sampleChain := fun _ h => h

theorem sampleState_fits {status : PlanStatus} {first second : PlanNodeStatus} :
    (sampleState status first second).Fits sampleChain := ⟨rfl, rfl⟩

/-- The completed chain, with a retry of its second node. -/
theorem sampleChain_retried :
    let run := Prog.exec (handle samplePlatform sampleEnv)
      ((Operation.continuation "cont").program samplePlatform "run")
      (sampleStore (sampleState .completed .completed .completed)
        (sampleContinuation .retry (some "second")))
    (recordedStates run.trace).head?.map (·.nodeStates.map (·.status)) = some [.completed, .ready] ∧
      ∀ c ∈ run.trace, ∀ state, c.2 = .recordPlanState state → state.Supported sampleChain := by
  refine ⟨by decide, ?_⟩
  refine (session_supported samplePlatform sampleEnv sampleScope "run" sampleChain none
    (sampleStore (sampleState .completed .completed .completed)
      (sampleContinuation .retry (some "second"))) _ (.continuation "cont") (by decide) rfl
    sampleScope_executes sampleStore_holds ?_ .opened rfl).1
  intro state hstate
  obtain rfl : sampleState .completed .completed .completed = state := Option.some.inj hstate
  refine ⟨sampleState_fits, ?_⟩
  unfold PlanState.Supported
  decide

end OpenLagrange
