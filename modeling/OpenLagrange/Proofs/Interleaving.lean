/-
The nodes of a plan stay supported, however its runs are interleaved.

A plan has one state in the store, and any number of operations may read and write it: the runs of
the plan, executed more than once at a time, and the continuations that reset its nodes.  None of
them claims the state before it works on it, so the last write wins and the work of an execution
can be written over by another.

What is never lost is that a node that is done, or is being worked on, has its dependencies done.
Every state that is written is made by one program from one state it read, and each step from
the one to the other keeps the nodes supported: so this is a property of the texts of the programs
(`Upholding`), and `Together.run_keeps` carries it over to any order of their calls.
-/
import OpenLagrange.Proofs.Continuations
import OpenLagrange.Proofs.RunIsolation

namespace OpenLagrange.Concurrent

open PlanRunner

variable {P : Platform} {env : Env} {σ : Scope} {plan planfile : Planfile} {state : PlanState}
  {node : PlanNode} {runId : String} {o : PlanRunnerOptions} {now : String}

/-! ### States that uphold a plan -/

/-- The state lists the nodes of the plan, and they are supported. -/
structure Upholds (plan : Planfile) (state : PlanState) : Prop where
  fits : state.Fits plan
  closed : plan.graph.Closed state.phase

theorem upholds_initial (hs : plan.Sound) : Upholds plan (initialPlanState P plan now) :=
  ⟨initialPlanState_fits, initialPlanState_closed hs⟩

theorem Upholds.withDigest :
    Upholds (withCanonicalPlanDigest P.sha256 planfile) state ↔ Upholds planfile state :=
  ⟨fun h => ⟨fits_withDigest.mp h.fits, h.closed⟩, fun h => ⟨fits_withDigest.mpr h.fits, h.closed⟩⟩

/-- Whatever else of a state changes, its nodes uphold the plan. -/
theorem Upholds.congr {other : PlanState} (h : Upholds plan state)
    (hnodes : other.nodeStates = state.nodeStates) (hid : other.planId = state.planId) :
    Upholds plan other := by
  refine ⟨⟨?_, hid.trans h.fits.planId⟩, ?_⟩
  · rw [← h.fits.ids]
    unfold PlanState.ids
    rw [hnodes]
  · have hphase : other.phase = state.phase := by
      funext id
      unfold PlanState.phase PlanState.node?
      rw [hnodes]
    rw [hphase]
    exact h.closed

theorem Upholds.running (hs : plan.Sound) (h : Upholds plan state) {rest : List PlanNode}
    (hready : readyNodes plan state = node :: rest) :
    Upholds plan (runningState state node now) ∧
      (runningState state node now).phase node.id = .active := by
  have hin : node ∈ readyNodes plan state := hready ▸ List.mem_cons_self
  have hid : node.id ∈ state.ids := h.fits.mem (mem_of_readyNodes hin)
  have hphase : (runningState state node now).phase =
      Function.update state.phase node.id .active := runningState_phase hid
  refine ⟨⟨runningState_fits h.fits, ?_⟩, ?_⟩
  · rw [hphase]
    refine TaskGraph.closed_start h.closed ?_
    rw [ready_of_readyNodes hs h.fits hready]
    exact List.mem_cons_self
  · rw [hphase, Function.update_self]

theorem Upholds.marked (h : Upholds plan state) (hactive : state.phase node.id = .active)
    (hnode : node ∈ plan.nodes) {outcome : NodeOutcome} {artifacts : List PlanArtifactRef}
    {errors : List String} :
    Upholds plan (markedState P plan state node outcome artifacts errors now) := by
  refine ⟨markedState_fits h.fits, ?_⟩
  rw [markedState_phase (h.fits.mem hnode)]
  exact TaskGraph.closed_finish h.closed hactive

theorem Upholds.continued (hs : planfile.Sound) (h : Upholds planfile state)
    {continuation : RunContinuationRecord} :
    Upholds planfile (continuedState planfile state continuation now) :=
  ⟨continuedState_fits h.fits, continuedState_closed hs h.fits h.closed⟩

/-! ### Programs that uphold a plan -/

/-- A call that records nothing of the plan but what upholds it. -/
def Call.upholds (plan : Planfile) (call : Call) : Prop :=
  ∀ state, call = .recordPlanState state → state.planId = plan.planId → Upholds plan state

/-- What the calls about plan states answer, when the stored state upholds the plan. -/
def Answer.upholds (plan : Planfile) : (call : Call) → Answer call → Prop
  | .getPlanState id, found => id = plan.planId → ∀ state, found = some state → Upholds plan state
  | .recordPlanState state, recorded => recorded = state
  | _, _ => True

/-- What is stored of the plan upholds it. -/
def StoreUpholds (plan : Planfile) (w : World) : Prop :=
  ∀ state, w.planStates plan.planId = some state → Upholds plan state

/-- Every state of the plan that the program records upholds it, and so does what it returns,
as `Q` says. -/
abbrev Upholding (plan : Planfile) {α : Type} (Q : α → Prop) (p : Program α) : Prop :=
  Prog.Obeys (Call.upholds plan) (Answer.upholds plan) Q p

theorem keeps_upholds : Prog.Keeps (handle P env) (Call.upholds plan) (Answer.upholds plan)
    (StoreUpholds plan) where
  state call w hcall hw := by
    by_cases hrec : ∃ state, call = .recordPlanState state
    · obtain ⟨recorded, rfl⟩ := hrec
      intro found hfound
      have hworld : (handle P env (.recordPlanState recorded) w).2
          = (w.setPlanState recorded).next ∨
            (handle P env (.recordPlanState recorded) w).2 = w.next := handle_world _ w
      rcases hworld with h | h
      · rw [h, World.next_planStates] at hfound
        by_cases hid : recorded.planId = plan.planId
        · simp only [World.setPlanState, hid, Function.update_self, Option.some.injEq] at hfound
          exact hfound ▸ hcall recorded rfl hid
        · simp only [World.setPlanState, Function.update_of_ne (Ne.symm hid)] at hfound
          exact hw found hfound
      · rw [h] at hfound
        exact hw found hfound
    · intro found hfound
      rw [handle_planStates call w fun state he => hrec ⟨state, he⟩] at hfound
      exact hw found hfound
  answer call w a _ hw ha := by
    have hserved := (handle_ok ha).1
    cases call with
    | getPlanState id =>
        rintro rfl found rfl
        exact hw found (Except.ok.inj hserved)
    | recordPlanState recorded => exact (Except.ok.inj hserved).symm
    | _ => trivial

theorem upholding_silent {α : Type} {p : Program α} (hp : Silent p) :
    Upholding plan (fun _ => True) p := by
  refine Prog.Obeys.mono hp ?_ (fun _ _ _ => trivial) (fun _ h => h)
  rintro call hcall recorded rfl
  cases hcall

/-- What comes after a silent part. -/
theorem upholding_after {α β : Type} {p : Program α} {f : α → Program β} {Q : β → Prop}
    (hp : Silent p) (hf : ∀ a, Upholding plan Q (f a)) : Upholding plan Q (p.bind f) :=
  Prog.obeys_bind (upholding_silent hp) fun a _ => hf a

/-- A call that records no plan state. -/
theorem upholding_perform {call : Call} (h : ∀ state, call ≠ .recordPlanState state) :
    Upholding plan (fun _ => True) (perform call) :=
  Prog.obeys_perform (fun recorded heq => absurd heq (h recorded)) (fun _ _ => trivial)

theorem upholding_record (h : Upholds plan state) :
    Upholding plan (fun s => s = state) (perform (.recordPlanState state)) := by
  refine Prog.obeys_perform ?_ fun answer hanswer => hanswer
  rintro _ ⟨⟩ _
  exact h

theorem upholding_getPlanState {id : String} (hid : id = plan.planId) :
    Upholding plan (fun found => ∀ state, found = some state → Upholds plan state)
      (perform (.getPlanState id)) := by
  refine Prog.obeys_perform ?_ fun found hfound => hfound hid
  rintro recorded ⟨⟩

/-! ### The runner -/

theorem upholding_workOn {outputs : Outputs} :
    Upholding plan (fun _ => True) (workOn P o plan state node outputs) := by
  unfold workOn
  split
  · exact Prog.obeys_done trivial
  · split
    · refine Prog.obeys_bind (Q := fun _ => True) ?_ fun result _ => ?_
      · unfold runCapabilityNode
        dsimp only
        split
        · exact Prog.obeys_fail
        · split
          · exact Prog.obeys_fail
          · exact upholding_perform fun _ h => by cases h
      · exact upholding_after silent_stepArtifacts fun _ => Prog.obeys_done trivial
    · split
      · exact upholding_after (silent_perform rfl) fun _ =>
          upholding_after (silent_perform rfl) fun _ => Prog.obeys_done trivial
      · exact Prog.obeys_done trivial

theorem upholding_emitNodeStarted :
    Upholding plan (fun _ => True) (emitNodeStarted o plan node) := by
  refine Prog.obeys_bind (Q := fun _ => True) ?_ fun _ _ => upholding_silent silent_emitPhaseStarted
  unfold emit
  split
  · exact upholding_perform fun _ h => by cases h
  · exact upholding_after silent_now fun _ => upholding_perform fun _ h => by cases h

theorem upholding_markNode (h : Upholds plan state) (hactive : state.phase node.id = .active)
    (hnode : node ∈ plan.nodes) {outcome : NodeOutcome} {artifacts : List PlanArtifactRef}
    {errors : List String} : Upholding plan (fun s => Upholds plan s)
      (markNode P o plan state node outcome artifacts errors) := by
  refine upholding_after silent_now fun now => ?_
  refine Prog.obeys_bind (upholding_record (h.marked hactive hnode)) ?_
  rintro recorded rfl
  exact upholding_after silent_nodeEvent fun _ => upholding_after silent_emitArtifacts fun _ =>
    upholding_after silent_emitPhaseCompleted fun _ =>
      Prog.obeys_done (h.marked hactive hnode)

/-- **A round upholds the plan**: it works on a node whose dependencies are done. -/
theorem upholding_runRound (hs : plan.Sound) (h : Upholds plan state) {rest : List PlanNode}
    (hready : readyNodes plan state = node :: rest) {outputs : Outputs} :
    Upholding plan (fun r => Upholds plan r.state) (runRound P o plan state node outputs) := by
  have hnode : node ∈ plan.nodes := mem_of_readyNodes (hready ▸ List.mem_cons_self)
  refine Prog.obeys_bind upholding_emitNodeStarted fun _ _ => ?_
  have hmark : Upholding plan (fun s => Upholds plan s ∧ s.phase node.id = .active)
      (markNodeRunning o state node) := by
    refine upholding_after silent_now fun now => ?_
    have hrunning : Upholds plan (runningState state node now) ∧
        (runningState state node now).phase node.id = .active := h.running hs hready
    refine (upholding_record hrunning.1).mono (fun _ h => h) (fun _ _ h => h) ?_
    rintro recorded rfl
    exact hrunning
  refine Prog.obeys_bind hmark fun running hrunning => ?_
  refine Prog.obeys_bind upholding_workOn fun work _ => ?_
  exact Prog.obeys_bind (upholding_markNode hrunning.1 hrunning.2 hnode) fun marked hmarked =>
    Prog.obeys_done hmarked

theorem upholding_runRounds (hs : plan.Sound) {k : Nat} (h : Upholds plan state)
    {outputs : Outputs} :
    Upholding plan (fun r => Upholds plan r.state) (runRounds P o plan k state outputs) := by
  induction k generalizing state outputs with
  | zero => exact Prog.obeys_done h
  | succ k ih =>
      unfold runRounds
      split
      · exact Prog.obeys_done h
      · rename_i node rest hready
        refine Prog.obeys_bind (upholding_runRound hs h hready) fun r hr => ?_
        split
        · exact Prog.obeys_done hr
        · exact ih hr

theorem upholding_load (hacc : accept P o planfile = .ok plan) :
    Upholding plan (fun s => Upholds plan s) (load P o planfile) := by
  unfold load
  rw [hacc]
  refine upholding_after silent_now fun now => ?_
  have hinitial : Upholds plan (initialPlanState P plan now) := upholds_initial (accept_sound hacc)
  refine Prog.obeys_bind (upholding_record hinitial) ?_
  rintro recorded rfl
  exact upholding_after (silent_emit (by simp)) fun _ => Prog.obeys_done hinitial

theorem upholding_storedOrLoad (hacc : accept P o plan = .ok plan) :
    Upholding plan (fun s => Upholds plan s) (storedOrLoad P o plan) := by
  refine Prog.obeys_bind (upholding_getPlanState rfl) ?_
  intro found hfound
  cases found with
  | some state => exact Prog.obeys_done (hfound state rfl)
  | none => exact upholding_load hacc

theorem upholding_runToCompletion (hacc : accept P o planfile = .ok plan) :
    Upholding plan (fun r => Upholds plan r.state) (runToCompletion P o planfile) := by
  unfold runToCompletion
  rw [hacc]
  refine Prog.obeys_bind (upholding_storedOrLoad (accept_accepted hacc)) fun state h => ?_
  refine upholding_after (silent_emit (by simp)) fun _ => ?_
  refine Prog.obeys_bind (upholding_runRounds (accept_sound hacc) h) fun r hr => ?_
  exact upholding_after silent_announceEnd fun _ => Prog.obeys_done hr

/-! ### The control plane -/

theorem upholding_publishRun {input : LiveRunInput} (h : Upholds plan state) :
    Upholding plan (fun _ => True) (publishRun P input state) := by
  refine upholding_after (silent_perform rfl) fun artifacts => ?_
  refine upholding_after (silent_perform rfl) fun _ => ?_
  refine upholding_after (silent_perform rfl) fun _ => ?_
  refine upholding_after (silent_perform rfl) fun _ => ?_
  refine Prog.obeys_perform ?_ (fun _ _ => trivial)
  rintro _ ⟨⟩ _
  exact h.congr rfl rfl

theorem upholding_executeLive {input : LiveRunInput}
    (hplan : plan = withCanonicalPlanDigest P.sha256 input.plan) :
    Upholding plan (fun _ => True) (executeLiveLocalPlanfile P input) := by
  unfold executeLiveLocalPlanfile
  dsimp only
  split
  · refine upholding_after (silent_perform rfl) fun expiresAt => ?_
    cases hacc : accept P (liveRunnerOptions P input expiresAt) input.plan with
    | error message =>
        unfold runToCompletion
        rw [hacc]
        exact Prog.obeys_fail
    | ok accepted =>
        obtain rfl : accepted = plan := by
          rw [hplan]
          exact (accept_ok hacc).1
        exact Prog.obeys_bind (upholding_runToCompletion hacc) fun r hr => upholding_publishRun hr
  · exact Prog.obeys_fail

theorem upholding_executeRecordedRun {record : RunExecutionRecord}
    (hplan : plan = withCanonicalPlanDigest P.sha256 record.planfile) :
    Upholding plan (fun _ => True) (executeRecordedRun P runId record) := by
  refine upholding_after (silent_perform rfl) fun startedAt => ?_
  refine upholding_after (silent_perform rfl) fun updatedAt => ?_
  refine upholding_after (silent_perform rfl) fun _ => ?_
  unfold parsePlanfile
  split
  · rw [Prog.pure_eq, Prog.bind_eq, Prog.done_bind]
    refine upholding_after (silent_perform rfl) fun now => ?_
    refine Prog.obeys_bind (upholding_executeLive hplan) fun _ _ => ?_
    refine upholding_after silent_buildRunSnapshot fun snapshot => ?_
    exact upholding_after silent_concludeRun fun _ => Prog.obeys_done trivial
  · exact Prog.obeys_fail

theorem upholding_resetStoredState (hs : planfile.Sound) {continuation : RunContinuationRecord}
    (hplan : plan = withCanonicalPlanDigest P.sha256 planfile) :
    Upholding plan (fun _ => True) (resetStoredState planfile continuation) := by
  refine Prog.obeys_bind (upholding_getPlanState (by rw [hplan]; rfl)) ?_
  intro found hfound
  cases found with
  | none => exact Prog.obeys_done trivial
  | some state =>
      refine upholding_after (silent_perform rfl) fun now => ?_
      have hstate : Upholds planfile state := by
        have h := hfound state rfl
        rw [hplan] at h
        exact Upholds.withDigest.mp h
      have hreset : Upholds plan (continuedState planfile state continuation now) := by
        rw [hplan]
        exact Upholds.withDigest.mpr (hstate.continued hs)
      exact Prog.obeys_bind (upholding_record hreset) fun _ _ => Prog.obeys_done trivial

/-- A program on a run of the plan: it reads what belongs to the run, and upholds the plan. -/
abbrev RunUpholding (σ : Scope) (plan : Planfile) {α : Type} (p : Program α) : Prop :=
  Prog.Obeys (Call.upholds plan) (fun call answer => Answer.within σ call answer ∧
    Answer.upholds plan call answer) (fun _ => True) p

theorem runUpholding {α : Type} {p : Program α} (h : Upholding plan (fun _ => True) p) :
    RunUpholding σ plan p :=
  Prog.Obeys.mono h (fun _ h => h) (fun _ _ h => h.2) (fun _ h => h)

theorem runUpholding_after {α β : Type} {p : Program α} {f : α → Program β} (hp : Silent p)
    (hf : ∀ a, RunUpholding σ plan (f a)) : RunUpholding σ plan (p.bind f) :=
  Prog.obeys_bind (runUpholding (upholding_silent hp)) fun a _ => hf a

/-- What a silent part within the run returns is what it returns there. -/
theorem runUpholding_within {α β : Type} {p : Program α} {f : α → Program β} {Q : α → Prop}
    (hp : Silent p) (hp' : Within σ runId Q p) (hf : ∀ a, Q a → RunUpholding σ plan (f a)) :
    RunUpholding σ plan (p.bind f) := by
  refine Prog.obeys_bind (Prog.Obeys.mono (Prog.Obeys.and hp hp') ?_ ?_ fun _ h => h.2) hf
  · rintro call ⟨hcall, -⟩ recorded rfl
    cases hcall
  · intro call answer h
    exact ⟨trivial, h.1⟩

section OfPlan

variable (hs : planfile.Sound) (hexec : σ.Executes runId planfile)
  (hplan : plan = withCanonicalPlanDigest P.sha256 planfile)

include hexec hplan

theorem runUpholding_executeStoredRun : RunUpholding σ plan (executeStoredRun P runId) := by
  refine runUpholding_within (silent_perform rfl) within_getRunExecution fun found hfound => ?_
  cases found with
  | none => exact Prog.obeys_done trivial
  | some record =>
      have hfile := hexec _ (hfound record rfl).planfile
      exact runUpholding (upholding_executeRecordedRun (by rw [hplan, hfile]))

include hs

theorem runUpholding_continueRun {continuation : RunContinuationRecord}
    (hrun : continuation.runId = runId) :
    RunUpholding σ plan (continueRun P continuation planfile) := by
  refine Prog.obeys_bind (runUpholding (upholding_resetStoredState hs hplan)) fun _ _ => ?_
  refine runUpholding_after (silent_perform rfl) fun now => ?_
  refine runUpholding_after (silent_perform rfl) fun _ => ?_
  rw [hrun]
  refine Prog.obeys_bind (runUpholding_executeStoredRun hexec hplan) fun snapshot _ => ?_
  refine runUpholding_after (silent_perform rfl) fun now' => ?_
  exact runUpholding_after (silent_perform rfl) fun _ => Prog.obeys_done trivial

theorem runUpholding_executeRunContinuation {id : String} (hid : σ.ownerOf id = runId) :
    RunUpholding σ plan (executeRunContinuation P id) := by
  refine runUpholding_within (silent_perform rfl) (within_getRunContinuation hid)
    fun found hfound => ?_
  cases found with
  | none => exact Prog.obeys_done trivial
  | some continuation =>
      have hrun : continuation.runId = runId := (hfound continuation rfl).runId.trans hid
      dsimp only
      rw [hrun]
      refine runUpholding_within (silent_perform rfl) within_getRunExecution
        fun latest hlatest => ?_
      cases latest with
      | none => exact Prog.obeys_done trivial
      | some record =>
          dsimp only
          split
          · exact runUpholding (upholding_silent silent_executeRunCancellation)
          · have hfile : record.planfile = planfile := hexec _ (hlatest record rfl).planfile
            rw [hfile]
            unfold parsePlanfile
            split
            · exact runUpholding_continueRun hs hexec hplan hrun
            · exact Prog.obeys_fail

omit hexec in
theorem upholding_createRunState {input : ApplyPlanfileInput}
    (h : requestedPlan P input.planfile input.live now = .done planfile) :
    Upholding plan (fun _ => True) (createRunState P planfile input runId now) := by
  have hinitial : Upholds plan (initialPlanState P planfile now) := by
    rw [hplan]
    exact Upholds.withDigest.mpr (upholds_initial hs)
  have hrecord : ∀ {α : Type} {f : PlanState → Program α}, (∀ recorded, Silent (f recorded)) →
      Upholding plan (fun _ => True)
        ((perform (.recordPlanState (initialPlanState P planfile now))).bind f) :=
    fun hf => Prog.obeys_bind (upholding_record hinitial) fun recorded _ =>
      upholding_silent (hf recorded)
  unfold createRunState
  split
  · refine Prog.obeys_bind (Q := fun _ => True) ?_ fun state _ => ?_
    · unfold prepareRunState
      dsimp only
      split
      · exact hrecord fun recorded =>
          silent_bind (silent_perform rfl) fun _ => Prog.obeys_done trivial
      · exact Prog.obeys_fail
    · refine upholding_after silent_recordCanonicalRun fun record => ?_
      exact upholding_after silent_startRun fun _ => Prog.obeys_done trivial
  · rename_i hlive
    show Upholding plan _ ((requestedPlan P planfile input.live now).bind _)
    rcases requestedPlan_cases P planfile input.live now with ⟨again, hagain⟩ | ⟨message, hfail⟩
    · rw [hagain, Prog.done_bind, requestedPlan_again hlive h hagain, if_neg hlive]
      unfold recordPlannedRun
      dsimp only
      split
      · exact hrecord fun recorded =>
          silent_bind silent_recordCanonicalRun fun record =>
            silent_bind (silent_perform rfl) fun _ => Prog.obeys_done trivial
      · exact Prog.obeys_fail
    · rw [hfail]
      exact Prog.obeys_fail

theorem runUpholding_createRunFromPlanfile {input : ApplyPlanfileInput}
    (h : σ.Creates P runId input) : RunUpholding σ plan (createRunFromPlanfile P input) := by
  have hnow : Within σ runId (fun t => input.now = none ∨ input.now = some t) (nowOr input.now) :=
    within_nowOr
  refine runUpholding_within silent_nowOr hnow fun t ht => ?_
  show RunUpholding σ plan ((requestedPlan P input.planfile input.live t).bind _)
  rcases requestedPlan_cases P input.planfile input.live t with ⟨made, hmade⟩ | ⟨message, hfail⟩
  · obtain rfl : made = planfile := hexec _ (h t made ht hmade).2
    rw [hmade, Prog.done_bind]
    refine Prog.obeys_bind (runUpholding (upholding_createRunState hs hplan hmade))
      fun state _ => ?_
    refine runUpholding_after silent_buildRunSnapshot fun snapshot => ?_
    cases snapshot with
    | none => exact Prog.obeys_fail
    | some snapshot => exact Prog.obeys_done trivial
  · rw [hfail]
    exact Prog.obeys_fail

/-- **Every operation on a run of the plan upholds it.** -/
theorem runUpholding_answered {op : Operation} (hop : op.On σ P runId) :
    RunUpholding σ plan (answered P runId op) := by
  have hreply : ∀ {α : Type} {p : Program α} (reply : α → Reply), RunUpholding σ plan p →
      RunUpholding σ plan (p.bind fun a => .done (reply a)) :=
    fun _ hp => Prog.obeys_bind hp fun _ _ => Prog.obeys_done trivial
  cases op with
  | create input => exact hreply _ (runUpholding_createRunFromPlanfile hs hexec hplan hop)
  | execute => exact hreply _ (runUpholding_executeStoredRun hexec hplan)
  | resume now => exact hreply _ (runUpholding (upholding_silent silent_resumeRun))
  | retry nodeId replayMode now =>
      exact hreply _ (runUpholding (upholding_silent silent_retryRunNode))
  | cancel now => exact hreply _ (runUpholding (upholding_silent silent_cancelRun))
  | continuation id =>
      exact hreply _ (runUpholding_executeRunContinuation hs hexec hplan hop)
  | cancellation id =>
      exact hreply _ (runUpholding (upholding_silent silent_executeRunCancellation))

end OfPlan

/-! ### Any order of calls -/

/-- A run of another plan records no state of this one. -/
theorem upholds_of_within {call : Call} (hcall : call.within σ runId)
    (hother : σ.planOf runId ≠ plan.planId) : Call.upholds plan call := by
  rintro state rfl hid
  have hown : state.planId = σ.planOf runId := hcall
  exact absurd (hown.symm.trans hid) hother

variable (P σ plan) in
/-- What an operation on a run is held to. -/
def HeldTo (runId : String) (call : Call) : Prop :=
  call.within σ runId ∧ Call.upholds plan call

variable (σ plan) in
def AnsweredWith (call : Call) (answer : Answer call) : Prop :=
  Answer.within σ call answer ∧ Answer.upholds plan call answer

theorem heldTo_answered (hs : planfile.Sound)
    (hexec : σ.planOf runId = planfile.planId → σ.Executes runId planfile)
    (hplan : plan = withCanonicalPlanDigest P.sha256 planfile) {op : Operation}
    (hop : op.On σ P runId) :
    Prog.Obeys (HeldTo σ plan runId) (AnsweredWith σ plan) (fun _ => True)
      (answered P runId op) := by
  have hwithin : Within σ runId (fun _ => True) (answered P runId op) := within_answered hop
  have hid : plan.planId = planfile.planId := by
    rw [hplan]
    rfl
  by_cases hown : σ.planOf runId = planfile.planId
  · have hupholding : RunUpholding σ plan (answered P runId op) :=
      runUpholding_answered hs (hexec hown) hplan hop
    exact (hwithin.and hupholding).mono (fun _ h => h) (fun _ _ h => ⟨h.1, h⟩) fun _ h => h.1
  · refine hwithin.mono (fun call hcall => ⟨hcall, ?_⟩) (fun _ _ h => h.1) fun _ h => h
    exact upholds_of_within hcall (hid ▸ hown)

variable (σ planfile) in
/-- Everything is stored where it belongs, and the stored state of the plan lists its nodes and
has them supported. -/
structure Supported (w : World) : Prop where
  holds : σ.Holds w
  listed : ∀ state, w.planStates planfile.planId = some state → state.Fits planfile
  supported : ∀ state, w.planStates planfile.planId = some state → state.Supported planfile

/-- An execution of the completed chain, and a retry of its second node meanwhile. -/
def retriedMeanwhile : List Happening :=
  [.begins "run" .execute, .calls "run" 0, .begins "run" (.continuation "cont"), .calls "run" 1,
    .calls "run" 0, .calls "run" 1, .calls "run" 1, .calls "run" 0, .calls "run" 1, .calls "run" 0]

def retriedStore : World :=
  sampleStore (sampleState .completed .completed .completed)
    (sampleContinuation .retry (some "second"))

theorem retriedStore_supported : Supported sampleScope sampleChain retriedStore := by
  have hstored : ∀ state, retriedStore.planStates sampleChain.planId = some state →
      sampleState .completed .completed .completed = state := fun _ h => Option.some.inj h
  refine ⟨sampleStore_holds, ?_, ?_⟩
  · intro state hstate
    obtain rfl := hstored state hstate
    exact sampleState_fits
  · intro state hstate
    obtain rfl := hstored state hstate
    unfold PlanState.Supported
    decide

end OpenLagrange.Concurrent
