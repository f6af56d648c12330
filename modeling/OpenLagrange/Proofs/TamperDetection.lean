/-
Tamper detection, and when it happens.

The documentation of Planfiles has execution compare the digest of the plan it is given
with the digest that was recorded.  The runner computes the first and stores it, but
never looks at the second: it takes the stored state as it is and goes on with the
nodes of the plan it was given.

So an edited plan is left alone only for other reasons, because it is rejected or
because the stored state leaves none of its nodes ready.  In every other case its first
ready node is started, or is marked yielded when nothing can run it.
-/
import OpenLagrange.Proofs.RunSafety

namespace OpenLagrange

open PlanRunner

/-- No node is started and no node state changes. -/
def Untouched (planId : String) (state : PlanState) (trace : List (World × Call)) : Prop :=
  startedNodes planId trace = [] ∧
    ∀ c ∈ trace, ∀ recorded, c.2 = .recordPlanState recorded →
      recorded.nodeStates = state.nodeStates

/-- The entry point, called with a plan whose digest is not the recorded one, touches nothing. -/
def DetectsTampering (P : Platform) (env : Env) {α : Type} (entry : Planfile → Program α)
    (planfile : Planfile) (state : PlanState) (w : World) : Prop :=
  canonicalPlanDigest P.sha256 planfile ≠ state.canonicalPlanDigest →
    Untouched planfile.planId state (Prog.exec (handle P env) (entry planfile) w).trace

variable {P : Platform} {env : Env} {o : PlanRunnerOptions} {plan planfile : Planfile}
  {state : PlanState} {w : World}

/-! ### Programs that touch nothing -/

/-- Reading the state of the plan answers with `state`. -/
def Answer.stored (planId : String) (state : PlanState) : (call : Call) → Answer call → Prop
  | .getPlanState id, found => id = planId → found = some state
  | _, _ => True

/-- The program makes silent calls alone, if the stored state of the plan is `state`. -/
abbrev SilentFrom (planId : String) (state : PlanState) {α : Type} (Q : α → Prop)
    (p : Program α) : Prop :=
  Prog.Obeys (fun call => call.silent = true) (Answer.stored planId state) Q p

theorem keeps_stored {planId : String} :
    Prog.Keeps (handle P env) (fun call => call.silent = true) (Answer.stored planId state)
      (fun w => w.planStates planId = some state) where
  state call w hcall hw := by
    rw [handle_planStates call w ?_]
    · exact hw
    · rintro recorded rfl
      cases hcall
  answer call w answer _ hw hanswer := by
    cases call with
    | getPlanState id =>
        rintro rfl
        have hserved := (handle_ok hanswer).1
        exact (Except.ok.inj hserved).symm.trans hw
    | _ => trivial

theorem Silent.from {α : Type} {p : Program α} (hp : Silent p) {planId : String} :
    SilentFrom planId state (fun _ => True) p :=
  Prog.Obeys.mono hp (fun _ h => h) (fun _ _ _ => trivial) (fun _ h => h)

theorem untouched_of_silent {α : Type} {p : Program α} {Q : α → Prop} {planId : String}
    (hp : SilentFrom planId state Q p) (hw : w.planStates planId = some state) :
    Untouched planId state (Prog.exec (handle P env) p w).trace := by
  have hkeeps : Prog.Keeps (handle P env) (fun call => call.silent = true)
      (Answer.stored planId state) (fun w => w.planStates planId = some state) := keeps_stored
  have hcalls := (hp.exec hkeeps hw).2.1
  refine ⟨?_, ?_⟩
  · unfold startedNodes
    rw [List.filterMap_eq_nil_iff]
    intro c hc
    have hsilent := (hcalls c hc).2
    obtain ⟨w', call⟩ := c
    cases call with
    | emitRunEvent listener id body =>
        cases body with
        | nodeStarted base => cases hsilent
        | _ => rfl
    | _ => rfl
  · intro c hc recorded hrec
    have hsilent := (hcalls c hc).2
    rw [hrec] at hsilent
    cases hsilent

theorem silentFrom_storedOrLoad :
    SilentFrom plan.planId state (fun found => found = state) (storedOrLoad P o plan) := by
  refine Prog.obeys_bind (Q := fun found => found = some state) ?_ ?_
  · refine Prog.obeys_perform (e := Call.getPlanState plan.planId) rfl ?_
    intro found hfound
    exact hfound rfl
  · rintro _ rfl
    exact Prog.obeys_done rfl

/-- With no ready node a run to completion is silent. -/
theorem silentFrom_runToCompletion (hacc : accept P o planfile = .ok plan)
    (hready : readyNodes plan state = []) :
    SilentFrom plan.planId state (fun _ => True) (runToCompletion P o planfile) := by
  unfold runToCompletion
  rw [hacc]
  refine Prog.obeys_bind silentFrom_storedOrLoad ?_
  rintro _ rfl
  refine Prog.obeys_bind (silent_emit (by simp)).from fun _ _ => ?_
  refine Prog.obeys_bind (Q := fun _ => True) ?_ fun result _ => ?_
  · unfold runRounds
    rw [hready]
    exact Prog.obeys_done trivial
  · exact Prog.obeys_bind silent_announceEnd.from fun _ _ => Prog.obeys_done trivial

/-- With no ready node `runReadyNode` is silent. -/
theorem silentFrom_runReadyNode (hacc : accept P o planfile = .ok plan)
    (hready : readyNodes plan state = []) :
    SilentFrom plan.planId state (fun _ => True) (runReadyNode P o planfile) := by
  unfold runReadyNode
  rw [hacc]
  refine Prog.obeys_bind silentFrom_storedOrLoad ?_
  rintro _ rfl
  rw [hready]
  exact Prog.obeys_done trivial

/-! ### Programs that touch something -/

/-- A call that is always answered when nothing fails. -/
def Call.sure (call : Call) : Prop :=
  ∀ (P : Platform) (env : Env) (w : World), ∃ answer, (serve P env call w).1 = .ok answer

/-- A program that returns, and makes only sure calls. -/
structure Sure {α : Type} (p : Program α) : Prop where
  returns : Prog.Returns p
  calls : Prog.Obeys Call.sure (fun _ _ => True) (fun _ => True) p

theorem sure_emitRunEvent {listener : Option EventListener} {planId : String}
    {body : RunEventBody} : (Call.emitRunEvent listener planId body).sure := by
  intro P env w
  cases listener with
  | none => exact ⟨(), rfl⟩
  | some listener => exact ⟨(), rfl⟩

theorem sure_now : Sure (PlanRunner.now o) := by
  refine ⟨returns_now, ?_⟩
  unfold PlanRunner.now
  split
  · exact Prog.obeys_done trivial
  · refine Prog.obeys_perform (e := Call.clock) ?_ fun _ _ => trivial
    intro P env w
    exact ⟨env.clock w.tick, rfl⟩

theorem sure_emit {body : RunEventBody} : Sure (emit o plan body) := by
  refine ⟨returns_emit, ?_⟩
  unfold emit
  split
  · exact Prog.obeys_perform sure_emitRunEvent fun _ _ => trivial
  · exact Prog.obeys_bind sure_now.calls fun _ _ =>
      Prog.obeys_perform sure_emitRunEvent fun _ _ => trivial

/-- Where nothing fails a sure program returns. -/
theorem Sure.returns_ok {α : Type} {p : Program α} (hp : Sure p) (hf : ∀ t, env.fault t = .none) :
    ∃ a, (Prog.exec (handle P env) p w).outcome = .ok a := by
  refine hp.returns.exec _ fun c hc => ?_
  have hkeeps : Prog.Keeps (handle P env) Call.sure (fun _ _ => True) fun _ => True :=
    ⟨fun _ _ _ _ => trivial, fun _ _ _ _ _ _ => trivial⟩
  have hsure := ((hp.calls.exec hkeeps (s := w) trivial).2.1 c hc).2
  obtain ⟨answer, hanswer⟩ := hsure P env c.1
  refine ⟨answer, ?_⟩
  rw [handle_noFault (hf _)]
  exact hanswer

/-- The stored state is what a run starts from. -/
theorem storedOrLoad_stored (hf : ∀ t, env.fault t = .none)
    (hw : w.planStates plan.planId = some state) :
    (Prog.exec (handle P env) (storedOrLoad P o plan) w).outcome = .ok state := by
  have hread : (Prog.exec (handle P env) (perform (.getPlanState plan.planId)) w).outcome
      = .ok (some state) := by
    rw [Prog.exec_perform, handle_noFault (hf _), ← hw]
    rfl
  unfold storedOrLoad
  rw [Prog.bind_eq, Prog.exec_bind_ok _ _ hread]
  rfl

/-- Telling that a node starts calls its start. -/
theorem started_emitNodeStarted {node : PlanNode} (hf : ∀ t, env.fault t = .none) :
    ∃ c ∈ (Prog.exec (handle P env) (emitNodeStarted o plan node) w).trace,
      c.2.startedNode plan.planId = some node.id := by
  have hcall : ∀ listener (w' : World), ∃ c ∈ (Prog.exec (handle P env) (perform
      (.emitRunEvent listener plan.planId (.nodeStarted (nodeBase plan node)))) w').trace,
      c.2.startedNode plan.planId = some node.id := by
    intro listener w'
    rw [Prog.exec_perform]
    refine ⟨_, List.mem_singleton_self _, ?_⟩
    simp only [Call.startedNode, if_true, nodeBase]
  have hemit : ∃ c ∈ (Prog.exec (handle P env) (emit o plan (.nodeStarted (nodeBase plan node)))
      w).trace, c.2.startedNode plan.planId = some node.id := by
    unfold emit
    split
    · exact hcall none w
    · obtain ⟨t, ht⟩ := (sure_now (o := o)).returns_ok (P := P) (w := w) hf
      obtain ⟨c, hc, hid⟩ := hcall _ _
      exact ⟨c, Prog.mem_trace_bind_right _ ht hc, hid⟩
  obtain ⟨c, hc, hid⟩ := hemit
  exact ⟨c, Prog.mem_trace_bind_left _ hc, hid⟩

/-- A run to completion starts its first ready node. -/
theorem runToCompletion_starts (hacc : accept P o planfile = .ok plan) {node : PlanNode}
    {rest : List PlanNode} (hready : readyNodes plan state = node :: rest)
    (hf : ∀ t, env.fault t = .none) (hw : w.planStates plan.planId = some state) :
    ∃ c ∈ (Prog.exec (handle P env) (runToCompletion P o planfile) w).trace,
      c.2.startedNode plan.planId = some node.id := by
  have hopen : (Prog.exec (handle P env) (storedOrLoad P o plan) w).outcome = .ok state :=
    storedOrLoad_stored hf hw
  unfold runToCompletion
  rw [hacc]
  have hsure : Sure (emit o plan .runStarted) := sure_emit
  obtain ⟨_, hemit⟩ := hsure.returns_ok (P := P)
    (w := (Prog.exec (handle P env) (storedOrLoad P o plan) w).state) hf
  have hrounds : ∀ w', ∃ c ∈ (Prog.exec (handle P env)
      (runRounds P o plan (plan.nodes.length + 2) state Outputs.empty) w').trace,
      c.2.startedNode plan.planId = some node.id := by
    intro w'
    obtain ⟨c, hc, hid⟩ := started_emitNodeStarted (P := P) (o := o) (w := w') hf
    refine ⟨c, ?_, hid⟩
    unfold runRounds
    rw [hready]
    exact Prog.mem_trace_bind_left _ (Prog.mem_trace_bind_left _ hc)
  obtain ⟨c, hc, hid⟩ := hrounds _
  exact ⟨c, Prog.mem_trace_bind_right _ hopen (Prog.mem_trace_bind_right _ hemit
    (Prog.mem_trace_bind_left _ hc)), hid⟩

/-- Marking a node that waits changes its state. -/
theorem markedNodeStates_ne {node : PlanNode} (hnode : node ∈ readyNodes plan state) {now : String}
    {artifacts : List PlanArtifactRef} {errors : List String} :
    markedNodeStates state node .yielded artifacts errors now ≠ state.nodeStates := by
  intro hsame
  have hpending := (List.mem_filter.mp hnode).2
  rw [decide_eq_true_iff] at hpending
  obtain ⟨ns, hns, hnid⟩ := List.mem_map.mp hpending.1
  obtain ⟨hns, hwait⟩ := List.mem_filter.mp hns
  unfold markedNodeStates at hsame
  have hfix := List.map_inj_left.mp (hsame.trans (List.map_id _).symm) ns hns
  rw [if_pos hnid] at hfix
  have hstatus : ns.status = .yielded := by
    have hstatus := congrArg PlanNodeState.status hfix
    exact hstatus.symm
  rw [hstatus] at hwait
  cases hwait

/-- Marking a node records the marked state. -/
theorem recorded_markNode {node : PlanNode} {outcome : NodeOutcome}
    {artifacts : List PlanArtifactRef} {errors : List String} (hf : ∀ t, env.fault t = .none) :
    ∃ now, ∃ c ∈ (Prog.exec (handle P env)
        (markNode P o plan state node outcome artifacts errors) w).trace,
      c.2 = .recordPlanState (markedState P plan state node outcome artifacts errors now) := by
  obtain ⟨now, hnow⟩ := (sure_now (o := o)).returns_ok (P := P) (w := w) hf
  have hrecord : ∀ recorded (w' : World), ∃ c ∈ (Prog.exec (handle P env)
      (perform (.recordPlanState recorded)) w').trace, c.2 = .recordPlanState recorded := by
    intro recorded w'
    rw [Prog.exec_perform]
    exact ⟨_, List.mem_singleton_self _, rfl⟩
  obtain ⟨c, hc, hrec⟩ := hrecord (markedState P plan state node outcome artifacts errors now) _
  exact ⟨now, c, Prog.mem_trace_bind_right _ hnow (Prog.mem_trace_bind_left _ hc), hrec⟩

/-- `runReadyNode` starts its first ready node, or marks it yielded. -/
theorem runReadyNode_touches (hacc : accept P o planfile = .ok plan) {node : PlanNode}
    {rest : List PlanNode} (hready : readyNodes plan state = node :: rest)
    (hf : ∀ t, env.fault t = .none) (hw : w.planStates plan.planId = some state) :
    ¬ Untouched plan.planId state (Prog.exec (handle P env) (runReadyNode P o planfile) w).trace := by
  rintro ⟨hstarted, hrecorded⟩
  have hmem : node ∈ readyNodes plan state := hready ▸ List.mem_cons_self
  have hopen : (Prog.exec (handle P env) (storedOrLoad P o plan) w).outcome = .ok state :=
    storedOrLoad_stored hf hw
  have hnone : ∀ c ∈ (Prog.exec (handle P env) (runReadyNode P o planfile) w).trace,
      c.2.startedNode plan.planId ≠ some node.id := by
    intro c hc hid
    have hin : node.id ∈ startedNodes plan.planId
        (Prog.exec (handle P env) (runReadyNode P o planfile) w).trace :=
      List.mem_filterMap.mpr ⟨c, hc, hid⟩
    rw [hstarted] at hin
    cases hin
  unfold runReadyNode at hnone hrecorded
  rw [hacc] at hnone hrecorded
  by_cases hstruct : canCompleteStructuralNode node = true
  · obtain ⟨c, hc, hid⟩ := started_emitNodeStarted (P := P) (o := o) hf
    refine hnone c (Prog.mem_trace_bind_right _ hopen ?_) hid
    rw [hready]
    dsimp only
    rw [if_pos hstruct]
    exact Prog.mem_trace_bind_left _ hc
  · by_cases hhandler : o.handlers node.kind = true
    · -- The work order of a listed node is always compiled.
      have hcompile : ∀ w', ∃ order, (Prog.exec (handle P env)
          (perform (.compileWorkOrder plan node.id o.capabilitySnapshot)) w').outcome
            = .ok order := by
        intro w'
        have hs := accept_sound hacc
        have hfound := plan.node?_of_nodup hs.nodup (mem_of_readyNodes hmem)
        rw [Prog.exec_perform, handle_noFault (hf _)]
        simp only [serve, compileWorkOrder, hfound]
        exact ⟨_, rfl⟩
      obtain ⟨order, horder⟩ := hcompile (Prog.exec (handle P env) (storedOrLoad P o plan) w).state
      obtain ⟨c, hc, hid⟩ := started_emitNodeStarted (P := P) (o := o) hf
      refine hnone c (Prog.mem_trace_bind_right _ hopen ?_) hid
      rw [hready]
      dsimp only
      rw [if_neg hstruct, if_pos hhandler]
      exact Prog.mem_trace_bind_right _ horder (Prog.mem_trace_bind_left _ hc)
    · obtain ⟨now, c, hc, hrec⟩ := recorded_markNode (P := P) (o := o) hf
      refine markedNodeStates_ne hmem
        (hrecorded c (Prog.mem_trace_bind_right _ hopen ?_) _ hrec)
      rw [hready]
      dsimp only
      rw [if_neg hstruct, if_neg hhandler]
      exact hc

/-! ### When tampering is detected -/

/-- What keeps an edited plan from being executed: it is no other plan at all, it is
rejected, or the stored state leaves none of its nodes ready. -/
def LeftAlone (P : Platform) (o : PlanRunnerOptions) (planfile : Planfile) (state : PlanState) :
    Prop :=
  canonicalPlanDigest P.sha256 planfile = state.canonicalPlanDigest ∨
    (∃ message, accept P o planfile = .error message) ∨ readyNodes planfile state = []

/-- An edited plan that is left alone for another reason touches nothing, whatever fails. -/
theorem detects_of_leftAlone {α : Type} {entry : Planfile → Program α}
    (hreject : ∀ message, accept P o planfile = .error message → entry planfile = .fail message)
    (hsilent : ∀ plan, accept P o planfile = .ok plan → readyNodes plan state = [] →
      ∃ Q, SilentFrom plan.planId state Q (entry planfile))
    (hw : w.planStates planfile.planId = some state) (hleft : LeftAlone P o planfile state) :
    DetectsTampering P env entry planfile state w := by
  intro hdiffer
  cases hacc : accept P o planfile with
  | error message =>
      rw [hreject message hacc]
      exact ⟨rfl, by simp⟩
  | ok plan =>
      have hready : readyNodes planfile state = [] := by
        rcases hleft with hsame | ⟨message, hrej⟩ | hready
        · exact absurd hsame hdiffer
        · rw [hacc] at hrej
          cases hrej
        · exact hready
      obtain ⟨hplan, -⟩ := accept_ok hacc
      rw [hplan] at hacc
      obtain ⟨Q, hQ⟩ := hsilent _ hacc hready
      exact untouched_of_silent hQ hw

/-- An edited plan with a ready node is executed, where nothing fails. -/
theorem leftAlone_of_detects {α : Type} {entry : Planfile → Program α}
    (htouches : ∀ plan node rest, accept P o planfile = .ok plan →
      readyNodes plan state = node :: rest → w.planStates plan.planId = some state →
      ¬ Untouched plan.planId state (Prog.exec (handle P env) (entry planfile) w).trace)
    (hw : w.planStates planfile.planId = some state)
    (hdetects : DetectsTampering P env entry planfile state w) : LeftAlone P o planfile state := by
  by_cases hsame : canonicalPlanDigest P.sha256 planfile = state.canonicalPlanDigest
  · exact Or.inl hsame
  · refine Or.inr ?_
    cases hacc : accept P o planfile with
    | error message => exact Or.inl ⟨message, rfl⟩
    | ok plan =>
        right
        obtain ⟨hplan, -⟩ := accept_ok hacc
        rw [hplan] at hacc
        by_contra hready
        obtain ⟨node, rest, hcons⟩ := List.exists_cons_of_ne_nil hready
        exact htouches _ node rest hacc hcons hw (hdetects hsame)

/-- **When tampering is detected.**  By either entry point, an edited plan that is left
alone for another reason touches nothing, whatever fails; and where nothing fails, every
other edited plan does. -/
theorem detectsTampering_iff (P : Platform) (env : Env) (o : PlanRunnerOptions)
    (planfile : Planfile) (state : PlanState) (w : World)
    (hw : w.planStates planfile.planId = some state) :
    (LeftAlone P o planfile state →
      DetectsTampering P env (runToCompletion P o) planfile state w ∧
        DetectsTampering P env (runReadyNode P o) planfile state w) ∧
    ((∀ t, env.fault t = .none) →
      (DetectsTampering P env (runToCompletion P o) planfile state w ↔
        LeftAlone P o planfile state) ∧
      (DetectsTampering P env (runReadyNode P o) planfile state w ↔
        LeftAlone P o planfile state)) := by
  have hcompletion : LeftAlone P o planfile state →
      DetectsTampering P env (runToCompletion P o) planfile state w := by
    refine detects_of_leftAlone ?_ ?_ hw
    · intro message hrej
      unfold runToCompletion
      rw [hrej]
    · intro plan hacc hready
      exact ⟨_, silentFrom_runToCompletion hacc hready⟩
  have hready : LeftAlone P o planfile state →
      DetectsTampering P env (runReadyNode P o) planfile state w := by
    refine detects_of_leftAlone ?_ ?_ hw
    · intro message hrej
      unfold runReadyNode
      rw [hrej]
    · intro plan hacc hready
      exact ⟨_, silentFrom_runReadyNode hacc hready⟩
  refine ⟨fun hleft => ⟨hcompletion hleft, hready hleft⟩, fun hf => ⟨⟨?_, hcompletion⟩, ⟨?_, hready⟩⟩⟩
  · refine leftAlone_of_detects ?_ hw
    rintro plan node rest hacc hcons hw' ⟨hstarted, -⟩
    obtain ⟨c, hc, hid⟩ := runToCompletion_starts hacc hcons hf hw'
    have hin : node.id ∈ startedNodes plan.planId _ := List.mem_filterMap.mpr ⟨c, hc, hid⟩
    rw [hstarted] at hin
    cases hin
  · refine leftAlone_of_detects ?_ hw
    intro plan node rest hacc hcons hw'
    exact runReadyNode_touches hacc hcons hf hw'

/-- The state of a plan that has the nodes of the chain and another digest. -/
def sampleStored : PlanState :=
  { initialPlanState samplePlatform sampleChain "2026-01-01T00:00:00Z" with
    canonicalPlanDigest := "ba7816bf8f01cfea414140de5dae2223b00361a396177a9cb410ff61f20015ad" }

/-- A plan that is not the recorded one is executed. -/
theorem sampleChain_undetected :
    ¬ ∀ (P : Platform) (env : Env) (o : PlanRunnerOptions) (planfile : Planfile)
      (state : PlanState) (w : World), w.planStates planfile.planId = some state →
        DetectsTampering P env (runToCompletion P o) planfile state w ∧
          DetectsTampering P env (runReadyNode P o) planfile state w := by
  intro hall
  have hdetects := (hall samplePlatform sampleEnv sampleOptions sampleChain sampleStored
    (World.empty.setPlanState sampleStored) rfl).1
  have hnone := (hdetects (by decide)).1
  have hstarted : startedNodes sampleChain.planId (Prog.exec (handle samplePlatform sampleEnv)
      (runToCompletion samplePlatform sampleOptions sampleChain)
      (World.empty.setPlanState sampleStored)).trace = ["first", "second"] := by decide
  rw [hstarted] at hnone
  cases hnone

/-- The plan is executed under either condition that is not met. -/
theorem sampleChain_not_leftAlone :
    ¬ DetectsTampering samplePlatform sampleEnv (runReadyNode samplePlatform sampleOptions)
      sampleChain sampleStored (World.empty.setPlanState sampleStored) := by
  have hiff := ((detectsTampering_iff samplePlatform sampleEnv sampleOptions sampleChain sampleStored
    (World.empty.setPlanState sampleStored) rfl).2 fun _ => rfl).2
  rw [hiff]
  rintro (hsame | ⟨message, hrej⟩ | hready)
  · exact absurd hsame (by decide)
  · have hacc : (accept samplePlatform sampleOptions sampleChain).toOption.isSome = true := by decide
    rw [hrej] at hacc
    cases hacc
  · exact absurd hready (by decide)

end OpenLagrange
