/-
The plan runner is a greedy worker.

`runRounds` talks to the store, the clock, handlers and observers; what matters of it
is a sequence of starts, steps and recorded states.  `observe` picks these from the
calls of a run, and the theorems here say that they are what a greedy worker on the
plan's graph would show, whatever the environment answers and wherever it fails.

Only three kinds of calls are seen.  All others leave the stored state of the plan
alone, so the parts of a program that make no other calls are passed over at once.
-/
import OpenLagrange.Lib.Worker
import OpenLagrange.Proofs.PlanState

namespace OpenLagrange

open PlanRunner

/-! ### What is seen of a run -/

/-- The phases of the stored state of a plan. -/
def World.phases (w : World) (planId : String) : String → Phase :=
  match w.planStates planId with
  | some state => state.phase
  | none => fun _ => .halted

/-- The starts, steps and recorded states of one plan. -/
def observe (planId : String) : World × Call → Option (Seen String Value)
  | (w, .emitRunEvent _ id (.nodeStarted base)) =>
      if id = planId then some (.start base.nodeId (w.phases planId)) else none
  | (_, .recordPlanState state) => if state.planId = planId then some (.record state.phase) else none
  | (_, .runCapabilityStep _ input) =>
      if input.planId = planId then some (.work input.nodeId input.input) else none
  | _ => none

/-- The calls that are never seen. -/
def Call.silent : Call → Bool
  | .emitRunEvent _ _ (.nodeStarted _) | .recordPlanState _ | .runCapabilityStep _ _ => false
  | _ => true

variable {P : Platform} {env : Env} {o : PlanRunnerOptions} {plan : Planfile} {state : PlanState}
  {node : PlanNode} {outputs : Outputs}

/-- A served call other than a recording leaves the plan states alone. -/
theorem serve_planStates (call : Call) (w : World) (h : ∀ state, call ≠ .recordPlanState state) :
    (serve P env call w).2.planStates = w.planStates := by
  cases call with
  | recordPlanState state => exact absurd rfl (h state)
  | emitRunEvent listener planId body => cases listener <;> rfl
  | runCapabilityStep runId input => cases runId <;> rfl
  | flushArtifacts planId dir =>
      simp only [serve]
      split <;> rfl
  | _ => rfl

theorem handle_planStates (call : Call) (w : World) (h : ∀ state, call ≠ .recordPlanState state) :
    (handle P env call w).2.planStates = w.planStates :=
  handle_view (fun _ => rfl) (serve_planStates call w h)

/-- Silent calls keep the plan states and are not seen. -/
theorem quiet_silent (planId : String) (f : String → Option PlanState) :
    Prog.Quiet (handle P env) (observe planId) (fun call => call.silent = true) (fun _ _ => True)
      (fun w => w.planStates = f) where
  state call w hcall hw := by
    rw [handle_planStates call w ?_, hw]
    rintro s rfl
    cases hcall
  answer _ _ _ _ _ _ := trivial
  unseen call w hcall _ := by
    cases call with
    | emitRunEvent listener id body =>
        cases body with
        | nodeStarted base => cases hcall
        | _ => rfl
    | recordPlanState s => cases hcall
    | runCapabilityStep runId input => cases hcall
    | _ => rfl

/-- A program that makes only silent calls. -/
abbrev Silent {α : Type} (p : Program α) : Prop :=
  Prog.Obeys (fun call => call.silent = true) (fun _ _ => True) (fun _ => True) p

/-- Silent programs are passed over. -/
theorem Silent.shows_bind {α β : Type} {p : Program α} {f : α → Program β} (hp : Silent p)
    {planId : String} {w : World} {post : Except String β → World → List (Seen String Value) → Prop}
    (herr : ∀ m w', w'.planStates = w.planStates → post (.error m) w' [])
    (hok : ∀ a w', w'.planStates = w.planStates →
      Prog.Shows (handle P env) (observe planId) (f a) w' post) :
    Prog.Shows (handle P env) (observe planId) (p.bind f) w post :=
  Prog.Obeys.shows_bind (quiet_silent planId w.planStates) hp rfl herr fun a w' _ => hok a w'

theorem Silent.shows {α : Type} {p : Program α} (hp : Silent p) {planId : String} {w : World}
    {post : Except String α → World → List (Seen String Value) → Prop}
    (h : ∀ out w', w'.planStates = w.planStates → post out w' []) :
    Prog.Shows (handle P env) (observe planId) p w post := by
  refine (Prog.Obeys.shows (quiet_silent planId w.planStates) hp rfl).mono ?_
  rintro out w' seen ⟨rfl, hw, -⟩
  exact h out w' hw

theorem silent_perform {call : Call} (h : call.silent = true) : Silent (perform call) :=
  Prog.obeys_perform h fun _ _ => trivial

theorem silent_bind {α β : Type} {p : Program α} {f : α → Program β} (hp : Silent p)
    (hf : ∀ a, Silent (f a)) : Silent (p.bind f) :=
  Prog.obeys_bind hp fun a _ => hf a

/-! ### The silent parts of the runner -/

theorem silent_now : Silent (PlanRunner.now o) := by
  unfold PlanRunner.now
  cases o.now with
  | some now => exact Prog.obeys_done trivial
  | none => exact silent_perform rfl

theorem silent_emit {body : RunEventBody} (h : ∀ base, body ≠ .nodeStarted base) :
    Silent (emit o plan body) := by
  have hsilent : ∀ listener, (Call.emitRunEvent listener plan.planId body).silent = true := by
    intro listener
    cases body with
    | nodeStarted base => exact absurd rfl (h base)
    | _ => rfl
  unfold emit
  cases listener o with
  | none => exact silent_perform (hsilent none)
  | some runId => exact silent_bind silent_now fun _ => silent_perform (hsilent _)

theorem silent_emitPhaseStarted : Silent (emitPhaseStarted o plan node) := by
  unfold emitPhaseStarted
  cases node.kind with
  | verify => exact silent_emit (by simp)
  | repair => exact silent_emit (by simp)
  | _ => exact Prog.obeys_done trivial

theorem silent_emitPhaseCompleted {outcome : NodeOutcome} :
    Silent (emitPhaseCompleted o plan node outcome) := by
  unfold emitPhaseCompleted
  cases node.kind with
  | verify => exact silent_emit (by simp)
  | repair => exact silent_emit (by simp)
  | _ => exact Prog.obeys_done trivial

theorem silent_emitArtifacts {artifacts : List PlanArtifactRef} :
    Silent (emitArtifacts o plan node artifacts) := by
  induction artifacts with
  | nil => exact Prog.obeys_done trivial
  | cons artifact rest ih =>
      refine silent_bind ?_ fun _ => ih
      unfold emitArtifact
      split
      · exact Prog.obeys_done trivial
      · exact silent_emit (by simp)

theorem silent_stepArtifacts {refs : List String} : Silent (stepArtifacts o refs) := by
  induction refs with
  | nil => exact Prog.obeys_done trivial
  | cons id rest ih =>
      exact silent_bind silent_now fun _ => silent_bind ih fun _ => Prog.obeys_done trivial

theorem silent_announceEnd : Silent (announceEnd o plan state) := by
  unfold announceEnd
  split
  · exact silent_emit (by simp)
  · exact silent_bind silent_now fun _ => silent_emit (by simp)
  · exact silent_emit (by simp)
  · exact Prog.obeys_done trivial

theorem silent_nodeEvent {outcome : NodeOutcome} {artifacts : List PlanArtifactRef}
    {errors : List String} {now : String} :
    Silent (emit o plan (nodeEvent o plan node outcome artifacts errors now)) := by
  refine silent_emit ?_
  intro base
  cases outcome <;> simp [nodeEvent]

/-- Reading the clock does not fail. -/
theorem shows_now {β : Type} {f : String → Program β} {planId : String} {w : World}
    {post : Except String β → World → List (Seen String Value) → Prop}
    (hok : ∀ t w', w'.planStates = w.planStates →
      Prog.Shows (handle P env) (observe planId) (f t) w' post) :
    Prog.Shows (handle P env) (observe planId) ((PlanRunner.now o).bind f) w post := by
  unfold PlanRunner.now
  cases o.now with
  | some now => exact hok now w rfl
  | none => exact hok (env.clock w.tick) w.next rfl

/-- Recording a state is seen, and afterwards the store holds it, unless it failed first. -/
theorem shows_record {β : Type} {f : PlanState → Program β} {planId : String} {w : World}
    {state : PlanState} (hid : state.planId = planId)
    {post : Except String β → World → List (Seen String Value) → Prop}
    (herr : ∀ m w', (w'.planStates planId = w.planStates planId ∨
      w'.planStates planId = some state) → post (.error m) w' [.record state.phase])
    (hok : ∀ w', w'.planStates planId = some state →
      Prog.Shows (handle P env) (observe planId) (f state) w'
        fun out w'' seen => post out w'' (.record state.phase :: seen)) :
    Prog.Shows (handle P env) (observe planId) ((perform (.recordPlanState state)).bind f) w post := by
  have hserved : (serve P env (.recordPlanState state) w).2.next.planStates planId = some state := by
    rw [World.next_planStates]
    simp only [serve, World.setPlanState, hid, Function.update_self]
  have hobs : observe planId (w, .recordPlanState state) = some (.record state.phase) := by
    simp only [observe, hid, if_true]
  refine Prog.shows_bind (Prog.shows_perform ?_)
  rw [hobs]
  cases hout : (handle P env (.recordPlanState state) w).1 with
  | error m =>
      refine herr m _ ?_
      have hworld : (handle P env (.recordPlanState state) w).2
          = (serve P env (.recordPlanState state) w).2.next ∨
            (handle P env (.recordPlanState state) w).2 = w.next := handle_world _ w
      rcases hworld with hw | hw
      · rw [hw]
        exact Or.inr hserved
      · rw [hw]
        exact Or.inl rfl
  | ok a =>
      obtain ⟨hans, hw⟩ := handle_ok hout
      cases hans
      rw [hw]
      exact hok _ hserved

theorem phases_congr {w w' : World} {planId : String} (h : w'.planStates = w.planStates) :
    w'.phases planId = w.phases planId := by
  unfold World.phases
  rw [h]

theorem phases_of_stored {w : World} {planId : String} {state : PlanState}
    (h : w.planStates planId = some state) : w.phases planId = state.phase := by
  unfold World.phases
  rw [h]

/-- Telling that a node started is seen, also when telling fails. -/
theorem shows_emitNodeStarted {β : Type} {f : Unit → Program β} {w : World}
    {post : Except String β → World → List (Seen String Value) → Prop}
    (herr : ∀ m w', w'.planStates = w.planStates →
      post (.error m) w' [.start node.id (w.phases plan.planId)])
    (hok : ∀ w', w'.planStates = w.planStates →
      Prog.Shows (handle P env) (observe plan.planId) (f ()) w'
        fun out w'' seen => post out w'' (.start node.id (w.phases plan.planId) :: seen)) :
    Prog.Shows (handle P env) (observe plan.planId) ((emitNodeStarted o plan node).bind f) w post := by
  have hcall : ∀ listener (w₁ : World), w₁.planStates = w.planStates →
      Prog.Shows (handle P env) (observe plan.planId)
        (perform (.emitRunEvent listener plan.planId (.nodeStarted (nodeBase plan node)))) w₁
        fun out w' seen => w'.planStates = w.planStates ∧
          seen = [.start node.id (w.phases plan.planId)] := by
    intro listener w₁ hw₁
    refine Prog.shows_perform ⟨?_, ?_⟩
    · rw [handle_planStates _ _ (by simp), hw₁]
    · have hp : w₁.phases plan.planId = w.phases plan.planId := phases_congr hw₁
      simp only [observe, if_true, nodeBase, hp, Option.toList]
  have hemit : Prog.Shows (handle P env) (observe plan.planId)
      (emit o plan (.nodeStarted (nodeBase plan node))) w fun out w' seen =>
        w'.planStates = w.planStates ∧ seen = [.start node.id (w.phases plan.planId)] := by
    unfold emit
    cases listener o with
    | none => exact hcall none w rfl
    | some runId => exact shows_now fun t w₁ hw₁ => hcall _ w₁ hw₁
  show Prog.Shows _ _ (((emit o plan _).bind fun _ => emitPhaseStarted o plan node).bind f) w post
  rw [Prog.bind_assoc]
  refine Prog.shows_bind (hemit.mono ?_)
  rintro (m | ⟨⟩) w₁ seen ⟨hw₁, rfl⟩
  · exact herr m w₁ hw₁
  · refine silent_emitPhaseStarted.shows_bind ?_ ?_
    · intro m w₂ hw₂
      exact herr m w₂ (hw₂.trans hw₁)
    · intro _ w₂ hw₂
      exact hok w₂ (hw₂.trans hw₁)

/-! ### Working on a node -/

/-- The input a node is run with. -/
def resolvedInput (plan : Planfile) (node : PlanNode) (outputs : Outputs) : Value :=
  resolveTemplates outputs (nodeInput plan node.id)

variable (P env o plan) in
/-- How working on a node may go: the input passed to its capability step, if one was
run, and how it ended; `none` is a throw. -/
inductive WorkedOn (node : PlanNode) (outputs : Outputs) :
    List Value → Option (NodeOutcome × Outputs) → Prop
  | structural (h : canCompleteStructuralNode node = true) :
      WorkedOn node outputs [] (some (.completed, outputs))
  | unresolved (h : canRunCapabilityStep node = true)
      (hr : resolvedCapability P o node = none ∨ o.delegationContext = none) :
      WorkedOn node outputs [] none
  | thrown (h : canRunCapabilityStep node = true) (hr : (resolvedCapability P o node).isSome) :
      WorkedOn node outputs [resolvedInput plan node outputs] none
  | stepped {tick input result} (h : canRunCapabilityStep node = true)
      (hr : (resolvedCapability P o node).isSome)
      (hres : (env.runCapabilityStep tick input).result = .ok result)
      (hid : input.nodeId = node.id) (hin : input.input = resolvedInput plan node outputs) :
      WorkedOn node outputs [resolvedInput plan node outputs]
        (some (planStatusFromStep result.status, keepOutput outputs node.id result.output))
  | handlerThrew (h : o.handlers node.kind = true) : WorkedOn node outputs [] none
  | handled {outcome} (h : o.handlers node.kind = true) :
      WorkedOn node outputs [] (some (outcome, outputs))
  | unhandled (hs : canCompleteStructuralNode node = false)
      (hc : canRunCapabilityStep node = false) (h : o.handlers node.kind = false) :
      WorkedOn node outputs [] (some (.yielded, outputs))

variable (P env o plan) in
/-- Working on a node, as the work of a greedy worker. -/
def nodeWork : TaskGraph.Work String Value Outputs := fun id outputs works result =>
  ∃ node ∈ plan.nodes, node.id = id ∧
    ∃ r, WorkedOn P env o plan node outputs works r ∧
      result = r.map fun end' => (end'.1.status.phase, end'.2)

/-- Running a capability step is seen with its input. -/
theorem shows_runCapabilityStep {β : Type} {f : CapabilityStepResult → Program β} {planId : String}
    {runId : Option String} {input : CapabilityStepInput} (hid : input.planId = planId) {w : World}
    {post : Except String β → World → List (Seen String Value) → Prop}
    (herr : ∀ m w', w'.planStates = w.planStates →
      post (.error m) w' [.work input.nodeId input.input])
    (hok : ∀ result w', (env.runCapabilityStep w.tick input).result = .ok result →
      w'.planStates = w.planStates →
      Prog.Shows (handle P env) (observe planId) (f result) w'
        fun out w'' seen => post out w'' (.work input.nodeId input.input :: seen)) :
    Prog.Shows (handle P env) (observe planId)
      ((perform (.runCapabilityStep runId input)).bind f) w post := by
  have hobs : observe planId (w, .runCapabilityStep runId input)
      = some (.work input.nodeId input.input) := by
    simp only [observe, hid, if_true]
  have hkeep : (handle P env (.runCapabilityStep runId input) w).2.planStates = w.planStates :=
    handle_planStates _ w (by simp)
  refine Prog.shows_bind (Prog.shows_perform ?_)
  rw [hobs]
  cases hout : (handle P env (.runCapabilityStep runId input) w).1 with
  | error m => exact herr m _ hkeep
  | ok result =>
      refine hok result _ ?_ hkeep
      have hserved := (handle_ok hout).1
      cases runId <;> exact hserved

theorem workOn_shows {w : World} :
    Prog.Shows (handle P env) (observe plan.planId) (workOn P o plan state node outputs) w
      fun out w' seen => w'.planStates = w.planStates ∧
        ∃ works r, seen = works.map (.work node.id) ∧ WorkedOn P env o plan node outputs works r ∧
          match out with
          | .ok work => r = some (work.outcome, work.outputs)
          | .error _ => r = none := by
  unfold workOn
  by_cases hstruct : canCompleteStructuralNode node = true
  · rw [if_pos hstruct]
    exact Prog.shows_done ⟨rfl, [], _, rfl, .structural hstruct, rfl⟩
  · rw [if_neg hstruct]
    by_cases hcap : canRunCapabilityStep node = true
    · rw [if_pos hcap]
      simp only [Prog.bind_eq, Prog.pure_eq, runCapabilityNode]
      cases hres : resolvedCapability P o node with
      | none => exact Prog.shows_fail ⟨rfl, [], _, rfl, .unresolved hcap (Or.inl hres), rfl⟩
      | some descriptor =>
          have hsome : (resolvedCapability P o node).isSome := by rw [hres]; rfl
          cases hctx : o.delegationContext with
          | none => exact Prog.shows_fail ⟨rfl, [], _, rfl, .unresolved hcap (Or.inr hctx), rfl⟩
          | some context =>
              dsimp only
              refine shows_runCapabilityStep (?_ : _ = plan.planId) ?_ ?_
              · rfl
              · intro m w' hw'
                exact ⟨hw', [_], _, rfl, .thrown hcap hsome, rfl⟩
              · intro result w₁ hres₁ hw₁
                refine silent_stepArtifacts.shows_bind ?_ ?_
                · intro m w' hw'
                  exact ⟨hw'.trans hw₁, [_], _, rfl, .thrown hcap hsome, rfl⟩
                · intro artifacts w' hw'
                  exact Prog.shows_done
                    ⟨hw'.trans hw₁, [_], _, rfl, .stepped hcap hsome hres₁ rfl rfl, rfl⟩
    · rw [if_neg hcap]
      by_cases hhandler : o.handlers node.kind = true
      · rw [if_pos hhandler]
        refine (silent_perform rfl).shows_bind ?_ ?_
        · intro m w' hw'
          exact ⟨hw', [], _, rfl, .handlerThrew hhandler, rfl⟩
        · intro workOrder w₁ hw₁
          refine (silent_perform rfl).shows_bind ?_ ?_
          · intro m w' hw'
            exact ⟨hw'.trans hw₁, [], _, rfl, .handlerThrew hhandler, rfl⟩
          · intro result w' hw'
            exact Prog.shows_done ⟨hw'.trans hw₁, [], _, rfl, .handled hhandler, rfl⟩
      · rw [if_neg hhandler]
        exact Prog.shows_done ⟨rfl, [], _, rfl,
          .unhandled (by simpa using hstruct) (by simpa using hcap) (by simpa using hhandler), rfl⟩

/-! ### One round -/

variable {outcome : NodeOutcome} {artifacts : List PlanArtifactRef} {errors : List String}

theorem markNodeRunning_shows (hid : state.planId = plan.planId) {w : World} :
    Prog.Shows (handle P env) (observe plan.planId) (markNodeRunning o state node) w
      fun out w' seen => ∃ now, seen = [.record (runningState state node now).phase] ∧
        match out with
        | .ok r => r = runningState state node now ∧
            w'.planStates plan.planId = some (runningState state node now)
        | .error _ => w'.planStates plan.planId = w.planStates plan.planId ∨
            w'.planStates plan.planId = some (runningState state node now) := by
  have hbind : markNodeRunning o state node
      = (PlanRunner.now o).bind fun now =>
          (perform (.recordPlanState (runningState state node now))).bind .done := by
    simp only [markNodeRunning, Prog.bind_eq, Prog.bind_done]
  rw [hbind]
  refine shows_now fun now w₁ hw₁ => ?_
  have hid' : (runningState state node now).planId = plan.planId := hid
  refine shows_record hid' ?_ ?_
  · intro m w' hw'
    rw [hw₁] at hw'
    exact ⟨now, rfl, hw'⟩
  · intro w' hw'
    exact Prog.shows_done ⟨now, rfl, rfl, hw'⟩

theorem markNode_shows (hid : state.planId = plan.planId) {w : World} :
    Prog.Shows (handle P env) (observe plan.planId)
      (markNode P o plan state node outcome artifacts errors) w
      fun out w' seen => ∃ now,
        seen = [.record (markedState P plan state node outcome artifacts errors now).phase] ∧
        match out with
        | .ok r => r = markedState P plan state node outcome artifacts errors now ∧
            w'.planStates plan.planId
              = some (markedState P plan state node outcome artifacts errors now)
        | .error _ => w'.planStates plan.planId = w.planStates plan.planId ∨
            w'.planStates plan.planId
              = some (markedState P plan state node outcome artifacts errors now) := by
  refine shows_now fun now w₁ hw₁ => ?_
  have hid' : (markedState P plan state node outcome artifacts errors now).planId = plan.planId :=
    hid
  refine shows_record hid' ?_ ?_
  · intro m w' hw'
    rw [hw₁] at hw'
    exact ⟨now, rfl, hw'⟩
  · intro w' hw'
    -- The state is stored; what follows only tells about it.
    refine silent_nodeEvent.shows_bind ?_ fun _ w₂ hw₂ => ?_
    · intro m w₂ hw₂
      exact ⟨now, rfl, Or.inr (hw₂ ▸ hw')⟩
    refine silent_emitArtifacts.shows_bind ?_ fun _ w₃ hw₃ => ?_
    · intro m w₃ hw₃
      exact ⟨now, rfl, Or.inr (hw₃ ▸ hw₂ ▸ hw')⟩
    refine silent_emitPhaseCompleted.shows_bind ?_ fun _ w₄ hw₄ => ?_
    · intro m w₄ hw₄
      exact ⟨now, rfl, Or.inr (hw₄ ▸ hw₃ ▸ hw₂ ▸ hw')⟩
    exact Prog.shows_done ⟨now, rfl, rfl, hw₄ ▸ hw₃ ▸ hw₂ ▸ hw'⟩

/-- Marking a listed node gives it the status of its outcome. -/
theorem markedState_status (hid : node.id ∈ state.ids) {now : String} :
    ∃ ns ∈ (markedState P plan state node outcome artifacts errors now).nodeStates,
      ns.nodeId = node.id ∧ ns.status = outcome.status := by
  obtain ⟨ns, hns, hnid⟩ := List.mem_map.mp hid
  refine ⟨_, List.mem_map.mpr ⟨ns, hns, rfl⟩, ?_⟩
  rw [if_pos hnid]
  exact ⟨hnid, rfl⟩

/-- **One round of the runner is one round of the worker.** -/
theorem runRound_shows (h : state.Fits plan) (hn : node ∈ plan.nodes) {w : World}
    (hw : w.planStates plan.planId = some state) :
    Prog.Shows (handle P env) (observe plan.planId) (runRound P o plan state node outputs) w
      fun out w' seen => ∃ state', w'.planStates plan.planId = some state' ∧ state'.Fits plan ∧
        match out with
        | .error _ => TaskGraph.Round (nodeWork P env o plan) state.phase outputs node.id seen
            state'.phase none
        | .ok r => r.state = state' ∧ ∃ outcome : NodeOutcome,
            TaskGraph.Round (nodeWork P env o plan) state.phase outputs node.id seen state'.phase
              (some (outcome.status.phase, r.outputs)) ∧
            state'.status = nextPlanStatus outcome state'.nodeStates ∧
            ∃ ns ∈ state'.nodeStates, ns.nodeId = node.id ∧ ns.status = outcome.status := by
  have hid := h.mem hn
  refine shows_emitNodeStarted ?_ ?_
  · intro m w' hw'
    rw [phases_of_stored hw]
    exact ⟨state, hw' ▸ hw, h, .announced⟩
  intro w₁ hw₁
  rw [phases_of_stored hw]
  have hw₁' : w₁.planStates plan.planId = some state := hw₁ ▸ hw
  refine Prog.shows_bind ((markNodeRunning_shows h.planId).mono ?_)
  rintro (m | running) w₂ seen₂ ⟨now, rfl, hw₂⟩
  · rw [runningState_phase hid]
    rcases hw₂ with hw₂ | hw₂
    · exact ⟨state, hw₂.trans hw₁', h, .marking (Or.inl rfl)⟩
    · exact ⟨_, hw₂, runningState_fits h, .marking (Or.inr (runningState_phase hid))⟩
  obtain ⟨rfl, hw₂⟩ := hw₂
  rw [runningState_phase hid]
  have hfits : (runningState state node now).Fits plan := runningState_fits h
  refine Prog.shows_bind (workOn_shows.mono ?_)
  rintro (m | work) w₃ seen₃ ⟨hw₃, works, r, rfl, hworked, hr⟩
  · refine ⟨_, hw₃ ▸ hw₂, hfits, ?_⟩
    rw [runningState_phase hid]
    exact .working ⟨node, hn, rfl, r, hworked, by rw [hr]; rfl⟩
  have hw₃' := hw₃ ▸ hw₂
  have hwork : nodeWork P env o plan node.id outputs works
      (some (work.outcome.status.phase, work.outputs)) :=
    ⟨node, hn, rfl, r, hworked, by rw [hr]; rfl⟩
  refine Prog.shows_bind ((markNode_shows hfits.planId).mono ?_)
  rintro (m | marked) w₄ seen₄ ⟨now', rfl, hw₄⟩
  · rw [markedState_running_phase hid]
    rcases hw₄ with hw₄ | hw₄
    · refine ⟨_, hw₄.trans hw₃', hfits, ?_⟩
      rw [runningState_phase hid]
      exact .finishing hwork (Or.inl rfl)
    · refine ⟨_, hw₄, markedState_fits hfits, ?_⟩
      rw [markedState_running_phase hid]
      exact .finishing hwork (Or.inr rfl)
  obtain ⟨rfl, hw₄⟩ := hw₄
  refine Prog.shows_done ⟨_, hw₄, markedState_fits hfits, rfl, work.outcome, ?_, rfl, ?_⟩
  · rw [markedState_running_phase hid, List.append_nil]
    exact .finished hwork
  · exact markedState_status (hfits.mem hn)

/-! ### All rounds -/

/-- The status a state has once a node was marked, by how the run ended. -/
def PlanState.Told (state : PlanState) : Ending → Prop
  | .idle => state.status = if state.allDone then .completed else .running
  | .halted =>
      (state.status = .failed ∧ ∃ ns ∈ state.nodeStates, ns.status = .failed) ∨
        (state.status = .yielded ∧ ∃ ns ∈ state.nodeStates, ns.status = .yielded)
  | .interrupted => False

/-- How a run that returns leaves the plan: in a status that tells, or as it was where
nothing could start. -/
def Ended (start state : PlanState) (ending : Ending) (seen : List (Seen String Value)) : Prop :=
  (seen ≠ [] ∧ state.Told ending) ∨ (ending = .idle ∧ state = start)

variable (P env o plan) in
/-- What rounds from `state` come to: a greedy run, and what they return of it. -/
def RoundsEnd (state : PlanState) (outputs : Outputs)
    (out : Except String PlanRunnerExecutionResult) (w' : World)
    (seen : List (Seen String Value)) : Prop :=
  ∃ state' m' ending, w'.planStates plan.planId = some state' ∧ state'.Fits plan ∧
    TaskGraph.Greedy plan.graph (nodeWork P env o plan) state.phase outputs seen state'.phase m'
      ending ∧
    match out with
    | .error _ => ending = .interrupted
    | .ok r => r.state = state' ∧ r.outputs = m' ∧ Ended state state' ending seen

theorem allDone_ready (hs : plan.Sound) (h : state.Fits plan) (hall : state.allDone = true) :
    plan.graph.ready state.phase = [] := by
  rw [List.eq_nil_iff_forall_not_mem]
  intro id hid
  obtain ⟨hmem, hwait, -⟩ := TaskGraph.mem_ready.mp hid
  have hdone := (PlanState.allDone_iff (h.nodup hs)).mp hall id (h.tasks ▸ hmem)
  rw [hwait] at hdone
  cases hdone

/-- Marking a node either lets the run go on or ends it. -/
theorem marked_cases {state : PlanState} {outcome : NodeOutcome}
    (hstatus : state.status = nextPlanStatus outcome state.nodeStates)
    (hmarked : ∃ ns ∈ state.nodeStates, ns.nodeId = node.id ∧ ns.status = outcome.status) :
    (outcome.status.phase = .done ∧ state.Told .idle) ∨
      (outcome.status.phase = .halted ∧ ends state.status = true ∧ state.Told .halted) := by
  obtain ⟨ns, hns, -, hnstatus⟩ := hmarked
  cases outcome with
  | completed => exact Or.inl ⟨rfl, hstatus⟩
  | skipped => exact Or.inl ⟨rfl, hstatus⟩
  | failed =>
      refine Or.inr ⟨rfl, ?_, Or.inl ⟨hstatus, ns, hns, hnstatus⟩⟩
      rw [hstatus]
      rfl
  | yielded =>
      refine Or.inr ⟨rfl, ?_, Or.inr ⟨hstatus, ns, hns, hnstatus⟩⟩
      rw [hstatus]
      rfl

/-- **The rounds are a greedy run**, however many of them are allowed, as long as every
waiting node could have one. -/
theorem runRounds_shows (hs : plan.Sound) {k : Nat} (h : state.Fits plan)
    (hk : plan.graph.waitingCount state.phase < k) {w : World}
    (hw : w.planStates plan.planId = some state) :
    Prog.Shows (handle P env) (observe plan.planId) (runRounds P o plan k state outputs) w
      (RoundsEnd P env o plan state outputs) := by
  induction k generalizing state outputs w with
  | zero => omega
  | succ k ih =>
      unfold runRounds
      cases hready : readyNodes plan state with
      | nil =>
          have hidle := (ready_eq_nil_iff hs h).mp hready
          exact Prog.shows_done ⟨state, _, _, hw, h, .idle hidle, rfl, rfl, Or.inr ⟨rfl, rfl⟩⟩
      | cons node rest =>
          have hg := ready_of_readyNodes hs h hready
          have hn : node ∈ plan.nodes := mem_of_readyNodes (hready ▸ List.mem_cons_self)
          refine Prog.shows_bind ((runRound_shows h hn hw).mono ?_)
          rintro (m | r) w₁ seen₁ ⟨state₁, hw₁, h₁, hround⟩
          · exact ⟨state₁, _, _, hw₁, h₁, .interrupted hg hround, rfl⟩
          obtain ⟨rfl, outcome, hround, hstatus, hmarked⟩ := hround
          dsimp only
          -- What is seen of a round is not nothing, whatever follows it.
          have hne : ∀ rest, seen₁ ++ rest ≠ [] := by
            obtain ⟨tail, rfl⟩ := hround.head
            simp
          rcases marked_cases hstatus hmarked with ⟨hp, htold⟩ | ⟨hp, hends, htold⟩
          · rw [hp] at hround
            by_cases hall : r.state.allDone = true
            · -- Every node is done: the run ends, and it would idle anyway.
              have hst : r.state.status = .completed := by
                rw [show r.state.status = _ from htold, if_pos hall]
              rw [hst, if_pos (by decide)]
              refine Prog.shows_done ⟨r.state, _, _, hw₁, h₁, ?_, rfl, rfl, Or.inl ⟨hne _, htold⟩⟩
              exact .next hg hround (.idle (allDone_ready hs h₁ hall))
            · have hst : r.state.status = .running := by
                rw [show r.state.status = _ from htold, if_neg hall]
              rw [hst, if_neg (by decide)]
              have hless : plan.graph.waitingCount r.state.phase < k := by
                obtain ⟨hmem, hwait, -⟩ := TaskGraph.mem_ready.mp (hg ▸ List.mem_cons_self)
                have hlt := TaskGraph.waitingCount_update_lt (p := .done) hmem hwait (by simp)
                rw [← hround.finished_phases] at hlt
                omega
              refine (ih h₁ hless hw₁).mono ?_
              rintro out w' seen ⟨state', m', ending, hw', h', hgreedy, hout⟩
              refine ⟨state', m', ending, hw', h', .next hg hround hgreedy, ?_⟩
              cases out with
              | error m => exact hout
              | ok r' =>
                  obtain ⟨hr, hm, hend⟩ := hout
                  refine ⟨hr, hm, Or.inl ⟨hne _, ?_⟩⟩
                  rcases hend with ⟨-, hend⟩ | ⟨rfl, rfl⟩
                  · exact hend
                  · exact htold
          · rw [hends, if_pos rfl]
            refine Prog.shows_done ⟨r.state, _, _, hw₁, h₁, ?_, rfl, rfl, Or.inl ⟨hne _, htold⟩⟩
            rw [List.append_nil]
            refine .halted hg hround ?_
            rw [hp]
            simp

/-! ### A run to completion -/

/-- An accepted plan is the given one with its digest, and the checks found nothing. -/
theorem accept_ok {planfile : Planfile} (h : accept P o planfile = .ok plan) :
    plan = withCanonicalPlanDigest P.sha256 planfile ∧
      (validatePlanfile P (some o.capabilitySnapshot) plan).ok = true := by
  unfold accept at h
  split at h
  · dsimp only at h
    split at h
    · rename_i hvalid
      cases h
      exact ⟨rfl, hvalid⟩
    · cases h
  · cases h

theorem accept_valid {planfile : Planfile} (href : planfile.refined P.isDatetime = true)
    (hvalid : (validatePlanfile P (some o.capabilitySnapshot)
      (withCanonicalPlanDigest P.sha256 planfile)).ok = true) :
    accept P o planfile = .ok (withCanonicalPlanDigest P.sha256 planfile) := by
  unfold accept
  rw [if_pos href]
  dsimp only
  rw [if_pos hvalid]

theorem accept_sound {planfile : Planfile} (h : accept P o planfile = .ok plan) : plan.Sound :=
  sound_of_valid (accept_ok h).2

/-- An accepted plan is accepted again. -/
theorem accept_accepted {planfile : Planfile} (h : accept P o planfile = .ok plan) :
    accept P o plan = .ok plan := by
  obtain ⟨hplan, hvalid⟩ := accept_ok h
  have hagain : withCanonicalPlanDigest P.sha256 plan = plan := by
    rw [hplan]
    rfl
  have href : plan.refined P.isDatetime = true := by
    by_contra hnot
    unfold validatePlanfile at hvalid
    rw [if_neg hnot] at hvalid
    cases hvalid
  rw [accept_valid href (hagain.symm ▸ hvalid), hagain]

/-- How a run finds the state it starts from: stored, or recorded afresh. -/
inductive Opens (P : Platform) (plan : Planfile) (stored : Option PlanState) :
    List (Seen String Value) → PlanState → Prop
  | stored {found} (h : stored = some found) : Opens P plan stored [] found
  | fresh {now} (h : stored = none) :
      Opens P plan stored [.record (initialPlanState P plan now).phase]
        (initialPlanState P plan now)

/-- What a run to completion comes to when `stored` was the state of its plan. -/
inductive RunEnd (P : Platform) (env : Env) (o : PlanRunnerOptions) (plan : Planfile)
    (stored : Option PlanState) :
    Except String PlanRunnerExecutionResult → World → List (Seen String Value) → Prop
  | unloaded {m w' seen} (hstored : stored = none) (hw : w'.planStates plan.planId = none)
      (hseen : seen = [] ∨ ∃ now, seen = [.record (initialPlanState P plan now).phase]) :
      RunEnd P env o plan stored (.error m) w' seen
  | ran {pre start main out w' state' m' ending} (hopen : Opens P plan stored pre start)
      (hw : w'.planStates plan.planId = some state') (hfits : state'.Fits plan)
      (hg : TaskGraph.Greedy plan.graph (nodeWork P env o plan) start.phase Outputs.empty main
        state'.phase m' ending)
      (hout : ∀ r, out = .ok r → r.state = state' ∧ r.outputs = m' ∧
        Ended start state' ending main) :
      RunEnd P env o plan stored out w' (pre ++ main)

theorem waitingCount_lt : plan.graph.waitingCount state.phase < plan.nodes.length + 2 := by
  have hle := plan.graph.waitingCount_le state.phase
  have hlen : plan.graph.tasks.length = plan.nodes.length := by simp [Planfile.graph]
  omega

variable {stored : Option PlanState} {pre : List (Seen String Value)} {w : World}

/-- What follows the opening of a run. -/
theorem opened_shows (hs : plan.Sound) (h : state.Fits plan)
    (hw : w.planStates plan.planId = some state) (hopen : Opens P plan stored pre state) :
    Prog.Shows (handle P env) (observe plan.planId)
      ((emit o plan .runStarted).bind fun _ =>
        (runRounds P o plan (plan.nodes.length + 2) state Outputs.empty).bind fun result =>
          (announceEnd o plan result.state).bind fun _ => .done result) w
      fun out w' seen => RunEnd P env o plan stored out w' (pre ++ seen) := by
  refine (silent_emit (by simp)).shows_bind ?_ ?_
  · intro m w₁ hw₁
    exact .ran hopen (hw₁ ▸ hw) h .stopped (by simp)
  intro _ w₁ hw₁
  refine Prog.shows_bind ((runRounds_shows hs h waitingCount_lt (hw₁ ▸ hw)).mono ?_)
  rintro (m | r) w₂ seen ⟨state', m', ending, hw₂, h', hg, hout⟩
  · exact .ran hopen hw₂ h' hg (by simp)
  refine silent_announceEnd.shows_bind ?_ ?_
  · intro m w₃ hw₃
    rw [List.append_nil]
    exact .ran hopen (hw₃ ▸ hw₂) h' hg (by simp)
  · intro _ w₃ hw₃
    refine Prog.shows_done ?_
    rw [List.append_nil]
    refine .ran hopen (hw₃ ▸ hw₂) h' hg ?_
    rintro _ ⟨⟩
    exact hout

/-- A fresh state is recorded before it is used. -/
theorem load_shows {β : Type} {f : PlanState → Program β} {planfile : Planfile}
    (hacc : accept P o planfile = .ok plan) (hw : w.planStates plan.planId = none)
    {post : Except String β → World → List (Seen String Value) → Prop}
    (herr : ∀ m now w', w'.planStates plan.planId = none →
      post (.error m) w' [.record (initialPlanState P plan now).phase])
    (herr' : ∀ m now w', w'.planStates plan.planId = some (initialPlanState P plan now) →
      post (.error m) w' [.record (initialPlanState P plan now).phase])
    (hok : ∀ now w', w'.planStates plan.planId = some (initialPlanState P plan now) →
      Prog.Shows (handle P env) (observe plan.planId) (f (initialPlanState P plan now)) w'
        fun out w'' seen => post out w'' (.record (initialPlanState P plan now).phase :: seen)) :
    Prog.Shows (handle P env) (observe plan.planId) ((load P o planfile).bind f) w post := by
  unfold load
  rw [hacc]
  simp only [Prog.bind_eq, Prog.pure_eq, Prog.bind_assoc, Prog.done_bind]
  refine shows_now fun now w₁ hw₁ => ?_
  have hid : (initialPlanState P plan now).planId = plan.planId := rfl
  refine shows_record hid ?_ ?_
  · intro m w₂ hw₂
    rcases hw₂ with hw₂ | hw₂
    · refine herr m now w₂ ?_
      rw [hw₂, hw₁]
      exact hw
    · exact herr' m now w₂ hw₂
  · intro w₂ hw₂
    refine (silent_emit (by simp)).shows_bind ?_ ?_
    · intro m w₃ hw₃
      exact herr' m now w₃ (hw₃ ▸ hw₂)
    · intro _ w₃ hw₃
      exact hok now w₃ (hw₃ ▸ hw₂)

/-- **A run to completion is a greedy run** from the state it finds or records. -/
theorem runToCompletion_shows {planfile : Planfile} (hacc : accept P o planfile = .ok plan)
    (hfits : ∀ state, w.planStates plan.planId = some state → state.Fits plan) :
    Prog.Shows (handle P env) (observe plan.planId) (runToCompletion P o planfile) w
      (RunEnd P env o plan (w.planStates plan.planId)) := by
  have hs := accept_sound hacc
  unfold runToCompletion
  rw [hacc]
  simp only [Prog.bind_eq, Prog.pure_eq, storedOrLoad, Prog.bind_assoc]
  refine Prog.shows_bind (Prog.shows_perform ?_)
  have hw₁ : (handle P env (.getPlanState plan.planId) w).2.planStates = w.planStates :=
    handle_planStates _ _ (by simp)
  cases hout : (handle P env (.getPlanState plan.planId) w).1 with
  | error m =>
      cases hstored : w.planStates plan.planId with
      | none => exact .unloaded rfl (by rw [hw₁, hstored]) (Or.inl rfl)
      | some state =>
          have hstart : Opens P plan (some state) [] state := .stored rfl
          exact .ran hstart (by rw [hw₁, hstored]) (hfits state hstored) .stopped (by simp)
  | ok found =>
      have hfound : found = w.planStates plan.planId := by
        have hserved := (handle_ok hout).1
        exact (Except.ok.inj hserved).symm
      rw [hfound]
      cases hstored : w.planStates plan.planId with
      | some state =>
          exact opened_shows hs (hfits state hstored) (by rw [hw₁, hstored]) (.stored rfl)
      | none =>
          refine load_shows (accept_accepted hacc) (by rw [hw₁, hstored]) ?_ ?_ ?_
          · intro m now w' hw'
            exact .unloaded rfl hw' (Or.inr ⟨now, rfl⟩)
          · intro m now w' hw'
            have hopen : Opens P plan none [.record (initialPlanState P plan now).phase]
                (initialPlanState P plan now) := .fresh rfl
            have hend : RunEnd P env o plan none (.error m) w'
                ([.record (initialPlanState P plan now).phase] ++ []) :=
              .ran hopen hw' initialPlanState_fits .stopped (by simp)
            exact hend
          · intro now w' hw'
            exact opened_shows hs initialPlanState_fits hw' (.fresh rfl)

/-! ### Every recorded state lists the nodes of the plan -/

/-- A call that records no state that does not fit. -/
def Call.fits (plan : Planfile) (call : Call) : Prop :=
  ∀ state, call = .recordPlanState state → state.Fits plan

/-- What the calls about plan states answer, when the stored state fits. -/
def Answer.fits (plan : Planfile) : (call : Call) → Answer call → Prop
  | .getPlanState id, found => id = plan.planId → ∀ state, found = some state → state.Fits plan
  | .recordPlanState state, recorded => recorded = state
  | _, _ => True

/-- The stored state of the plan fits it. -/
def World.Fits (plan : Planfile) (w : World) : Prop :=
  ∀ state, w.planStates plan.planId = some state → state.Fits plan

/-- Every state the program records fits, and so does what it returns, as `Q` says. -/
abbrev Fitting (plan : Planfile) {α : Type} (Q : α → Prop) (p : Program α) : Prop :=
  Prog.Obeys (Call.fits plan) (Answer.fits plan) Q p

theorem keeps_fits : Prog.Keeps (handle P env) (Call.fits plan) (Answer.fits plan)
    (World.Fits plan) where
  state call w hcall hw := by
    by_cases hrec : ∃ state, call = .recordPlanState state
    · obtain ⟨recorded, rfl⟩ := hrec
      have hfits := hcall recorded rfl
      intro found hfound
      have hworld : (handle P env (.recordPlanState recorded) w).2
          = (w.setPlanState recorded).next ∨
            (handle P env (.recordPlanState recorded) w).2 = w.next := handle_world _ w
      rcases hworld with h | h
      · rw [h, World.next_planStates] at hfound
        simp only [World.setPlanState, hfits.planId, Function.update_self, Option.some.injEq] at hfound
        exact hfound ▸ hfits
      · rw [h] at hfound
        exact hw found hfound
    · intro found hfound
      rw [handle_planStates call w fun state he => hrec ⟨state, he⟩] at hfound
      exact hw found hfound
  answer call w a _ hw ha := by
    have hserved := (handle_ok ha).1
    cases call with
    | getPlanState id =>
        rintro rfl found rfl
        exact hw found (Except.ok.inj hserved)
    | recordPlanState recorded => exact (Except.ok.inj hserved).symm
    | _ => trivial

theorem Silent.fitting {α : Type} {p : Program α} (hp : Silent p) :
    Fitting plan (fun _ => True) p := by
  refine Prog.Obeys.mono hp ?_ (fun _ _ _ => trivial) (fun _ h => h)
  rintro call hcall recorded rfl
  cases hcall

theorem Silent.fitting_bind {α β : Type} {p : Program α} {f : α → Program β} {Q : β → Prop}
    (hp : Silent p) (hf : ∀ a, Fitting plan Q (f a)) : Fitting plan Q (p.bind f) :=
  Prog.obeys_bind hp.fitting fun a _ => hf a

theorem fitting_record {recorded : PlanState} (h : recorded.Fits plan) :
    Fitting plan (fun s => s.Fits plan) (perform (.recordPlanState recorded)) := by
  refine Prog.obeys_perform ?_ ?_
  · rintro _ ⟨⟩
    exact h
  · intro answer hanswer
    have heq : answer = recorded := hanswer
    exact heq ▸ h

theorem markNodeRunning_fitting (h : state.Fits plan) :
    Fitting plan (fun s => s.Fits plan) (markNodeRunning o state node) :=
  silent_now.fitting_bind fun _ => fitting_record (runningState_fits h)

theorem markNode_fitting (h : state.Fits plan) :
    Fitting plan (fun s => s.Fits plan)
      (markNode P o plan state node outcome artifacts errors) := by
  refine silent_now.fitting_bind fun now => Prog.obeys_bind (fitting_record (markedState_fits h)) ?_
  intro recorded hrec
  exact silent_nodeEvent.fitting_bind fun _ => silent_emitArtifacts.fitting_bind fun _ =>
    silent_emitPhaseCompleted.fitting_bind fun _ => Prog.obeys_done hrec

theorem workOn_fitting : Fitting plan (fun _ => True) (workOn P o plan state node outputs) := by
  have hstep : ∀ runId input, Fitting plan (fun _ => True)
      (perform (.runCapabilityStep runId input)) := by
    intro runId input
    refine Prog.obeys_perform ?_ (fun _ _ => trivial)
    rintro recorded ⟨⟩
  unfold workOn
  split
  · exact Prog.obeys_done trivial
  · split
    · refine Prog.obeys_bind (Q := fun _ => True) ?_ fun result _ => ?_
      · unfold runCapabilityNode
        dsimp only
        split
        · exact Prog.obeys_fail
        · split
          · exact Prog.obeys_fail
          · exact hstep _ _
      · exact silent_stepArtifacts.fitting_bind fun _ => Prog.obeys_done trivial
    · split
      · exact (silent_perform rfl).fitting_bind fun _ => (silent_perform rfl).fitting_bind fun _ =>
          Prog.obeys_done trivial
      · exact Prog.obeys_done trivial

theorem emitNodeStarted_fitting : Fitting plan (fun _ => True) (emitNodeStarted o plan node) := by
  have hcall : ∀ listener, Fitting plan (fun _ => True)
      (perform (.emitRunEvent listener plan.planId (.nodeStarted (nodeBase plan node)))) := by
    intro listener
    refine Prog.obeys_perform ?_ (fun _ _ => trivial)
    rintro recorded ⟨⟩
  refine Prog.obeys_bind (Q := fun _ => True) ?_ fun _ _ => silent_emitPhaseStarted.fitting
  unfold emit
  split
  · exact hcall none
  · exact silent_now.fitting_bind fun _ => hcall _

theorem runRound_fitting (h : state.Fits plan) :
    Fitting plan (fun r => r.state.Fits plan) (runRound P o plan state node outputs) := by
  refine Prog.obeys_bind emitNodeStarted_fitting fun _ _ => ?_
  refine Prog.obeys_bind (markNodeRunning_fitting h) fun running hrunning => ?_
  refine Prog.obeys_bind workOn_fitting fun work _ => ?_
  exact Prog.obeys_bind (markNode_fitting hrunning) fun marked hmarked => Prog.obeys_done hmarked

theorem runRounds_fitting {k : Nat} (h : state.Fits plan) :
    Fitting plan (fun r => r.state.Fits plan) (runRounds P o plan k state outputs) := by
  induction k generalizing state outputs with
  | zero => exact Prog.obeys_done h
  | succ k ih =>
      unfold runRounds
      split
      · exact Prog.obeys_done h
      · refine Prog.obeys_bind (runRound_fitting h) fun r hr => ?_
        split
        · exact Prog.obeys_done hr
        · exact ih hr

theorem load_fitting {planfile : Planfile} (hacc : accept P o planfile = .ok plan) :
    Fitting plan (fun s => s.Fits plan) (load P o planfile) := by
  unfold load
  rw [hacc]
  refine silent_now.fitting_bind fun now => ?_
  refine Prog.obeys_bind (fitting_record initialPlanState_fits) fun recorded hrec => ?_
  exact (silent_emit (by simp)).fitting_bind fun _ => Prog.obeys_done hrec

theorem storedOrLoad_fitting (hacc : accept P o plan = .ok plan) :
    Fitting plan (fun s => s.Fits plan) (storedOrLoad P o plan) := by
  refine Prog.obeys_bind (Q := fun found => ∀ state, found = some state → state.Fits plan) ?_ ?_
  · refine Prog.obeys_perform ?_ fun found hfound => hfound rfl
    rintro recorded ⟨⟩
  · intro found hfound
    cases found with
    | some state => exact Prog.obeys_done (hfound state rfl)
    | none => exact load_fitting hacc

/-- **Every state a run to completion records lists exactly the nodes of the plan.** -/
theorem runToCompletion_fitting {planfile : Planfile} (hacc : accept P o planfile = .ok plan) :
    Fitting plan (fun r => r.state.Fits plan) (runToCompletion P o planfile) := by
  unfold runToCompletion
  rw [hacc]
  refine Prog.obeys_bind (storedOrLoad_fitting (accept_accepted hacc)) fun state h => ?_
  refine (silent_emit (by simp)).fitting_bind fun _ => ?_
  refine Prog.obeys_bind (runRounds_fitting h) fun r hr => ?_
  exact silent_announceEnd.fitting_bind fun _ => Prog.obeys_done hr

/-! ### A sample to run -/

/-- A digest, which is all the sample needs of SHA-256. -/
def sampleDigest : String := "e3b0c44298fc1c149afbf4c8996fb92427ae41e4649b934ca495991b7852b855"

def samplePlatform : Platform where
  sha256 := fun _ => sampleDigest
  localeCompare := compare
  isDatetime := fun _ => true
  schemaIssues := fun _ => []
  renderPlanfileMarkdown := fun plan => plan.planId
  registry := ⟨[]⟩

def sampleNode (id : String) (kind : PlanNodeKind) (dependsOn : List String) : PlanNode where
  id
  kind
  title := id
  objective := id
  description := ""
  dependsOn
  allowedCapabilityRefs := []
  executionMode := none
  expectedOutputs := []
  acceptanceRefs := []
  riskLevel := .read
  approvalRequired := false
  status := .pending
  artifacts := []
  errors := []
  optional := none
  verificationCommandIds := none

def samplePlan (nodes : List PlanNode) : Planfile where
  planId := "plan"
  goalFrame :=
    ⟨"goal", "prompt", "goal", [], [], [], .low, [], false, .dryRun, [], "2026-01-01T00:00:00Z"⟩
  mode := .dryRun
  status := .draft
  nodes
  edges := []
  approvalPolicy := ⟨[], none, none⟩
  verificationPolicy := ⟨[]⟩
  executionContext := none
  requirements := none
  lifecycle := none
  artifactRefs := []
  createdAt := "2026-01-01T00:00:00Z"
  updatedAt := "2026-01-01T00:00:00Z"
  canonicalPlanDigest := none

/-- Nothing fails, and there is no workflow engine. -/
def sampleEnv : Env where
  fault := fun _ => .none
  clock := fun _ => "2026-01-01T00:00:00Z"
  anHourFromNow := fun _ => "2026-01-01T01:00:00Z"
  runCapabilityStep := fun _ _ => ⟨[], .error "There is no such capability."⟩
  handleNode := fun _ _ _ _ _ => .ok ⟨.completed, none, none⟩
  recordedArtifacts := fun _ => []
  submitWorkflow := fun _ _ => .error "Hatchet is not configured."

def sampleOptions : PlanRunnerOptions where
  capabilitySnapshot := ⟨"caps", "2026-01-01T00:00:00Z", "", []⟩
  handlers := fun _ => false
  registry := none
  delegationContext := none
  runId := none
  emitRunEvent := false
  now := none

/-- Two frame nodes, one after the other. -/
def sampleChain : Planfile :=
  samplePlan [sampleNode "first" .frame [], sampleNode "second" .frame ["first"]]

end OpenLagrange
