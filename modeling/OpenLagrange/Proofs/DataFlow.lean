/-
When every reference finds the output it refers to.

The runner goes through a plan in one order: always the first node in listing order whose
dependencies are done.  What a node's input refers to plays no part in it.  So a reference finds
the output of another node when that node runs a capability and comes earlier in this order, and
otherwise it silently becomes nothing.

Everything here is about the calls of a run, with the states they are made in: the steps that
answered, and the plan states that were recorded before the next one.
-/
import OpenLagrange.Proofs.TamperDetection

namespace OpenLagrange

open PlanRunner

/-! ### The order of a run -/

/-- The node after these: the first in listing order that has all it depends on. -/
def nextNode (plan : Planfile) (done : List String) : Option PlanNode :=
  plan.nodes.find? fun node => node.id ∉ done ∧ ∀ dependency ∈ node.dependsOn, dependency ∈ done

/-- The capability step of the node can be run. -/
def StepCanRun (P : Platform) (o : PlanRunnerOptions) (node : PlanNode) : Prop :=
  canRunCapabilityStep node = true ∧ (resolvedCapability P o node).isSome = true ∧
    o.delegationContext.isSome = true

/-- The run can come past the node. -/
def CanComplete (P : Platform) (o : PlanRunnerOptions) (node : PlanNode) : Prop :=
  canCompleteStructuralNode node = true ∨ StepCanRun P o node ∨
    canRunCapabilityStep node = false ∧ o.handlers node.kind = true

/-- A run can come past these nodes, in this order. -/
inductive Passed (P : Platform) (o : PlanRunnerOptions) (plan : Planfile) : List String → Prop
  | start : Passed P o plan []
  | next {done : List String} {node : PlanNode} (hpassed : Passed P o plan done)
      (hnext : nextNode plan done = some node) (hcan : CanComplete P o node) :
      Passed P o plan (done ++ [node.id])

/-- **The references are covered.**  Whenever a run can come to a node and run its capability, each
node that its input refers to runs a capability and is among the ones it came past. -/
def ReferencesCovered (P : Platform) (o : PlanRunnerOptions) (plan : Planfile) : Prop :=
  ∀ done node, Passed P o plan done → nextNode plan done = some node → StepCanRun P o node →
    ∀ id ∈ templateRefs (nodeInput plan node.id),
      id ∈ done ∧ ∃ earlier ∈ plan.nodes, earlier.id = id ∧ canRunCapabilityStep earlier = true

/-! ### What is recorded of a node -/

/-- What the calls about plan states answer. -/
def Echoes : (call : Call) → Answer call → Prop
  | .recordPlanState state, recorded => recorded = state
  | _, _ => True

def Call.runsStep : Call → Bool
  | .runCapabilityStep _ _ => true
  | _ => false

section Flow

variable (P : Platform) (env : Env) (plan : Planfile)

/-- The node has completed with this output: its step answered with success, and a state in which
it is done was recorded. -/
def CompletedWith (calls : List (World × Call)) (id : String) (output : Value) : Prop :=
  (∃ c ∈ calls, ∃ runId input result, c.2 = .runCapabilityStep runId input ∧ input.nodeId = id ∧
    (handle P env (.runCapabilityStep runId input) c.1).1 = .ok result ∧ result.status = .success ∧
    result.output = output) ∧
  ∃ c ∈ calls, ∃ state, c.2 = .recordPlanState state ∧ state.done id = true

/-- The input of a step comes from what was recorded: every node it refers to has completed, and
its references are resolved from the output that was kept of that node. -/
def Flows (before : List (World × Call)) (input : CapabilityStepInput) : Prop :=
  ∃ outputs : Outputs, input.input = resolveTemplates outputs (nodeInput plan input.nodeId) ∧
    ∀ id ∈ templateRefs (nodeInput plan input.nodeId), ∃ output,
      CompletedWith P env before id output ∧ outputs id = keepOutput Outputs.empty id output id

/-- Every step of these calls gets its input from what was recorded before it. -/
def FlowsAfter (before calls : List (World × Call)) : Prop :=
  ∀ front c back, calls = front ++ c :: back → ∀ runId input, c.2 = .runCapabilityStep runId input →
    Flows P env plan (before ++ front) input

end Flow

variable {P : Platform} {env : Env} {o : PlanRunnerOptions} {plan : Planfile} {state : PlanState}
  {node : PlanNode} {outputs : Outputs} {calls : List (World × Call)} {id : String} {output : Value}
  {w : World} {done : List String}

theorem CompletedWith.mono {calls' : List (World × Call)} (h : CompletedWith P env calls id output)
    (hsub : calls ⊆ calls') : CompletedWith P env calls' id output := by
  obtain ⟨⟨c, hc, hstep⟩, c', hc', hrecord⟩ := h
  exact ⟨⟨c, hsub hc, hstep⟩, c', hsub hc', hrecord⟩

theorem flowsAfter_nil {before : List (World × Call)} : FlowsAfter P env plan before [] := by
  intro front c back hsplit
  simp at hsplit

theorem flowsAfter_stepless {before : List (World × Call)}
    (h : ∀ c ∈ calls, c.2.runsStep = false) : FlowsAfter P env plan before calls := by
  rintro front c back rfl runId input hc
  have hstep := h c (List.mem_append_right _ List.mem_cons_self)
  rw [hc] at hstep
  cases hstep

theorem FlowsAfter.append {before calls' : List (World × Call)}
    (h : FlowsAfter P env plan before calls) (h' : FlowsAfter P env plan (before ++ calls) calls') :
    FlowsAfter P env plan before (calls ++ calls') := by
  intro front c back hsplit runId input hc
  rcases List.append_eq_append_iff.mp hsplit with ⟨front', rfl, hrest⟩ | ⟨back', hcalls, hrest⟩
  · have hflows := h' front' c back hrest runId input hc
    rwa [List.append_assoc] at hflows
  · cases back' with
    | nil =>
        rw [List.append_nil] at hcalls
        subst hcalls
        have hflows := h' [] c back (by simpa using hrest.symm) runId input hc
        rwa [List.append_nil] at hflows
    | cons c' back' =>
        rw [List.cons_append] at hrest
        obtain ⟨rfl, -⟩ := List.cons.inj hrest
        exact h front c back' hcalls runId input hc

/-! ### One round -/

variable (P env) in
theorem keeps_echoes {φ : Call → Prop} :
    Prog.Keeps (handle P env) φ Echoes fun _ => True where
  state _ _ _ _ := trivial
  answer call w a _ _ ha := by
    cases call with
    | recordPlanState state =>
        have hserved := (handle_ok ha).1
        exact (Except.ok.inj hserved).symm
    | _ => trivial

/-- A program that runs no step, and returns within `Q`. -/
abbrev Stepless {α : Type} (Q : α → Prop) (program : Program α) : Prop :=
  Prog.Obeys (fun call => call.runsStep = false) Echoes Q program

/-- All calls are looked at. -/
abbrev Traces (P : Platform) (env : Env) {α : Type} (program : Program α) (w : World)
    (post : Except String α → World → List (World × Call) → Prop) : Prop :=
  Prog.Shows (handle P env) some program w post

theorem stepless_traces {α : Type} {Q : α → Prop} {program : Program α} (hp : Stepless Q program) :
    Traces P env program w fun out _ seen =>
      (∀ c ∈ seen, c.2.runsStep = false) ∧ ∀ a, out = .ok a → Q a := by
  obtain ⟨-, hcalls, hout⟩ := hp.exec (keeps_echoes P env) (s := w) trivial
  unfold Traces Prog.Shows
  rw [List.filterMap_some]
  exact ⟨fun c hc => (hcalls c hc).2, hout⟩

theorem stepless_bind {α β : Type} {Q : α → Prop} {program : Program α} {f : α → Program β}
    {post : Except String β → World → List (World × Call) → Prop} (hp : Stepless Q program)
    (herr : ∀ m w' seen, (∀ c ∈ seen, c.2.runsStep = false) → post (.error m) w' seen)
    (hok : ∀ a w' seen, (∀ c ∈ seen, c.2.runsStep = false) → Q a →
      Traces P env (f a) w' fun out w'' seen' => post out w'' (seen ++ seen')) :
    Traces P env (program.bind f) w post := by
  refine Prog.shows_bind ((stepless_traces hp).mono ?_)
  rintro (m | a) w' seen ⟨hseen, hout⟩
  · exact herr m w' seen hseen
  · exact hok a w' seen hseen (hout a rfl)

theorem stepless_perform {call : Call} {Q : Answer call → Prop} (hcall : call.runsStep = false)
    (hQ : ∀ a, Echoes call a → Q a) : Stepless Q (perform call) :=
  Prog.obeys_perform hcall hQ

theorem Silent.stepless {α : Type} {p : Program α} (hp : Silent p) : Stepless (fun _ => True) p :=
  hp.mono
    (fun call hcall => by
      cases call with
      | runCapabilityStep runId input => cases hcall
      | _ => rfl)
    (fun _ _ _ => trivial) fun _ _ => trivial

theorem stepless_emitNodeStarted : Stepless (fun _ => True) (emitNodeStarted o plan node) := by
  refine Prog.obeys_bind (Q := fun _ => True) ?_ fun _ _ => silent_emitPhaseStarted.stepless
  unfold emit
  cases listener o with
  | none => exact stepless_perform rfl fun _ _ => trivial
  | some runId =>
      exact Prog.obeys_bind silent_now.stepless fun _ _ => stepless_perform rfl fun _ _ => trivial

theorem stepless_markNodeRunning :
    Stepless (fun running => ∃ now, running = runningState state node now)
      (markNodeRunning o state node) := by
  refine Prog.obeys_bind silent_now.stepless fun now _ => ?_
  exact stepless_perform rfl fun recorded hrecorded => ⟨now, hrecorded⟩

/-- How a node was worked on, as far as its output goes. -/
inductive Worked (P : Platform) (env : Env) (o : PlanRunnerOptions) (plan : Planfile)
    (node : PlanNode) (outputs : Outputs) (seen : List (World × Call)) : NodeOutcome → Outputs → Prop
  | structural (h : canCompleteStructuralNode node = true) :
      Worked P env o plan node outputs seen .completed outputs
  | stepped {c runId input result} (h : StepCanRun P o node) (hc : c ∈ seen)
      (hcall : c.2 = .runCapabilityStep runId input) (hid : input.nodeId = node.id)
      (hanswer : (handle P env (.runCapabilityStep runId input) c.1).1 = .ok result) :
      Worked P env o plan node outputs seen (planStatusFromStep result.status)
        (keepOutput outputs node.id result.output)
  | handled {tick workOrder running result} (h : canRunCapabilityStep node = false)
      (hhandler : o.handlers node.kind = true)
      (hanswer : env.handleNode tick workOrder plan node running = .ok result) :
      Worked P env o plan node outputs seen result.status outputs
  | unhandled (hstruct : canCompleteStructuralNode node = false)
      (h : canRunCapabilityStep node = false) (hhandler : o.handlers node.kind = false) :
      Worked P env o plan node outputs seen .yielded outputs

theorem Worked.mono {seen seen' : List (World × Call)} {outcome : NodeOutcome} {outputs' : Outputs}
    (h : Worked P env o plan node outputs seen outcome outputs') (hsub : seen ⊆ seen') :
    Worked P env o plan node outputs seen' outcome outputs' := by
  cases h with
  | structural h => exact .structural h
  | stepped h hc hcall hid hanswer => exact .stepped h (hsub hc) hcall hid hanswer
  | handled h hhandler hanswer => exact .handled h hhandler hanswer
  | unhandled hstruct h hhandler => exact .unhandled hstruct h hhandler

/-- The steps among these calls are the one step of a node, run with these outputs. -/
def StepsOf (P : Platform) (o : PlanRunnerOptions) (plan : Planfile) (node : PlanNode)
    (outputs : Outputs) (seen : List (World × Call)) : Prop :=
  ∀ c ∈ seen, ∀ runId input, c.2 = .runCapabilityStep runId input →
    StepCanRun P o node ∧ input.nodeId = node.id ∧ input.input = resolvedInput plan node outputs

theorem stepsOf_stepless {seen : List (World × Call)} (h : ∀ c ∈ seen, c.2.runsStep = false) :
    StepsOf P o plan node outputs seen := by
  intro c hc runId input hcall
  have hstep := h c hc
  rw [hcall] at hstep
  cases hstep

theorem stepsOf_nil : StepsOf P o plan node outputs [] := by
  intro c hc
  cases hc

theorem StepsOf.append {seen seen' : List (World × Call)} (h : StepsOf P o plan node outputs seen)
    (h' : StepsOf P o plan node outputs seen') : StepsOf P o plan node outputs (seen ++ seen') := by
  intro c hc
  rcases List.mem_append.mp hc with hc | hc
  · exact h c hc
  · exact h' c hc

theorem canRun_not_structural (h : canCompleteStructuralNode node = true) :
    canRunCapabilityStep node = false := by
  unfold canCompleteStructuralNode at h
  unfold canRunCapabilityStep
  have hframe := of_decide_eq_true h
  simp [hframe.1]

theorem workOn_traces :
    Traces P env (workOn P o plan state node outputs) w fun out _ seen =>
      StepsOf P o plan node outputs seen ∧
        ∀ work, out = .ok work → Worked P env o plan node outputs seen work.outcome work.outputs := by
  unfold workOn
  by_cases hstruct : canCompleteStructuralNode node = true
  · rw [if_pos hstruct]
    refine Prog.shows_done ⟨stepsOf_nil, ?_⟩
    rintro _ ⟨⟩
    exact .structural hstruct
  rw [if_neg hstruct]
  by_cases hcap : canRunCapabilityStep node = true
  · rw [if_pos hcap, Prog.bind_eq]
    unfold runCapabilityNode
    dsimp only
    cases hresolved : resolvedCapability P o node with
    | none => exact Prog.shows_fail ⟨stepsOf_nil, fun _ h => by cases h⟩
    | some descriptor =>
        cases hcontext : o.delegationContext with
        | none => exact Prog.shows_fail ⟨stepsOf_nil, fun _ h => by cases h⟩
        | some context =>
            have hcan : StepCanRun P o node := ⟨hcap, by rw [hresolved]; rfl, by rw [hcontext]; rfl⟩
            dsimp only
            refine Prog.shows_bind (Prog.shows_perform ?_)
            have hone : StepsOf P o plan node outputs
                [(w, Call.runCapabilityStep (listener o) (stepInput plan state node outputs
                  (node.allowedCapabilityRefs.headD "") descriptor context))] := by
              intro c hc runId input hcall
              obtain rfl := List.mem_singleton.mp hc
              cases hcall
              exact ⟨hcan, rfl, rfl⟩
            cases hanswer : (handle P env (.runCapabilityStep (listener o) (stepInput plan state node
                outputs (node.allowedCapabilityRefs.headD "") descriptor context)) w).1 with
            | error m => exact ⟨hone, fun _ h => by cases h⟩
            | ok result =>
                dsimp only
                rw [Prog.bind_eq]
                refine stepless_bind silent_stepArtifacts.stepless ?_ ?_
                · intro m w' seen hseen
                  exact ⟨hone.append (stepsOf_stepless hseen), fun _ h => by cases h⟩
                · intro artifacts w' seen hseen _
                  refine Prog.shows_done ?_
                  rw [List.append_nil]
                  refine ⟨hone.append (stepsOf_stepless hseen), ?_⟩
                  rintro _ ⟨⟩
                  exact .stepped hcan List.mem_cons_self rfl rfl hanswer
  rw [if_neg hcap]
  have hnot : canRunCapabilityStep node = false := by simpa using hcap
  by_cases hhandler : o.handlers node.kind = true
  · rw [if_pos hhandler, Prog.bind_eq]
    refine stepless_bind (stepless_perform rfl fun _ _ => trivial) ?_ ?_
    · intro m w' seen hseen
      exact ⟨stepsOf_stepless hseen, fun _ h => by cases h⟩
    · intro workOrder w' seen hseen _
      rw [Prog.bind_eq]
      refine Prog.shows_bind (Prog.shows_perform ?_)
      have hnone : StepsOf P o plan node outputs
          [(w', Call.handleNode workOrder plan node state)] := by
        refine stepsOf_stepless ?_
        intro c hc
        obtain rfl := List.mem_singleton.mp hc
        rfl
      cases hanswer : (handle P env (.handleNode workOrder plan node state) w').1 with
      | error m => exact ⟨(stepsOf_stepless hseen).append hnone, fun _ h => by cases h⟩
      | ok result =>
          refine Prog.shows_done ?_
          rw [List.append_nil]
          refine ⟨(stepsOf_stepless hseen).append hnone, ?_⟩
          rintro _ ⟨⟩
          exact .handled hnot hhandler (handle_ok hanswer).1
  · rw [if_neg hhandler]
    refine Prog.shows_done ⟨stepsOf_nil, ?_⟩
    rintro _ ⟨⟩
    exact .unhandled (by simpa using hstruct) hnot (by simpa using hhandler)

theorem markNode_traces {outcome : NodeOutcome} {artifacts : List PlanArtifactRef}
    {errors : List String} :
    Traces P env (markNode P o plan state node outcome artifacts errors) w fun out _ seen =>
      (∀ c ∈ seen, c.2.runsStep = false) ∧ ∀ marked, out = .ok marked →
        (∃ now, marked = markedState P plan state node outcome artifacts errors now) ∧
          ∃ c ∈ seen, c.2 = .recordPlanState marked := by
  unfold markNode
  rw [Prog.bind_eq]
  refine stepless_bind silent_now.stepless ?_ ?_
  · intro m w' seen hseen
    exact ⟨hseen, fun _ h => by cases h⟩
  intro now w₁ seen₁ hseen₁ _
  rw [Prog.bind_eq]
  refine Prog.shows_bind (Prog.shows_perform ?_)
  cases hanswer : (handle P env (.recordPlanState
      (markedState P plan state node outcome artifacts errors now)) w₁).1 with
  | error m =>
      refine ⟨?_, fun _ h => by cases h⟩
      intro c hc
      rcases List.mem_append.mp hc with hc | hc
      · exact hseen₁ c hc
      · obtain rfl := List.mem_singleton.mp hc
        rfl
  | ok recorded =>
      have hrecorded : recorded = markedState P plan state node outcome artifacts errors now :=
        (Except.ok.inj (handle_ok hanswer).1).symm
      subst hrecorded
      have hrest : Stepless (fun marked =>
          marked = markedState P plan state node outcome artifacts errors now)
          ((emit o plan (nodeEvent o plan node outcome artifacts errors now)).bind fun _ =>
            (emitArtifacts o plan node artifacts).bind fun _ =>
              (emitPhaseCompleted o plan node outcome).bind fun _ =>
                .done (markedState P plan state node outcome artifacts errors now)) :=
        Prog.obeys_bind silent_nodeEvent.stepless fun _ _ =>
          Prog.obeys_bind silent_emitArtifacts.stepless fun _ _ =>
            Prog.obeys_bind silent_emitPhaseCompleted.stepless fun _ _ => Prog.obeys_done rfl
      refine Prog.Shows.mono (stepless_traces hrest) ?_
      rintro out w₂ seen₂ ⟨hseen₂, hmarked⟩
      have hall : ∀ c ∈ seen₁ ++ ([(w₁, Call.recordPlanState
          (markedState P plan state node outcome artifacts errors now))] ++ seen₂),
          c.2.runsStep = false := by
        intro c hc
        rcases List.mem_append.mp hc with hc | hc
        · exact hseen₁ c hc
        · rcases List.mem_cons.mp hc with rfl | hc
          · rfl
          · exact hseen₂ c hc
      refine ⟨hall, fun marked hout => ?_⟩
      obtain rfl := hmarked marked hout
      exact ⟨⟨now, rfl⟩, _, List.mem_append_right _ List.mem_cons_self, rfl⟩

/-- The calls of one round, and what it returns. -/
structure RoundTrace (P : Platform) (env : Env) (o : PlanRunnerOptions) (plan : Planfile)
    (state : PlanState) (node : PlanNode) (outputs : Outputs)
    (out : Except String PlanRunnerExecutionResult) (seen : List (World × Call)) : Prop where
  steps : StepsOf P o plan node outputs seen
  returned : ∀ round, out = .ok round → ∃ outcome,
    Worked P env o plan node outputs seen outcome round.outputs ∧
      (∃ running now artifacts errors, round.state =
        markedState P plan (runningState state node running) node outcome artifacts errors now) ∧
      ∃ c ∈ seen, c.2 = .recordPlanState round.state

variable (state outputs) in
theorem runRound_traces :
    Traces P env (runRound P o plan state node outputs) w fun out _ seen =>
      RoundTrace P env o plan state node outputs out seen := by
  unfold runRound
  rw [Prog.bind_eq]
  refine stepless_bind stepless_emitNodeStarted ?_ ?_
  · intro m w' seen hseen
    exact ⟨stepsOf_stepless hseen, fun _ h => by cases h⟩
  intro _ w₁ seen₁ hseen₁ _
  rw [Prog.bind_eq]
  refine stepless_bind stepless_markNodeRunning ?_ ?_
  · intro m w' seen hseen
    exact ⟨(stepsOf_stepless hseen₁).append (stepsOf_stepless hseen), fun _ h => by cases h⟩
  rintro _ w₂ seen₂ hseen₂ ⟨running, rfl⟩
  have hbefore : StepsOf P o plan node outputs (seen₁ ++ seen₂) :=
    (stepsOf_stepless hseen₁).append (stepsOf_stepless hseen₂)
  rw [Prog.bind_eq]
  refine Prog.shows_bind (workOn_traces.mono ?_)
  rintro (m | work) w₃ seen₃ ⟨hsteps, hworked⟩
  · rw [← List.append_assoc]
    exact ⟨hbefore.append hsteps, fun _ h => by cases h⟩
  dsimp only
  rw [Prog.bind_eq]
  refine Prog.shows_bind (markNode_traces.mono ?_)
  rintro (m | marked) w₄ seen₄ ⟨hquiet, hmarked⟩
  · have hall := (hbefore.append hsteps).append (stepsOf_stepless hquiet)
    simp only [List.append_assoc] at hall ⊢
    exact ⟨hall, fun _ h => by cases h⟩
  · refine Prog.shows_done ?_
    have hall := (hbefore.append hsteps).append (stepsOf_stepless hquiet)
    simp only [List.append_assoc, List.append_nil] at hall ⊢
    refine ⟨hall, ?_⟩
    rintro _ ⟨⟩
    obtain ⟨⟨now, hstate⟩, c, hc, hrecord⟩ := hmarked marked rfl
    refine ⟨work.outcome, (hworked work rfl).mono ?_, ⟨running, now, _, _, hstate⟩, c, ?_, hrecord⟩
    · intro c hc
      simp only [List.mem_append]
      tauto
    · simp only [List.mem_append]
      tauto

/-! ### What is kept from round to round -/

/-- The runner has come past `done`, after these calls. -/
structure Progress (P : Platform) (env : Env) (o : PlanRunnerOptions) (plan : Planfile)
    (state : PlanState) (outputs : Outputs) (done : List String) (calls : List (World × Call)) :
    Prop where
  passed : Passed P o plan done
  fits : state.Fits plan
  phases : ∀ id ∈ plan.graph.tasks, state.phase id = if id ∈ done then .done else .waiting
  completed : ∀ earlier ∈ plan.nodes, canRunCapabilityStep earlier = true → earlier.id ∈ done →
    ∃ output, CompletedWith P env calls earlier.id output ∧
      outputs earlier.id = keepOutput Outputs.empty earlier.id output earlier.id
  unkept : ∀ id, id ∉ done → outputs id = Outputs.empty id
  steps : ∀ c ∈ calls, ∀ runId input, c.2 = .runCapabilityStep runId input → input.nodeId ∈ done ∧
    ∃ earlier ∈ plan.nodes, earlier.id = input.nodeId ∧ canRunCapabilityStep earlier = true

theorem nextNode_spec (h : nextNode plan done = some node) :
    node ∈ plan.nodes ∧ node.id ∉ done ∧ ∀ dependency ∈ node.dependsOn, dependency ∈ done := by
  have hfound := List.find?_some h
  exact ⟨List.mem_of_find?_eq_some h, (of_decide_eq_true hfound).1, (of_decide_eq_true hfound).2⟩

/-- **The ready node is the next one.** -/
theorem Progress.ready (hs : plan.Sound)
    (h : Progress P env o plan state outputs done calls) :
    (readyNodes plan state).head? = nextNode plan done := by
  unfold readyNodes nextNode
  dsimp only
  rw [List.head?_filter]
  have hnodup := h.fits.nodup hs
  have hdone : ∀ id ∈ plan.graph.tasks,
      (id ∈ (state.nodeStates.filter (·.status.isDone)).map (·.nodeId) ↔ id ∈ done) := by
    intro id hid
    rw [state.mem_done_iff hnodup, h.phases id hid]
    by_cases hmem : id ∈ done
    · simp [hmem]
    · simp [hmem]
  have hwaiting : ∀ id ∈ plan.graph.tasks,
      (id ∈ (state.nodeStates.filter (·.status.isWaiting)).map (·.nodeId) ↔ id ∉ done) := by
    intro id hid
    rw [state.mem_waiting_iff hnodup, h.phases id hid]
    by_cases hmem : id ∈ done
    · simp [hmem]
    · simp [hmem]
  refine List.find?_congr fun node hnode => ?_
  rw [decide_eq_decide, hwaiting _ (Planfile.mem_tasks.mpr ⟨node, hnode, rfl⟩)]
  refine and_congr_right fun _ => forall₂_congr fun dependency hdependency => ?_
  exact hdone _ (hs.deps node hnode dependency hdependency)

theorem keepOutput_other {other : String} (h : other ≠ id) :
    keepOutput outputs id output other = outputs other := by
  cases output with
  | undefined => rfl
  | _ => exact Function.update_of_ne h ..

theorem keepOutput_self {others : Outputs} (h : outputs id = others id) :
    keepOutput outputs id output id = keepOutput others id output id := by
  cases output with
  | undefined => exact h
  | _ => simp only [keepOutput, Function.update_self]

theorem Worked.completed {seen : List (World × Call)} {outcome : NodeOutcome} {outputs' : Outputs}
    (h : Worked P env o plan node outputs seen outcome outputs')
    (hdone : outcome.status.phase = .done) :
    CanComplete P o node ∧ (∀ id, id ≠ node.id → outputs' id = outputs id) ∧
      (canRunCapabilityStep node = true → ∃ c ∈ seen, ∃ runId input result,
        c.2 = .runCapabilityStep runId input ∧ input.nodeId = node.id ∧
        (handle P env (.runCapabilityStep runId input) c.1).1 = .ok result ∧
        result.status = .success ∧ outputs' = keepOutput outputs node.id result.output) := by
  cases h with
  | structural h =>
      refine ⟨Or.inl h, fun _ _ => rfl, fun hcap => ?_⟩
      rw [canRun_not_structural h] at hcap
      cases hcap
  | handled h hhandler hanswer =>
      refine ⟨Or.inr (Or.inr ⟨h, hhandler⟩), fun _ _ => rfl, fun hcap => ?_⟩
      rw [h] at hcap
      cases hcap
  | unhandled hstruct h hhandler => cases hdone
  | @stepped c runId input result h hc hcall hid hanswer =>
      have hsuccess : result.status = .success := by
        cases hstatus : result.status with
        | success => rfl
        | failed =>
            rw [hstatus] at hdone
            cases hdone
        | requiresApproval =>
            rw [hstatus] at hdone
            cases hdone
        | yielded =>
            rw [hstatus] at hdone
            cases hdone
      refine ⟨Or.inr (Or.inl h), fun id hne => ?_, fun _ =>
        ⟨c, hc, runId, input, result, hcall, hid, hanswer, hsuccess, rfl⟩⟩
      exact keepOutput_other hne

/-- **A round that completes its node makes progress.** -/
theorem Progress.round (hs : plan.Sound) (h : Progress P env o plan state outputs done calls)
    (hnext : nextNode plan done = some node) {round : PlanRunnerExecutionResult}
    {seen : List (World × Call)} (hsteps : StepsOf P o plan node outputs seen)
    {outcome : NodeOutcome} (hworked : Worked P env o plan node outputs seen outcome round.outputs)
    {running now : String} {artifacts : List PlanArtifactRef} {errors : List String}
    (hstate : round.state =
      markedState P plan (runningState state node running) node outcome artifacts errors now)
    (hrecorded : ∃ c ∈ seen, c.2 = .recordPlanState round.state)
    (hdone : outcome.status.phase = .done) :
    Progress P env o plan round.state round.outputs (done ++ [node.id]) (calls ++ seen) := by
  obtain ⟨hnode, hfresh, -⟩ := nextNode_spec hnext
  obtain ⟨hcan, hother, hstep⟩ := hworked.completed hdone
  have hfits : round.state.Fits plan := by
    rw [hstate]
    exact markedState_fits (runningState_fits h.fits)
  have hphase : round.state.phase = Function.update state.phase node.id .done := by
    rw [hstate, markedState_running_phase (h.fits.mem hnode), hdone]
  have hnow : round.state.done node.id = true := by
    rw [round.state.done_iff (hfits.nodup hs), hphase, Function.update_self]
  refine ⟨.next h.passed hnext hcan, hfits, ?_, ?_, ?_, ?_⟩
  · intro id hid
    rw [hphase]
    by_cases heq : id = node.id
    · subst heq
      rw [Function.update_self, if_pos (List.mem_append_right _ List.mem_cons_self)]
    · rw [Function.update_of_ne heq, h.phases id hid]
      by_cases hmem : id ∈ done
      · rw [if_pos hmem, if_pos (List.mem_append_left _ hmem)]
      · rw [if_neg hmem, if_neg]
        simp [hmem, heq]
  · intro earlier hearlier hcap hmem
    by_cases heq : earlier.id = node.id
    · obtain rfl : earlier = node := List.inj_on_of_nodup_map hs.nodup hearlier hnode heq
      obtain ⟨c, hc, runId, input, result, hcall, hid, hanswer, hsuccess, hkept⟩ := hstep hcap
      obtain ⟨c', hc', hrecord⟩ := hrecorded
      refine ⟨result.output, ⟨⟨c, List.mem_append_right _ hc, runId, input, result, hcall, hid,
        hanswer, hsuccess, rfl⟩, c', List.mem_append_right _ hc', _, hrecord, hnow⟩, ?_⟩
      rw [hkept, keepOutput_self (h.unkept _ hfresh)]
    · have hold : earlier.id ∈ done := by
        rcases List.mem_append.mp hmem with hmem | hmem
        · exact hmem
        · exact (heq (List.mem_singleton.mp hmem)).elim
      obtain ⟨output, hcompleted, hkept⟩ := h.completed earlier hearlier hcap hold
      refine ⟨output, hcompleted.mono (List.subset_append_left _ _), ?_⟩
      rw [hother _ heq]
      exact hkept
  · intro id hid
    rw [List.mem_append, List.mem_singleton, not_or] at hid
    rw [hother id hid.2]
    exact h.unkept id hid.1
  · intro c hc runId input hcall
    rcases List.mem_append.mp hc with hc | hc
    · obtain ⟨hmem, hearlier⟩ := h.steps c hc runId input hcall
      exact ⟨List.mem_append_left _ hmem, hearlier⟩
    · obtain ⟨hcan', hid, -⟩ := hsteps c hc runId input hcall
      exact ⟨by simp [hid], node, hnode, hid.symm, hcan'.1⟩

/-! ### Covered references flow -/

/-- The step of the next node gets its input from what was recorded. -/
theorem Progress.flows (h : Progress P env o plan state outputs done calls)
    (hcovered : ReferencesCovered P o plan) (hnext : nextNode plan done = some node)
    {seen : List (World × Call)} (hsteps : StepsOf P o plan node outputs seen) :
    FlowsAfter P env plan calls seen := by
  intro front c back hsplit runId input hcall
  have hc : c ∈ seen := by
    rw [hsplit]
    exact List.mem_append_right _ List.mem_cons_self
  obtain ⟨hcan, hid, hinput⟩ := hsteps c hc runId input hcall
  refine ⟨outputs, ?_, ?_⟩
  · rw [hid]
    exact hinput
  · rw [hid]
    intro id hid'
    obtain ⟨hmem, earlier, hearlier, rfl, hcap⟩ := hcovered done node h.passed hnext hcan id hid'
    obtain ⟨output, hcompleted, hkept⟩ := h.completed earlier hearlier hcap hmem
    exact ⟨output, hcompleted.mono (List.subset_append_left _ _), hkept⟩

theorem ends_of_not_done {outcome : NodeOutcome} {artifacts : List PlanArtifactRef}
    {errors : List String} {now : String} (hnot : outcome.status.phase ≠ .done) :
    ends (markedState P plan state node outcome artifacts errors now).status = true := by
  cases outcome with
  | completed => exact (hnot rfl).elim
  | skipped => exact (hnot rfl).elim
  | failed => rfl
  | yielded => rfl

/-- **Over all rounds the references flow**, if they are covered. -/
theorem runRounds_flow (hs : plan.Sound) (hcovered : ReferencesCovered P o plan) {k : Nat}
    (h : Progress P env o plan state outputs done calls) :
    Traces P env (runRounds P o plan k state outputs) w fun _ _ seen =>
      FlowsAfter P env plan calls seen := by
  induction k generalizing state outputs done calls w with
  | zero => exact Prog.shows_done flowsAfter_nil
  | succ k ih =>
      unfold runRounds
      cases hready : readyNodes plan state with
      | nil => exact Prog.shows_done flowsAfter_nil
      | cons node rest =>
          have hnext : nextNode plan done = some node := by
            rw [← h.ready hs, hready]
            rfl
          dsimp only
          rw [Prog.bind_eq]
          refine Prog.shows_bind ((runRound_traces state outputs).mono ?_)
          rintro (m | round) w' seen hround
          · exact h.flows hcovered hnext hround.steps
          · obtain ⟨outcome, hworked, ⟨running, now, artifacts, errors, hstate⟩, hrecorded⟩ :=
              hround.returned round rfl
            have hflows := h.flows hcovered hnext hround.steps
            dsimp only
            by_cases hends : ends round.state.status = true
            · rw [if_pos hends]
              refine Prog.shows_done ?_
              rw [List.append_nil]
              exact hflows
            · rw [if_neg hends]
              have hdone : outcome.status.phase = .done := by
                by_contra hnot
                rw [hstate] at hends
                exact hends (ends_of_not_done hnot)
              have hprogress := h.round hs hnext hround.steps hworked hstate hrecorded hdone
              exact (ih hprogress).mono fun _ _ seen' hseen' => hflows.append hseen'

/-! ### Whole runs -/

/-- A fresh state is where the progress starts. -/
theorem Progress.start (hs : plan.Sound) {now : String}
    (hquiet : ∀ c ∈ calls, c.2.runsStep = false) :
    Progress P env o plan (initialPlanState P plan now) Outputs.empty [] calls where
  passed := .start
  fits := initialPlanState_fits
  phases id hid := by
    rw [initialPlanState_phase hs hid]
    rfl
  completed earlier _ _ hmem := by cases hmem
  unkept _ _ := rfl
  steps c hc runId input hcall := by
    have hstep := hquiet c hc
    rw [hcall] at hstep
    cases hstep

/-- A run starts from the state `load` creates, stored before or now. -/
theorem storedOrLoad_traces {planfile : Planfile} (hacc : accept P o planfile = .ok plan)
    (hw : Unstarted P planfile w) :
    Traces P env (storedOrLoad P o plan) w fun out _ seen =>
      (∀ c ∈ seen, c.2.runsStep = false) ∧
        ∀ state, out = .ok state → ∃ now, state = initialPlanState P plan now := by
  unfold storedOrLoad
  rw [Prog.bind_eq]
  refine Prog.shows_bind (Prog.shows_perform ?_)
  have hone : ∀ c ∈ [(w, Call.getPlanState plan.planId)], c.2.runsStep = false := by
    intro c hc
    obtain rfl := List.mem_singleton.mp hc
    rfl
  cases hanswer : (handle P env (.getPlanState plan.planId) w).1 with
  | error m => exact ⟨hone, fun _ h => by cases h⟩
  | ok found =>
      have hfound : w.planStates plan.planId = found := Except.ok.inj (handle_ok hanswer).1
      cases found with
      | some state =>
          refine Prog.shows_done ?_
          rw [List.append_nil]
          refine ⟨hone, ?_⟩
          rintro _ ⟨⟩
          exact unstarted_stored hacc hw state hfound
      | none =>
          have hload : Stepless (fun state => ∃ now, state = initialPlanState P plan now)
              (load P o plan) := by
            unfold load
            rw [accept_accepted hacc]
            refine Prog.obeys_bind silent_now.stepless fun now _ => ?_
            refine Prog.obeys_bind (stepless_perform rfl fun recorded h => h) fun recorded h => ?_
            exact Prog.obeys_bind (silent_emit (by simp)).stepless fun _ _ => Prog.obeys_done ⟨now, h⟩
          refine (stepless_traces hload).mono ?_
          rintro out w' seen ⟨hseen, hout⟩
          refine ⟨?_, hout⟩
          intro c hc
          rcases List.mem_append.mp hc with hc | hc
          · exact hone c hc
          · exact hseen c hc

theorem FlowsAfter.right {before quiet : List (World × Call)}
    (h : FlowsAfter P env plan (before ++ quiet) calls) (hquiet : ∀ c ∈ quiet, c.2.runsStep = false) :
    FlowsAfter P env plan before (quiet ++ calls) :=
  FlowsAfter.append (flowsAfter_stepless hquiet) h

variable (env) in
/-- **In a run from `load` the references flow**, if they are covered. -/
theorem runToCompletion_flow {planfile : Planfile} (hacc : accept P o planfile = .ok plan)
    (hcovered : ReferencesCovered P o plan) (hw : Unstarted P planfile w) :
    Traces P env (runToCompletion P o planfile) w fun _ _ seen =>
      FlowsAfter P env plan [] seen := by
  have hs := accept_sound hacc
  unfold runToCompletion
  rw [hacc]
  dsimp only
  rw [Prog.bind_eq]
  refine Prog.shows_bind ((storedOrLoad_traces hacc hw).mono ?_)
  rintro (m | state) w₁ seen₁ ⟨hquiet₁, hstate⟩
  · exact flowsAfter_stepless hquiet₁
  obtain ⟨now, rfl⟩ := hstate state rfl
  dsimp only
  rw [Prog.bind_eq]
  refine stepless_bind (silent_emit (by simp)).stepless ?_ ?_
  · intro m w₂ seen₂ hquiet₂
    exact FlowsAfter.right (flowsAfter_stepless hquiet₂) hquiet₁
  intro _ w₂ seen₂ hquiet₂ _
  have hprogress : Progress P env o plan (initialPlanState P plan now) Outputs.empty []
      (seen₁ ++ seen₂) := by
    refine Progress.start hs fun c hc => ?_
    rcases List.mem_append.mp hc with hc | hc
    · exact hquiet₁ c hc
    · exact hquiet₂ c hc
  rw [Prog.bind_eq]
  refine Prog.shows_bind ((runRounds_flow hs hcovered hprogress).mono ?_)
  rintro (m | result) w₃ seen₃ hflow
  · exact FlowsAfter.right (FlowsAfter.right hflow hquiet₂) hquiet₁
  · dsimp only
    rw [Prog.bind_eq]
    refine stepless_bind silent_announceEnd.stepless ?_ ?_
    · intro m w₄ seen₄ hquiet₄
      exact FlowsAfter.right (FlowsAfter.right
        (hflow.append (flowsAfter_stepless hquiet₄)) hquiet₂) hquiet₁
    · intro _ w₄ seen₄ hquiet₄ _
      refine Prog.shows_done ?_
      rw [List.append_nil]
      exact FlowsAfter.right (FlowsAfter.right
        (hflow.append (flowsAfter_stepless hquiet₄)) hquiet₂) hquiet₁

/-! ### Uncovered references do not -/

/-- Nothing throws, every step answers with success and every handler completes its node. -/
def willingEnv : Env where
  fault := fun _ => .none
  clock := fun _ => ""
  anHourFromNow := fun _ => ""
  runCapabilityStep := fun _ _ => ⟨[], .ok
    { status := .success, output := .obj [], outputArtifactRefs := [], structuredErrors := [] }⟩
  handleNode := fun _ _ _ _ _ => .ok ⟨.completed, none, none⟩
  recordedArtifacts := fun _ => []
  submitWorkflow := fun _ _ => .ok ""

/-- A program that returns in this environment. -/
def Willing (P : Platform) {α : Type} (program : Program α) : Prop :=
  ∀ w, ∃ a, (Prog.exec (handle P willingEnv) program w).outcome = .ok a

/-- The calls of a program that returns, and of what comes after it. -/
theorem Willing.splits {α β : Type} {program : Program α} {f : α → Program β}
    (h : Willing P program) {post : Except String α → World → List (World × Call) → Prop}
    (ht : Traces P willingEnv program w post) :
    ∃ a w' seen, post (.ok a) w' seen ∧
      (Prog.exec (handle P willingEnv) (program.bind f) w).trace =
        seen ++ (Prog.exec (handle P willingEnv) (f a) w').trace := by
  obtain ⟨a, ha⟩ := h w
  unfold Traces Prog.Shows at ht
  rw [List.filterMap_some, ha] at ht
  exact ⟨a, _, _, ht, by rw [Prog.exec_bind_ok _ _ ha]⟩

theorem Sure.willing {α : Type} {program : Program α} (h : Sure program) : Willing P program :=
  fun _ => h.returns_ok fun _ => rfl

theorem willing_bind {α β : Type} {program : Program α} {f : α → Program β}
    (hp : Willing P program) (hf : ∀ a, Willing P (f a)) : Willing P (program.bind f) := by
  intro w
  obtain ⟨a, ha⟩ := hp w
  rw [Prog.exec_bind_ok _ _ ha]
  exact hf a _

theorem willing_done {α : Type} {a : α} : Willing P (.done a) :=
  fun _ => ⟨a, rfl⟩

theorem willing_perform {call : Call}
    (h : ∀ w, ∃ a, (serve P willingEnv call w).1 = .ok a) : Willing P (perform call) := by
  intro w
  rw [Prog.exec_perform, handle_noFault rfl]
  exact h w

theorem willing_emitNodeStarted : Willing P (emitNodeStarted o plan node) := by
  refine willing_bind sure_emit.willing fun _ => ?_
  unfold emitPhaseStarted
  split
  · exact sure_emit.willing
  · exact sure_emit.willing
  · exact willing_done

theorem willing_emitArtifacts {artifacts : List PlanArtifactRef} :
    Willing P (emitArtifacts o plan node artifacts) := by
  induction artifacts with
  | nil => exact willing_done
  | cons artifact rest ih =>
      refine willing_bind ?_ fun _ => ih
      unfold emitArtifact
      split
      · exact willing_done
      · exact sure_emit.willing

theorem willing_stepArtifacts {refs : List String} : Willing P (stepArtifacts o refs) := by
  induction refs with
  | nil => exact willing_done
  | cons id rest ih =>
      exact willing_bind sure_now.willing fun _ => willing_bind ih fun _ => willing_done

theorem willing_markNode {outcome : NodeOutcome} {artifacts : List PlanArtifactRef}
    {errors : List String} : Willing P (markNode P o plan state node outcome artifacts errors) := by
  refine willing_bind sure_now.willing fun now => ?_
  refine willing_bind (willing_perform fun _ => ⟨_, rfl⟩) fun recorded => ?_
  refine willing_bind sure_emit.willing fun _ => ?_
  refine willing_bind willing_emitArtifacts fun _ => ?_
  refine willing_bind ?_ fun _ => willing_done
  unfold emitPhaseCompleted
  split
  · exact sure_emit.willing
  · exact sure_emit.willing
  · exact willing_done

/-- A node that a run can come past is worked on. -/
theorem willing_workOn (hs : plan.Sound) (hnode : node ∈ plan.nodes) (hcan : CanComplete P o node) :
    Willing P (workOn P o plan state node outputs) := by
  unfold workOn
  by_cases hstruct : canCompleteStructuralNode node = true
  · rw [if_pos hstruct]
    exact willing_done
  rw [if_neg hstruct]
  rcases hcan with h | ⟨hcap, hresolved, hcontext⟩ | ⟨hnot, hhandler⟩
  · exact (hstruct h).elim
  · obtain ⟨descriptor, hdescriptor⟩ := Option.isSome_iff_exists.mp hresolved
    obtain ⟨context, hcontext⟩ := Option.isSome_iff_exists.mp hcontext
    rw [if_pos hcap]
    refine willing_bind ?_ fun result => willing_bind willing_stepArtifacts fun _ => willing_done
    unfold runCapabilityNode
    rw [hdescriptor, hcontext]
    refine willing_perform fun w => ?_
    cases listener o with
    | none => exact ⟨_, rfl⟩
    | some runId => exact ⟨_, rfl⟩
  · rw [if_neg (by simp [hnot]), if_pos hhandler]
    refine willing_bind (willing_perform fun w => ?_) fun workOrder => ?_
    · have hfound := plan.node?_of_nodup hs.nodup hnode
      simp only [serve, compileWorkOrder, hfound]
      exact ⟨_, rfl⟩
    · exact willing_bind (willing_perform fun _ => ⟨_, rfl⟩) fun _ => willing_done

theorem willing_runRound (hs : plan.Sound) (hnode : node ∈ plan.nodes)
    (hcan : CanComplete P o node) : Willing P (runRound P o plan state node outputs) := by
  refine willing_bind willing_emitNodeStarted fun _ => ?_
  refine willing_bind ?_ fun running => ?_
  · exact willing_bind sure_now.willing fun _ => willing_perform fun _ => ⟨_, rfl⟩
  refine willing_bind (willing_workOn hs hnode hcan) fun work => ?_
  exact willing_bind willing_markNode fun _ => willing_done

theorem willing_storedOrLoad {planfile : Planfile} (hacc : accept P o planfile = .ok plan) :
    Willing P (storedOrLoad P o plan) := by
  refine willing_bind (willing_perform fun _ => ⟨_, rfl⟩) fun found => ?_
  cases found with
  | some state => exact willing_done
  | none =>
      dsimp only
      unfold load
      rw [accept_accepted hacc]
      refine willing_bind sure_now.willing fun now => ?_
      refine willing_bind (willing_perform fun _ => ⟨_, rfl⟩) fun recorded => ?_
      exact willing_bind sure_emit.willing fun _ => willing_done

/-- In this environment a node that a run can come past is completed. -/
theorem Worked.willing {seen : List (World × Call)} {outcome : NodeOutcome} {outputs' : Outputs}
    (h : Worked P willingEnv o plan node outputs seen outcome outputs')
    (hcan : CanComplete P o node) : outcome = .completed := by
  cases h with
  | structural h => rfl
  | @stepped c runId input result h hc hcall hid hanswer =>
      have hresult : (serve P willingEnv (.runCapabilityStep runId input) c.1).1 = .ok result :=
        (handle_ok hanswer).1
      cases runId with
      | none =>
          cases hresult
          rfl
      | some runId =>
          cases hresult
          rfl
  | handled h hhandler hanswer =>
      cases hanswer
      rfl
  | unhandled hstruct h hhandler =>
      rcases hcan with hstruct' | ⟨hcap, -⟩ | ⟨-, hhandler'⟩
      · rw [hstruct] at hstruct'
        cases hstruct'
      · rw [h] at hcap
        cases hcap
      · rw [hhandler] at hhandler'
        cases hhandler'

theorem Passed.tasks (h : Passed P o plan done) :
    done.Nodup ∧ ∀ id ∈ done, id ∈ plan.graph.tasks := by
  induction h with
  | start => exact ⟨List.nodup_nil, by simp⟩
  | @next done node hpassed hnext hcan ih =>
      obtain ⟨hnode, hfresh, -⟩ := nextNode_spec hnext
      refine ⟨?_, ?_⟩
      · rw [List.nodup_append]
        refine ⟨ih.1, List.nodup_singleton _, ?_⟩
        rintro id hid _ hid' rfl
        exact hfresh (List.mem_singleton.mp hid' ▸ hid)
      · intro id hid
        rcases List.mem_append.mp hid with hid | hid
        · exact ih.2 id hid
        · rw [List.mem_singleton.mp hid]
          exact Planfile.mem_tasks.mpr ⟨node, hnode, rfl⟩

/-- While there is a next node, fewer nodes were passed than the plan has. -/
theorem Passed.length_lt (h : Passed P o plan done) (hnext : nextNode plan done = some node) :
    done.length < plan.nodes.length := by
  obtain ⟨hnode, hfresh, -⟩ := nextNode_spec hnext
  have hcons : (node.id :: done).Nodup := List.nodup_cons.mpr ⟨hfresh, h.tasks.1⟩
  have hsub : node.id :: done ⊆ plan.graph.tasks := by
    intro id hid
    rcases List.mem_cons.mp hid with rfl | hid
    · exact Planfile.mem_tasks.mpr ⟨node, hnode, rfl⟩
    · exact h.tasks.2 id hid
  have hle := (List.subperm_of_subset hcons hsub).length_le
  have hlen : plan.graph.tasks.length = plan.nodes.length := by simp [Planfile.graph]
  simp only [List.length_cons] at hle
  omega

/-- The calls of a willing run, at the moment it has come past `done`: what follows are rounds. -/
def Reached (P : Platform) (o : PlanRunnerOptions) (plan : Planfile) (trace : List (World × Call))
    (done : List String) : Prop :=
  ∃ calls state outputs k w rest, Progress P willingEnv o plan state outputs done calls ∧
    plan.nodes.length < k + done.length ∧
    trace = calls ++ (Prog.exec (handle P willingEnv) (runRounds P o plan k state outputs) w).trace
      ++ rest

/-- A state in which a node of the plan waits is not completed. -/
theorem nextPlanStatus_waiting {nodeStates : List PlanNodeState} {nodeState : PlanNodeState}
    (hmem : nodeState ∈ nodeStates) (hwaits : nodeState.status.isDone = false) :
    nextPlanStatus .completed nodeStates = .running := by
  unfold nextPlanStatus
  rw [if_neg]
  intro hall
  rw [List.all_eq_true.mp hall nodeState hmem] at hwaits
  cases hwaits

/-- With a next node left, a round that made progress is not the last. -/
theorem Progress.goes_on (hs : plan.Sound) {running now : String} {artifacts : List PlanArtifactRef}
    {errors : List String} {start : PlanState}
    (h : Progress P env o plan
      (markedState P plan (runningState start node running) node .completed artifacts errors now)
      outputs done calls) {next : PlanNode} (hnext : nextNode plan done = some next) :
    ends (markedState P plan (runningState start node running) node .completed artifacts errors
      now).status = false := by
  obtain ⟨hnode, hfresh, -⟩ := nextNode_spec hnext
  have hid : next.id ∈ plan.graph.tasks := Planfile.mem_tasks.mpr ⟨next, hnode, rfl⟩
  have hphase := h.phases next.id hid
  rw [if_neg hfresh] at hphase
  rw [← h.fits.tasks] at hid
  obtain ⟨nodeState, hmem, hnodeId⟩ := List.mem_map.mp hid
  rw [← hnodeId, PlanState.phase_of_mem (h.fits.nodup hs) hmem] at hphase
  have hwaits : nodeState.status.isDone = false := by
    by_contra hdone
    have hphase' := PlanNodeStatus.phase_done.mpr (by simpa using hdone)
    rw [hphase'] at hphase
    cases hphase
  have hstatus : (markedState P plan (runningState start node running) node .completed artifacts
      errors now).status = .running := nextPlanStatus_waiting hmem hwaits
  rw [hstatus]
  rfl

/-- A run starts by coming past nothing. -/
theorem reached_start {planfile : Planfile} (hacc : accept P o planfile = .ok plan)
    (hw : Unstarted P planfile w) :
    Reached P o plan (Prog.exec (handle P willingEnv) (runToCompletion P o planfile) w).trace [] := by
  unfold runToCompletion
  rw [hacc]
  dsimp only
  rw [Prog.bind_eq]
  obtain ⟨state, w₁, seen₁, ⟨hquiet₁, hstate⟩, htrace₁⟩ :=
    (willing_storedOrLoad hacc).splits (storedOrLoad_traces hacc hw)
  obtain ⟨now, rfl⟩ := hstate state rfl
  rw [htrace₁, Prog.bind_eq]
  have hstart : Silent (emit o plan .runStarted) := silent_emit (by simp)
  obtain ⟨_, w₂, seen₂, ⟨hquiet₂, -⟩, htrace₂⟩ :=
    sure_emit.willing.splits (stepless_traces hstart.stepless)
  rw [htrace₂, Prog.bind_eq]
  obtain ⟨rest, hrest⟩ := Prog.trace_bind (handle P willingEnv)
    (runRounds P o plan (plan.nodes.length + 2) (initialPlanState P plan now) Outputs.empty)
    (fun result => announceEnd o plan result.state >>= fun _ => pure result) w₂
  rw [hrest, ← List.append_assoc, ← List.append_assoc]
  refine ⟨_, _, _, plan.nodes.length + 2, w₂, rest, Progress.start (accept_sound hacc) ?_,
    by simp, rfl⟩
  intro c hc
  rcases List.mem_append.mp hc with hc | hc
  · exact hquiet₁ c hc
  · exact hquiet₂ c hc

/-- While there is a next node, the next round is about it. -/
theorem Reached.round {trace : List (World × Call)} (hs : plan.Sound)
    (h : Reached P o plan trace done) (hnext : nextNode plan done = some node)
    (hcan : CanComplete P o node) :
    ∃ calls state outputs k seen round rest running now artifacts errors w,
      Progress P willingEnv o plan state outputs done calls ∧
      plan.nodes.length < k + 1 + done.length ∧
      trace = calls ++ seen ++ (Prog.exec (handle P willingEnv)
        (if ends round.state.status then pure round
          else runRounds P o plan k round.state round.outputs) w).trace ++ rest ∧
      StepsOf P o plan node outputs seen ∧
      Worked P willingEnv o plan node outputs seen .completed round.outputs ∧
      round.state =
        markedState P plan (runningState state node running) node .completed artifacts errors now ∧
      ∃ c ∈ seen, c.2 = .recordPlanState round.state := by
  obtain ⟨calls, state, outputs, k, w, rest, hprogress, hk, htrace⟩ := h
  have hlt := hprogress.passed.length_lt hnext
  obtain ⟨k, rfl⟩ : ∃ k', k = k' + 1 := ⟨k - 1, by omega⟩
  have hready := hprogress.ready hs
  rw [hnext] at hready
  obtain ⟨more, hready⟩ := List.head?_eq_some_iff.mp hready
  obtain ⟨round, w', seen, hround, hsplit⟩ := (willing_runRound hs (nextNode_spec hnext).1
    hcan).splits (runRound_traces state outputs) (w := w)
    (f := fun round => if ends round.state.status then pure round
      else runRounds P o plan k round.state round.outputs)
  obtain ⟨outcome, hworked, ⟨running, now, artifacts, errors, hstate⟩, hrecorded⟩ :=
    hround.returned round rfl
  obtain rfl := hworked.willing hcan
  refine ⟨calls, state, outputs, k, seen, round, rest, running, now, artifacts, errors, w',
    hprogress, hk, ?_, hround.steps, hworked, hstate, hrecorded⟩
  rw [htrace, runRounds, hready]
  dsimp only
  rw [Prog.bind_eq, hsplit]
  simp only [List.append_assoc]

/-- **A willing run comes past every node it can**, as long as one is left after it. -/
theorem Passed.reached {planfile : Planfile} (hacc : accept P o planfile = .ok plan)
    (hw : Unstarted P planfile w) (h : Passed P o plan done)
    (hmore : (nextNode plan done).isSome = true) :
    Reached P o plan (Prog.exec (handle P willingEnv) (runToCompletion P o planfile) w).trace
      done := by
  induction h with
  | start => exact reached_start hacc hw
  | @next done node hpassed hnext hcan ih =>
      have hs := accept_sound hacc
      have hreached := ih (by rw [hnext]; rfl)
      obtain ⟨calls, state, outputs, k, seen, round, rest, running, now, artifacts, errors, w',
        hprogress, hk, htrace, hsteps, hworked, hstate, hrecorded⟩ := hreached.round hs hnext hcan
      have hround := hprogress.round hs hnext hsteps hworked hstate hrecorded rfl
      obtain ⟨next, hmore⟩ := Option.isSome_iff_exists.mp hmore
      have hgoes : ends round.state.status = false := by
        rw [hstate] at hround ⊢
        exact hround.goes_on hs hmore
      rw [hgoes] at htrace
      refine ⟨calls ++ seen, round.state, round.outputs, k, w', rest, hround, ?_, htrace⟩
      simp only [List.length_append, List.length_singleton]
      omega

/-- The first of these calls that runs a step. -/
theorem first_step (h : ∃ c ∈ calls, c.2.runsStep = true) : ∃ front c back runId input,
    calls = front ++ c :: back ∧ c.2 = .runCapabilityStep runId input ∧
      ∀ c' ∈ front, c'.2.runsStep = false := by
  obtain ⟨c, hc, hstep⟩ := h
  have hsome : (calls.find? fun c => c.2.runsStep).isSome = true :=
    List.find?_isSome.mpr ⟨c, hc, hstep⟩
  obtain ⟨first, hfirst⟩ := Option.isSome_iff_exists.mp hsome
  obtain ⟨hruns, front, back, hsplit, hfront⟩ := List.find?_eq_some_iff_append.mp hfirst
  obtain ⟨w, call⟩ := first
  cases call with
  | runCapabilityStep runId input =>
      exact ⟨front, _, back, runId, input, hsplit, rfl, fun c' hc' => by simpa using hfront c' hc'⟩
  | _ => cases hruns

/-- Where the references of a willing run flow, they are covered. -/
theorem covered_of_flows {planfile : Planfile} (hacc : accept P o planfile = .ok plan)
    (hw : Unstarted P planfile w)
    (hflows : FlowsAfter P willingEnv plan []
      (Prog.exec (handle P willingEnv) (runToCompletion P o planfile) w).trace) :
    ReferencesCovered P o plan := by
  intro done node hpassed hnext hstep id hid
  have hs := accept_sound hacc
  have hreached := hpassed.reached hacc hw (by rw [hnext]; rfl)
  obtain ⟨calls, state, outputs, k, seen, round, rest, running, now, artifacts, errors, w',
    hprogress, hk, htrace, hsteps, hworked, hstate, hrecorded⟩ :=
    hreached.round hs hnext (Or.inr (Or.inl hstep))
  obtain ⟨-, -, hran⟩ := hworked.completed rfl
  obtain ⟨c, hc, runId, input, result, hcall, -⟩ := hran hstep.1
  obtain ⟨front, c, back, runId, input, rfl, hcall, hfront⟩ :=
    first_step ⟨c, hc, by rw [hcall]; rfl⟩
  obtain ⟨-, hinput, -⟩ := hsteps c (List.mem_append_right _ List.mem_cons_self) runId input hcall
  have hsplit : ∃ more, (Prog.exec (handle P willingEnv) (runToCompletion P o planfile) w).trace =
      (calls ++ front) ++ c :: more := by
    rw [htrace]
    simp only [List.append_assoc, List.cons_append]
    exact ⟨_, rfl⟩
  obtain ⟨more, hsplit⟩ := hsplit
  obtain ⟨outputs', -, hcompleted⟩ := hflows (calls ++ front) c more hsplit runId input hcall
  rw [hinput, List.nil_append] at hcompleted
  obtain ⟨output, ⟨⟨c', hc', runId', input', result', hcall', hinput', -⟩, -⟩, -⟩ := hcompleted id hid
  -- The step that answered is one of an earlier round: this one ran none before.
  rcases List.mem_append.mp hc' with hc' | hc'
  · obtain ⟨hmem, hearlier⟩ := hprogress.steps c' hc' runId' input' hcall'
    rw [hinput'] at hmem hearlier
    exact ⟨hmem, hearlier⟩
  · have hquiet := hfront c' hc'
    rw [hcall'] at hquiet
    cases hquiet

/-- **When every reference finds its output.**  In every run of an accepted plan from `load`, with
whatever outcomes, each step gets its input from outputs recorded before, exactly when every node
that a run can come to refers only to capability nodes it came past. -/
theorem references_flow_iff (P : Platform) (o : PlanRunnerOptions) (planfile plan : Planfile)
    (hacc : accept P o planfile = .ok plan) :
    (∀ env w, Unstarted P planfile w → FlowsAfter P env plan []
      (Prog.exec (handle P env) (runToCompletion P o planfile) w).trace) ↔
    ReferencesCovered P o plan := by
  constructor
  · intro hflows
    exact covered_of_flows hacc unstarted_empty (hflows willingEnv World.empty unstarted_empty)
  · intro hcovered env w hw
    have htraces := runToCompletion_flow env hacc hcovered hw
    unfold Traces Prog.Shows at htraces
    rwa [List.filterMap_some] at htraces

/-! ### Two sample plans -/

def flowDescriptor : CapabilityDescriptor where
  capabilityId := "test.echo"
  packId := "test"
  name := "echo"
  description := "Echo the input."
  inputSchema := .null
  outputSchema := .null
  riskLevel := .read
  requiresApproval := false
  scopes := []
  capabilityDigest := sampleDigest

def flowOptions : PlanRunnerOptions where
  capabilitySnapshot := ⟨"caps", "2026-01-01T00:00:00Z", "",
    [⟨"test", "echo", "Echo the input.", .null, .null, .read, false, sampleDigest⟩]⟩
  handlers := fun _ => false
  registry := some ⟨[flowDescriptor]⟩
  delegationContext := some
    { principalId := "human", principalType := "human", delegateId := "runtime",
      delegateType := "runtime", projectId := "project", workspaceId := "workspace",
      allowedScopes := [], deniedScopes := [], allowedCapabilities := [], maxRiskLevel := .read,
      approvalRequiredFor := [], expiresAt := "2026-01-01T01:00:00.000Z", traceId := "trace",
      parentRunId := "run", taskRunId := none }
  runId := none
  emitRunEvent := false
  now := none

/-- Two capability nodes, one after the other; `user` gets this text as its input. -/
def flowPlan (user reference : String) : Planfile :=
  { samplePlan
      [{ sampleNode "first" .inspect [] with allowedCapabilityRefs := ["test.echo"] },
        { sampleNode "second" .inspect ["first"] with allowedCapabilityRefs := ["test.echo"] }] with
    executionContext := some
      [("nodes", .obj [(user, .obj [("input", .str reference)])])] }

/-- The second node refers to the output of the first. -/
theorem backward_flows : FlowsAfter samplePlatform willingEnv
    (withCanonicalPlanDigest samplePlatform.sha256 (flowPlan "second" "$nodes.first.output")) []
    (Prog.exec (handle samplePlatform willingEnv) (runToCompletion samplePlatform flowOptions
      (flowPlan "second" "$nodes.first.output")) World.empty).trace := by
  refine (references_flow_iff samplePlatform flowOptions (flowPlan "second" "$nodes.first.output") _
    (accept_valid (by decide) (by decide))).mpr ?_ willingEnv World.empty unstarted_empty
  intro done node hpassed hnext hstep id hid
  obtain ⟨hnode, -, hdeps⟩ := nextNode_spec hnext
  simp only [withCanonicalPlanDigest, flowPlan, samplePlan, List.mem_cons, List.not_mem_nil,
    or_false] at hnode
  rcases hnode with rfl | rfl
  · have hnone : templateRefs (nodeInput (withCanonicalPlanDigest samplePlatform.sha256
        (flowPlan "second" "$nodes.first.output")) "first") = [] := by decide
    change id ∈ templateRefs (nodeInput _ "first") at hid
    rw [hnone] at hid
    cases hid
  · have hone : templateRefs (nodeInput (withCanonicalPlanDigest samplePlatform.sha256
        (flowPlan "second" "$nodes.first.output")) "second") = ["first"] := by decide
    change id ∈ templateRefs (nodeInput _ "second") at hid
    rw [hone] at hid
    obtain rfl := List.mem_singleton.mp hid
    exact ⟨hdeps "first" List.mem_cons_self, _, List.mem_cons_self, rfl, by decide⟩

/-- The first node refers to the output of the second, which runs after it; the plan is accepted. -/
theorem forward_does_not_flow :
    accept samplePlatform flowOptions (flowPlan "first" "$nodes.second.output") =
      .ok (withCanonicalPlanDigest samplePlatform.sha256 (flowPlan "first" "$nodes.second.output")) ∧
    ¬ FlowsAfter samplePlatform willingEnv
      (withCanonicalPlanDigest samplePlatform.sha256 (flowPlan "first" "$nodes.second.output")) []
      (Prog.exec (handle samplePlatform willingEnv) (runToCompletion samplePlatform flowOptions
        (flowPlan "first" "$nodes.second.output")) World.empty).trace := by
  have hacc : accept samplePlatform flowOptions (flowPlan "first" "$nodes.second.output") = .ok
      (withCanonicalPlanDigest samplePlatform.sha256 (flowPlan "first" "$nodes.second.output")) :=
    accept_valid (by decide) (by decide)
  refine ⟨hacc, fun hflows => ?_⟩
  have hcovered := covered_of_flows hacc unstarted_empty hflows
  have hmem := (hcovered [] { sampleNode "first" .inspect [] with
    allowedCapabilityRefs := ["test.echo"] } .start rfl ⟨by decide, by decide, by decide⟩ "second"
      (by decide)).1
  cases hmem

end OpenLagrange
