/-
What the runner does with two plans of the same content.

A run reads of a plan its nodes, its execution context and its id.  So with the same answers
to its questions it starts the same nodes with the same inputs, the inputs of capability
steps up to the order of properties.  A handler is given more: the status and the errors that
the submitted plan lists for its node, and the artifacts of the nodes before it.  None of
these is in the digest, and a plan that hands a node over has to agree on them as well.

The projections that the states carry are texts of the whole plan, and differ.
-/
import OpenLagrange.Lib.Alike
import OpenLagrange.Proofs.DigestCheck

namespace OpenLagrange

open Prog

/-! ### States and calls that correspond -/

/-- The state without the text it is shown as. -/
def PlanState.withoutProjection (s : PlanState) : PlanState := { s with markdownProjection := none }

/-- The states differ at most in the text they are shown as. -/
def SameState (s s' : PlanState) : Prop := s.withoutProjection = s'.withoutProjection

/-- The steps are the same, their inputs up to the order of properties. -/
structure SameStep (i i' : CapabilityStepInput) : Prop where
  input : SameValue i.input i'.input
  rest : { i with input := .null } = { i' with input := .null }

/-- The calls of the runner that correspond. -/
def sameCall (P : Platform) : Call → Call → Prop
  | .clock, .clock => True
  | .getPlanState id, .getPlanState id' => id = id'
  | .recordPlanState s, .recordPlanState s' => SameState s s'
  | .emitRunEvent l id b, .emitRunEvent l' id' b' => l = l' ∧ id = id' ∧ b = b'
  | .compileWorkOrder p id snapshot, .compileWorkOrder q id' snapshot' =>
      id = id' ∧ snapshot = snapshot' ∧
        compileWorkOrder P p id snapshot = compileWorkOrder P q id' snapshot'
  | .handleNode order _ node state, .handleNode order' _ node' state' =>
      order = order' ∧ SameTask node node' ∧ SameState state state'
  | .runCapabilityStep id i, .runCapabilityStep id' i' => id = id' ∧ SameStep i i'
  | _, _ => False

/-- Their answers that correspond. -/
def sameAnswer : (e e' : Call) → Answer e → Answer e' → Prop
  | .clock, .clock => fun a a' => a = a'
  | .getPlanState _, .getPlanState _ => fun a a' =>
      a.map PlanState.withoutProjection = a'.map PlanState.withoutProjection
  | .recordPlanState _, .recordPlanState _ => fun a a' => SameState a a'
  | .emitRunEvent _ _ _, .emitRunEvent _ _ _ => fun _ _ => True
  | .compileWorkOrder _ _ _, .compileWorkOrder _ _ _ => fun a a' => a = a'
  | .handleNode _ _ _ _, .handleNode _ _ _ _ => fun a a' => a = a'
  | .runCapabilityStep _ _, .runCapabilityStep _ _ => fun a a' => a = a'
  | _, _ => fun _ _ => False

def sameCalls (P : Platform) : Correspondence Call Answer := ⟨sameCall P, sameAnswer⟩

/-! ### Environments that answer alike -/

/-- The environments answer the same, at every moment: the clock and the failures are the same, a
step whose input is listed in another order ends the same, and so does a node that is handed over. -/
structure SameOutcomes (env env' : Env) : Prop where
  fault : env.fault = env'.fault
  clock : env.clock = env'.clock
  step : ∀ tick i i', SameStep i i' → env.runCapabilityStep tick i = env'.runCapabilityStep tick i'
  node : ∀ tick order order' p q node node' state state', order = order' → SameTask node node' →
    SameState state state' →
      env.handleNode tick order p node state = env'.handleNode tick order' q node' state'

/-- The worlds differ at most in the texts that plan states are shown as. -/
structure SameWorld (w w' : World) : Prop where
  planStates : ∀ id, (w.planStates id).map PlanState.withoutProjection =
    (w'.planStates id).map PlanState.withoutProjection
  rest : { w with planStates := fun _ => none } = { w' with planStates := fun _ => none }

theorem SameWorld.tick {w w' : World} (h : SameWorld w w') : w.tick = w'.tick :=
  (congrArg World.tick h.rest :)

theorem SameWorld.runEvents {w w' : World} (h : SameWorld w w') : w.runEvents = w'.runEvents :=
  (congrArg World.runEvents h.rest :)

theorem SameWorld.next {w w' : World} (h : SameWorld w w') : SameWorld w.next w'.next :=
  ⟨h.planStates, congrArg World.next h.rest⟩

theorem SameWorld.setEvents {w w' : World} (h : SameWorld w w') (id : String) (events : List RunEvent) :
    SameWorld (w.setEvents id events) (w'.setEvents id events) :=
  ⟨h.planStates, congrArg (World.setEvents · id events) h.rest⟩

section SameState

variable {s s' : PlanState} (h : SameState s s')

include h

theorem SameState.planId : s.planId = s'.planId := (congrArg PlanState.planId h :)

theorem SameState.status : s.status = s'.status := (congrArg PlanState.status h :)

theorem SameState.digest : s.canonicalPlanDigest = s'.canonicalPlanDigest :=
  (congrArg PlanState.canonicalPlanDigest h :)

theorem SameState.nodeStates : s.nodeStates = s'.nodeStates := (congrArg PlanState.nodeStates h :)

theorem SameState.artifactRefs : s.artifactRefs = s'.artifactRefs := (congrArg PlanState.artifactRefs h :)

theorem SameState.createdAt : s.createdAt = s'.createdAt := (congrArg PlanState.createdAt h :)

end SameState

theorem SameWorld.setPlanState {w w' : World} (h : SameWorld w w') {s s' : PlanState}
    (hs : SameState s s') : SameWorld (w.setPlanState s) (w'.setPlanState s') := by
  refine ⟨?_, h.rest⟩
  intro id
  show (Function.update w.planStates s.planId (some s) id).map _ =
    (Function.update w'.planStates s'.planId (some s') id).map _
  rw [← hs.planId]
  by_cases hid : id = s.planId
  · rw [hid, Function.update_self, Function.update_self]
    exact congrArg some hs
  · rw [Function.update_of_ne hid, Function.update_of_ne hid]
    exact h.planStates id

theorem SameStep.planId {i i' : CapabilityStepInput} (h : SameStep i i') : i.planId = i'.planId :=
  (congrArg CapabilityStepInput.planId h.rest :)

theorem SameStep.body {i i' : CapabilityStepInput} (h : SameStep i i') (e : StepEvent) :
    e.body i = e.body i' := by
  have hnode : i.nodeId = i'.nodeId := (congrArg CapabilityStepInput.nodeId h.rest :)
  have hstep : i.stepId = i'.stepId := (congrArg CapabilityStepInput.stepId h.rest :)
  have hcapability : i.capabilityRef = i'.capabilityRef :=
    (congrArg CapabilityStepInput.capabilityRef h.rest :)
  unfold StepEvent.body stepAttemptId
  rw [hnode, hstep, hcapability, h.planId]

variable {P : Platform} {env env' : Env}

/-- What a call does, before failures, in related worlds. -/
theorem serve_same (h : SameOutcomes env env') {e e' : Call} {w w' : World} (he : sameCall P e e')
    (hw : SameWorld w w') :
    (sameCalls P).Answers e e' (serve P env e w).1 (serve P env' e' w').1 ∧
      SameWorld (serve P env e w).2 (serve P env' e' w').2 := by
  cases e with
  | clock =>
      cases e' with
      | clock =>
          refine ⟨?_, hw⟩
          show env.clock w.tick = env'.clock w'.tick
          rw [h.clock, hw.tick]
      | _ => cases he
  | getPlanState id =>
      cases e' with
      | getPlanState id' =>
          cases he
          exact ⟨hw.planStates id, hw⟩
      | _ => cases he
  | recordPlanState s =>
      cases e' with
      | recordPlanState s' => exact ⟨he, hw.setPlanState he⟩
      | _ => cases he
  | emitRunEvent l id b =>
      cases e' with
      | emitRunEvent l' id' b' =>
          obtain ⟨rfl, rfl, rfl⟩ := he
          cases l with
          | none => exact ⟨trivial, hw⟩
          | some l =>
              refine ⟨trivial, ?_⟩
              show SameWorld (w.setEvents _ _) (w'.setEvents _ _)
              rw [hw.runEvents]
              exact hw.setEvents _ _
      | _ => cases he
  | compileWorkOrder p id snapshot =>
      cases e' with
      | compileWorkOrder q id' snapshot' =>
          obtain ⟨-, -, horder⟩ := he
          refine ⟨?_, hw⟩
          show (sameCalls P).Answers (.compileWorkOrder p id snapshot) (.compileWorkOrder q id' snapshot')
            (compileWorkOrder P p id snapshot) (compileWorkOrder P q id' snapshot')
          rw [horder]
          cases compileWorkOrder P q id' snapshot' <;> exact rfl
      | _ => cases he
  | handleNode order p node state =>
      cases e' with
      | handleNode order' q node' state' =>
          obtain ⟨horder, hnode, hstate⟩ := he
          refine ⟨?_, hw⟩
          show (sameCalls P).Answers (.handleNode order p node state) (.handleNode order' q node' state')
            (env.handleNode w.tick order p node state) (env'.handleNode w'.tick order' q node' state')
          rw [hw.tick, h.node _ _ _ p q node node' state state' horder hnode hstate]
          cases env'.handleNode w'.tick order' q node' state' <;> exact rfl
      | _ => cases he
  | runCapabilityStep id i =>
      cases e' with
      | runCapabilityStep id' i' =>
          obtain ⟨rfl, hstep⟩ := he
          have hrun : env.runCapabilityStep w.tick i = env'.runCapabilityStep w'.tick i' := by
            rw [hw.tick, h.step _ i i' hstep]
          have hbody : ∀ e : StepEvent, e.body i = e.body i' := hstep.body
          cases id with
          | none =>
              refine ⟨?_, hw⟩
              show (sameCalls P).Answers (.runCapabilityStep none i) (.runCapabilityStep none i')
                (env.runCapabilityStep w.tick i).result (env'.runCapabilityStep w'.tick i').result
              rw [hrun]
              cases (env'.runCapabilityStep w'.tick i').result <;> exact rfl
          | some runId =>
              refine ⟨?_, ?_⟩
              · show (sameCalls P).Answers (.runCapabilityStep (some runId) i)
                  (.runCapabilityStep (some runId) i')
                  (env.runCapabilityStep w.tick i).result (env'.runCapabilityStep w'.tick i').result
                rw [hrun]
                cases (env'.runCapabilityStep w'.tick i').result <;> exact rfl
              · show SameWorld (w.setEvents _ _) (w'.setEvents _ _)
                rw [hrun, hw.runEvents, hstep.planId]
                simp only [hbody]
                exact hw.setEvents _ _
      | _ => cases he
  | _ => exact he.elim

theorem mayThrow_same {e e' : Call} (he : sameCall P e e') : e.mayThrow = e'.mayThrow := by
  cases e with
  | emitRunEvent l id b =>
      cases e' with
      | emitRunEvent l' id' b' =>
          obtain ⟨rfl, -, -⟩ := he
          cases l <;> rfl
      | _ => cases he
  | clock | getPlanState _ | recordPlanState _ | compileWorkOrder _ _ _ | handleNode _ _ _ _
    | runCapabilityStep _ _ => cases e' <;> first | rfl | cases he
  | _ => exact he.elim

/-- **Corresponding calls are answered alike in related worlds.** -/
theorem handle_same (h : SameOutcomes env env') {e e' : Call} {w w' : World} (he : sameCall P e e')
    (hw : SameWorld w w') :
    (sameCalls P).Answers e e' (handle P env e w).1 (handle P env' e' w').1 ∧
      SameWorld (handle P env e w).2 (handle P env' e' w').2 := by
  have hfault : env.faultAt e w = env'.faultAt e' w' := by
    unfold Env.faultAt
    rw [mayThrow_same he, h.fault, hw.tick]
  obtain ⟨hanswer, hserved⟩ := serve_same h he hw
  unfold handle
  rw [hfault]
  cases env'.faultAt e' w' with
  | none => exact ⟨hanswer, hserved.next⟩
  | before message => exact ⟨rfl, hw.next⟩
  | after message => exact ⟨rfl, hserved.next⟩

/-! ### Templates -/

/-- Outputs are put into a value wherever its properties are listed. -/
theorem sorted_resolveTemplates (outputs : Outputs) (v : Value) :
    (resolveTemplates outputs v).sorted = (resolveTemplates outputs v.sorted).sorted := by
  have hitems : ∀ items : List Value, resolveItems outputs items = items.map (resolveTemplates outputs) := by
    intro items
    induction items with
    | nil => rfl
    | cons item rest ih => rw [resolveItems, ih, List.map_cons]
  have hfields : ∀ fields : List (String × Value), resolveFields outputs fields =
      fields.map fun f => (f.1, resolveTemplates outputs f.2) := by
    intro fields
    induction fields with
    | nil => rfl
    | cons field rest ih =>
        obtain ⟨key, value⟩ := field
        rw [resolveFields, ih, List.map_cons]
  induction v using Value.parts with
  | undefined | null | bool _ | num _ | str _ | native _ => rfl
  | arr items ih =>
      rw [sorted_arr, resolveTemplates, resolveTemplates, hitems, hitems, sorted_arr, sorted_arr,
        List.map_map, List.map_map, List.map_map]
      exact congrArg Value.arr (List.map_congr_left ih)
  | obj fields ih =>
      rw [sorted_obj, resolveTemplates, resolveTemplates, hfields, hfields, sorted_obj, sorted_obj,
        ← sortFields_map, ← sortFields_map, sortFields_sorted, List.map_map, List.map_map, List.map_map]
      refine congrArg (fun fields => Value.obj (sortFields fields)) (List.map_congr_left fun f hf => ?_)
      exact Prod.ext rfl (ih f hf)

theorem resolveTemplates_same {outputs : Outputs} {v w : Value} (h : SameValue v w) :
    SameValue (resolveTemplates outputs v) (resolveTemplates outputs w) := by
  unfold SameValue at h ⊢
  rw [sorted_resolveTemplates outputs v, h, ← sorted_resolveTemplates outputs w]

variable {p q : Planfile}

theorem nodeInput_same (h : SameContent p q) (id : String) : SameValue (nodeInput p id) (nodeInput q id) := by
  have hnodes := h.contextField "nodes"
  unfold nodeInput
  cases hp : p.contextField "nodes" with
  | obj fields =>
      cases hq : q.contextField "nodes" with
      | obj fields' =>
          rw [hp, hq] at hnodes
          have hconfig := property_same hnodes id
          simp only
          cases hl : Value.property fields id with
          | obj config =>
              cases hr : Value.property fields' id with
              | obj config' =>
                  rw [hl, hr] at hconfig
                  have hinput := property_same hconfig "input"
                  simp only
                  rw [hinput.isNullish]
                  split
                  · exact .refl _
                  · exact hinput
              | _ => rw [hl, hr] at hconfig; cases hconfig
          | _ =>
              cases hr : Value.property fields' id <;> first
                | exact .refl _
                | rw [hl, hr] at hconfig; cases hconfig
      | _ => rw [hp, hq] at hnodes; cases hnodes
  | _ =>
      cases hq : q.contextField "nodes" <;> first
        | exact .refl _
        | rw [hp, hq] at hnodes; cases hnodes

/-! ### Work orders -/

/-- What a submitted plan lists of its nodes' earlier runs, as far as handlers are told. -/
def PlanNode.notes (n : PlanNode) : PlanNodeStatus × List String × List String :=
  (n.status, n.errors, n.artifacts.map (·.pathOrUri))

/-- A node is handed to a handler. -/
def HandsOver (o : PlanRunnerOptions) (plan : Planfile) : Prop :=
  ∃ node ∈ plan.nodes, o.handlers node.kind = true ∧ canCompleteStructuralNode node = false ∧
    canRunCapabilityStep node = false

theorem compileWorkOrder_same (h : SameContent p q) (hnotes : p.nodes.map (·.notes) = q.nodes.map (·.notes))
    (id : String) (snapshot : CapabilitySnapshot) :
    compileWorkOrder P p id snapshot = compileWorkOrder P q id snapshot := by
  have hpairs : ∀ {xs ys : List PlanNode}, List.Forall₂ SameTask xs ys →
      xs.map (·.notes) = ys.map (·.notes) →
        List.Forall₂ (fun a b => SameTask a b ∧ a.notes = b.notes) xs ys := by
    intro xs ys hnodes
    induction hnodes with
    | nil => exact fun _ => .nil
    | cons hab _ ih =>
        intro hnotes
        rw [List.map_cons, List.map_cons, List.cons.injEq] at hnotes
        exact .cons ⟨hab, hnotes.1⟩ (ih hnotes.2)
  have hboth := hpairs h.nodes hnotes
  have hfind := find?_of_forall₂ hboth (p := fun node => decide (node.id = id))
    (q := fun node => decide (node.id = id)) fun a b hab => by rw [hab.1.same (·.id) fun _ => rfl]
  unfold compileWorkOrder Planfile.node?
  rcases hfind with ⟨ha, hb⟩ | ⟨a, b, ha, hb, hab, hsame⟩
  · rw [ha, hb]
  · have hid := hab.same (·.id) fun _ => rfl
    have hkind := hab.same (·.kind) fun _ => rfl
    have hdepends := hab.same (·.dependsOn) fun _ => rfl
    have hstatus : a.status = b.status := congrArg Prod.fst hsame
    have herrors : a.errors = b.errors := congrArg (fun n => n.2.1) hsame
    have hacceptance : acceptanceForNode p a = acceptanceForNode q b := by
      unfold acceptanceForNode
      rw [hab.same (·.acceptanceRefs) fun _ => rfl, h.goalFrame]
    have hconstraints : constraintsForNode a = constraintsForNode b :=
      hab.same constraintsForNode fun _ => rfl
    have hinputs : ((p.nodes.filter (·.id ∈ a.dependsOn)).flatMap fun candidate =>
        candidate.artifacts.map (·.pathOrUri)) = (q.nodes.filter (·.id ∈ b.dependsOn)).flatMap
          fun candidate => candidate.artifacts.map (·.pathOrUri) := by
      refine flatMap_of_forall₂ (filter_of_forall₂ hboth fun c d hcd => ?_) fun c d hcd =>
        congrArg (fun n => n.2.2) hcd.2
      rw [hcd.1.same (·.id) fun _ => rfl, hdepends]
    rw [ha, hb]
    simp only [hid, hkind, hstatus, herrors, hacceptance, hconstraints, hinputs, h.planId, h.goalFrame,
      hab.same (·.objective) fun _ => rfl, hab.same (·.allowedCapabilityRefs) fun _ => rfl]

/-! ### The parts of a run -/

namespace PlanRunner

variable {o : PlanRunnerOptions} {a b : PlanNode} {s s' : PlanState} {outputs : Outputs}

/-- The programs make corresponding calls. -/
abbrev Alike (P : Platform) {α : Type} (Q : α → α → Prop) (left right : Program α) : Prop :=
  Prog.Alike (sameCalls P) Q left right

theorem alike_now : Alike P Eq (now o) (now o) := by
  unfold now
  cases o.now with
  | some instant => exact alike_done rfl
  | none => exact alike_perform trivial fun _ _ h => h

theorem alike_emit (h : SameContent p q) (body : RunEventBody) :
    Alike P (fun _ _ => True) (emit o p body) (emit o q body) := by
  unfold emit
  cases listener o with
  | none => exact alike_perform ⟨rfl, h.planId, rfl⟩ fun _ _ _ => trivial
  | some runId =>
      refine alike_bind alike_now fun timestamp _ heq => ?_
      subst heq
      exact alike_perform ⟨rfl, h.planId, rfl⟩ fun _ _ _ => trivial

theorem nodeBase_same (h : SameContent p q) (hab : SameTask a b) : nodeBase p a = nodeBase q b := by
  unfold nodeBase attemptId
  rw [h.planId, hab.same (·.id) fun _ => rfl, hab.same (·.title) fun _ => rfl]

theorem alike_emitNodeStarted (h : SameContent p q) (hab : SameTask a b) :
    Alike P (fun _ _ => True) (emitNodeStarted o p a) (emitNodeStarted o q b) := by
  unfold emitNodeStarted
  rw [nodeBase_same h hab]
  refine alike_bind (alike_emit h _) fun _ _ _ => ?_
  unfold emitPhaseStarted
  rw [nodeBase_same h hab, hab.same (·.kind) fun _ => rfl, hab.same (·.id) fun _ => rfl]
  cases b.kind <;> first
    | exact alike_emit h _
    | exact alike_done trivial

theorem nodeEvent_same (h : SameContent p q) (hab : SameTask a b) (outcome : NodeOutcome)
    (artifacts : List PlanArtifactRef) (errors : List String) (instant : String) :
    nodeEvent o p a outcome artifacts errors instant = nodeEvent o q b outcome artifacts errors instant := by
  unfold nodeEvent actionRunId
  rw [nodeBase_same h hab, hab.same (·.id) fun _ => rfl, h.planId]

theorem alike_emitArtifacts (h : SameContent p q) (hab : SameTask a b) (artifacts : List PlanArtifactRef) :
    Alike P (fun _ _ => True) (emitArtifacts o p a artifacts) (emitArtifacts o q b artifacts) := by
  induction artifacts with
  | nil => exact alike_done trivial
  | cons artifact rest ih =>
      have hone : Alike P (fun _ _ => True) (emitArtifact o p a artifact) (emitArtifact o q b artifact) := by
        unfold emitArtifact
        rw [hab.same (·.id) fun _ => rfl]
        split
        · exact alike_done trivial
        · exact alike_emit h _
      exact alike_bind hone fun _ _ _ => ih

theorem alike_emitPhaseCompleted (h : SameContent p q) (hab : SameTask a b) (outcome : NodeOutcome) :
    Alike P (fun _ _ => True) (emitPhaseCompleted o p a outcome) (emitPhaseCompleted o q b outcome) := by
  unfold emitPhaseCompleted
  rw [nodeBase_same h hab, hab.same (·.kind) fun _ => rfl, hab.same (·.id) fun _ => rfl]
  cases b.kind <;> first
    | exact alike_emit h _
    | exact alike_done trivial

theorem markedState_same (hs : SameState s s') (hab : SameTask a b) (outcome : NodeOutcome)
    (artifacts : List PlanArtifactRef) (errors : List String) (instant : String) :
    SameState (markedState P p s a outcome artifacts errors instant)
      (markedState P q s' b outcome artifacts errors instant) := by
  have hmarked : markedNodeStates s a outcome artifacts errors instant =
      markedNodeStates s' b outcome artifacts errors instant := by
    unfold markedNodeStates
    rw [hs.nodeStates, hab.same (·.id) fun _ => rfl]
  unfold SameState markedState PlanState.withoutProjection
  simp only [hmarked, hs.artifactRefs, hs.planId, hs.digest, hs.createdAt]

theorem runningState_same (hs : SameState s s') (hab : SameTask a b) (instant : String) :
    SameState (runningState s a instant) (runningState s' b instant) := by
  unfold SameState runningState PlanState.withoutProjection
  simp only [hs.nodeStates, hs.artifactRefs, hs.planId, hs.digest, hs.createdAt,
    hab.same (·.id) fun _ => rfl]

theorem alike_markNode (h : SameContent p q) (hab : SameTask a b) (hs : SameState s s')
    (outcome : NodeOutcome) (artifacts : List PlanArtifactRef) (errors : List String) :
    Alike P SameState (markNode P o p s a outcome artifacts errors)
      (markNode P o q s' b outcome artifacts errors) := by
  unfold markNode
  refine alike_bind alike_now fun instant _ heq => ?_
  subst heq
  refine alike_perform_bind (markedState_same hs hab outcome artifacts errors instant)
    fun recorded recorded' hrecorded => ?_
  rw [nodeEvent_same h hab]
  refine alike_bind (alike_emit h _) fun _ _ _ => ?_
  refine alike_bind (alike_emitArtifacts h hab artifacts) fun _ _ _ => ?_
  exact alike_bind (alike_emitPhaseCompleted h hab outcome) fun _ _ _ => alike_done hrecorded

theorem alike_markNodeRunning (hab : SameTask a b) (hs : SameState s s') :
    Alike P SameState (markNodeRunning o s a) (markNodeRunning o s' b) := by
  unfold markNodeRunning
  refine alike_bind alike_now fun instant _ heq => ?_
  subst heq
  exact alike_perform (runningState_same hs hab instant) fun _ _ h => h

theorem alike_stepArtifacts (artifactIds : List String) :
    Alike P Eq (stepArtifacts o artifactIds) (stepArtifacts o artifactIds) := by
  induction artifactIds with
  | nil => exact alike_done rfl
  | cons artifactId rest ih =>
      refine alike_bind alike_now fun instant _ heq => ?_
      subst heq
      refine alike_bind ih fun others _ heq => ?_
      subst heq
      exact alike_done rfl

theorem stepInput_same (h : SameContent p q) (hab : SameTask a b) (hs : SameState s s')
    (capabilityRef : String) (descriptor : CapabilityDescriptor) (context : DelegationContext) :
    SameStep (stepInput p s a outputs capabilityRef descriptor context)
      (stepInput q s' b outputs capabilityRef descriptor context) := by
  have hid := hab.same (·.id) fun _ => rfl
  have hinputs : inputArtifactRefs s a = inputArtifactRefs s' b := by
    unfold inputArtifactRefs
    rw [hs.nodeStates, hab.same (·.dependsOn) fun _ => rfl]
  have hdry : shouldDryRunNode p a = shouldDryRunNode q b := by
    unfold shouldDryRunNode
    rw [hab.same (·.executionMode) fun _ => rfl, h.mode]
  refine ⟨?_, ?_⟩
  · show SameValue (resolveTemplates outputs (nodeInput p a.id)) (resolveTemplates outputs (nodeInput q b.id))
    rw [hid]
    exact resolveTemplates_same (nodeInput_same h b.id)
  · unfold stepInput
    simp only [hid, hinputs, hdry, h.planId]

theorem alike_runCapabilityNode (h : SameContent p q) (hab : SameTask a b) (hs : SameState s s') :
    Alike P Eq (runCapabilityNode P o p s a outputs) (runCapabilityNode P o q s' b outputs) := by
  have hrefs : a.allowedCapabilityRefs = b.allowedCapabilityRefs :=
    hab.same (·.allowedCapabilityRefs) fun _ => rfl
  unfold runCapabilityNode resolvedCapability
  simp only [hrefs]
  cases resolveCapabilityForStep (o.registry.getD P.registry) P.localeCompare
      (b.allowedCapabilityRefs.headD "") with
  | none => exact alike_fail
  | some descriptor =>
      cases o.delegationContext with
      | none => exact alike_fail
      | some context =>
          have hstep : SameStep (stepInput p s a outputs (a.allowedCapabilityRefs.headD "") descriptor context)
              (stepInput q s' b outputs (b.allowedCapabilityRefs.headD "") descriptor context) := by
            rw [hrefs]
            exact stepInput_same h hab hs _ descriptor context
          exact alike_perform ⟨rfl, hstep⟩ fun _ _ h => h

/-- Work on the two nodes is alike, and so is what it produces. -/
theorem alike_workOn (h : SameContent p q) (hab : SameTask a b) (hs : SameState s s') (ha : a ∈ p.nodes)
    (hnotes : HandsOver o p → p.nodes.map (·.notes) = q.nodes.map (·.notes)) :
    Alike P Eq (workOn P o p s a outputs) (workOn P o q s' b outputs) := by
  have hid := hab.same (·.id) fun _ => rfl
  have hkind := hab.same (·.kind) fun _ => rfl
  have hstructural : canCompleteStructuralNode a = canCompleteStructuralNode b :=
    hab.same canCompleteStructuralNode fun _ => rfl
  have hcapability : canRunCapabilityStep a = canRunCapabilityStep b :=
    hab.same canRunCapabilityStep fun _ => rfl
  unfold workOn
  rw [← hstructural, ← hcapability, ← hkind, ← hid]
  by_cases hfree : canCompleteStructuralNode a = true
  · rw [if_pos hfree, if_pos hfree]
    exact alike_done rfl
  rw [if_neg hfree, if_neg hfree]
  by_cases hstep : canRunCapabilityStep a = true
  · rw [if_pos hstep, if_pos hstep]
    refine alike_bind (alike_runCapabilityNode h hab hs) fun result _ heq => ?_
    subst heq
    refine alike_bind (alike_stepArtifacts _) fun artifacts _ heq => ?_
    subst heq
    exact alike_done rfl
  rw [if_neg hstep, if_neg hstep]
  by_cases hhandler : o.handlers a.kind = true
  · rw [if_pos hhandler, if_pos hhandler]
    have hsame := hnotes ⟨a, ha, hhandler, Bool.eq_false_iff.mpr hfree, Bool.eq_false_iff.mpr hstep⟩
    refine alike_perform_bind ⟨rfl, rfl, compileWorkOrder_same h hsame a.id _⟩ fun order order' horder => ?_
    refine alike_perform_bind ⟨horder, hab, hs⟩ fun result result' hresult => ?_
    have heq : result = result' := hresult
    subst heq
    exact alike_done rfl
  · rw [if_neg hhandler, if_neg hhandler]
    exact alike_done rfl

/-- The results of a run correspond. -/
def SameResult (r r' : PlanRunnerExecutionResult) : Prop := SameState r.state r'.state ∧ r.outputs = r'.outputs

theorem alike_runRound (h : SameContent p q) (hab : SameTask a b) (hs : SameState s s') (ha : a ∈ p.nodes)
    (hnotes : HandsOver o p → p.nodes.map (·.notes) = q.nodes.map (·.notes)) :
    Alike P SameResult (runRound P o p s a outputs) (runRound P o q s' b outputs) := by
  unfold runRound
  refine alike_bind (alike_emitNodeStarted h hab) fun _ _ _ => ?_
  refine alike_bind (alike_markNodeRunning hab hs) fun running running' hrunning => ?_
  refine alike_bind (alike_workOn h hab hrunning ha hnotes) fun work _ heq => ?_
  subst heq
  refine alike_bind (alike_markNode h hab hrunning _ _ _) fun marked marked' hmarked => ?_
  exact alike_done ⟨hmarked, rfl⟩

theorem readyNodes_same (h : SameContent p q) (hs : SameState s s') :
    List.Forall₂ SameTask (readyNodes p s) (readyNodes q s') := by
  unfold readyNodes
  simp only [hs.nodeStates]
  refine filter_of_forall₂ h.nodes fun a b hab => ?_
  rw [hab.same (·.id) fun _ => rfl, hab.same (·.dependsOn) fun _ => rfl]

theorem alike_runRounds (h : SameContent p q) (hs : SameState s s')
    (hnotes : HandsOver o p → p.nodes.map (·.notes) = q.nodes.map (·.notes)) (rounds : Nat) :
    Alike P SameResult (runRounds P o p rounds s outputs) (runRounds P o q rounds s' outputs) := by
  induction rounds generalizing s s' outputs with
  | zero => exact alike_done ⟨hs, rfl⟩
  | succ rounds ih =>
      have hready := readyNodes_same h hs
      have hmem : ∀ node ∈ readyNodes p s, node ∈ p.nodes := fun node hnode => List.mem_of_mem_filter hnode
      unfold runRounds
      generalize readyNodes p s = ready at hready hmem
      generalize readyNodes q s' = ready' at hready
      cases hready with
      | nil => exact alike_done ⟨hs, rfl⟩
      | cons hab _ =>
          refine alike_bind (alike_runRound h hab hs (hmem _ List.mem_cons_self) hnotes)
            fun round round' hround => ?_
          obtain ⟨hstate, houtputs⟩ := hround
          rw [hstate.status]
          split
          · exact alike_done ⟨hstate, houtputs⟩
          · rw [houtputs]
            exact ih hstate

/-- The plans that the runner accepts have the same content, and the same digest. -/
structure SameAccepted (p q : Planfile) : Prop extends SameContent p q where
  digest : p.canonicalPlanDigest = q.canonicalPlanDigest

theorem initialPlanState_same (h : SameAccepted p q) (instant : String) :
    SameState (initialPlanState P p instant) (initialPlanState P q instant) := by
  have hnodes : ∀ f : PlanNode → PlanNodeState, (∀ n, f n.withoutRunState = f n) →
      p.nodes.map f = q.nodes.map f := fun f hf => h.map_nodes f hf
  unfold SameState initialPlanState createInitialPlanState PlanState.withoutProjection
  simp only [List.map_map, h.planId, h.artifactRefs, h.digest]
  rw [hnodes _ fun _ => rfl]

theorem accept_same (hsha : ∀ text, isSha256Hex (P.sha256 text) = true) (h : SameContent p q)
    (hp : p.refined P.isDatetime = true) (hq : q.refined P.isDatetime = true) :
    (∃ message, accept P o p = .error message ∧ accept P o q = .error message) ∨
      accept P o p = .ok (withCanonicalPlanDigest P.sha256 p) ∧
        accept P o q = .ok (withCanonicalPlanDigest P.sha256 q) := by
  have hvalidation : validatePlanfile P (some o.capabilitySnapshot) (withCanonicalPlanDigest P.sha256 p) =
      validatePlanfile P (some o.capabilitySnapshot) (withCanonicalPlanDigest P.sha256 q) := by
    have hcontent : SameContent (withCanonicalPlanDigest P.sha256 p) (withCanonicalPlanDigest P.sha256 q) :=
      ⟨h.planId, h.goalFrame, h.mode, h.nodes, h.edges, h.approvalPolicy, h.verificationPolicy, h.context,
        h.artifactRefs⟩
    exact hcontent.validatePlanfile (refined_withDigest hsha hp) (refined_withDigest hsha hq) _
  unfold accept
  rw [if_pos hp, if_pos hq]
  simp only
  rw [hvalidation]
  split
  · exact Or.inr ⟨rfl, rfl⟩
  · exact Or.inl ⟨_, rfl, rfl⟩

section Whole

variable (hsha : ∀ text, isSha256Hex (P.sha256 text) = true) (h : SameContent p q)
  (hp : p.refined P.isDatetime = true) (hq : q.refined P.isDatetime = true)
  (hdigest : canonicalPlanDigest P.sha256 p = canonicalPlanDigest P.sha256 q)

include hsha h hp hq hdigest

omit hsha hp hq in
theorem sameAccepted :
    SameAccepted (withCanonicalPlanDigest P.sha256 p) (withCanonicalPlanDigest P.sha256 q) :=
  ⟨⟨h.planId, h.goalFrame, h.mode, h.nodes, h.edges, h.approvalPolicy, h.verificationPolicy, h.context,
    h.artifactRefs⟩, congrArg some hdigest⟩

theorem alike_load : Alike P SameState (load P o p) (load P o q) := by
  unfold load
  rcases accept_same (o := o) hsha h hp hq with ⟨message, hleft, hright⟩ | ⟨hleft, hright⟩
  · rw [hleft, hright]
    exact alike_fail
  · rw [hleft, hright]
    have haccepted := sameAccepted (P := P) h hdigest
    refine alike_bind alike_now fun instant _ heq => ?_
    subst heq
    refine alike_perform_bind (initialPlanState_same haccepted instant) fun recorded recorded' hrecorded => ?_
    exact alike_bind (alike_emit haccepted.toSameContent _) fun _ _ _ => alike_done hrecorded

theorem alike_storedOrLoad : Alike P SameState (storedOrLoad P o (withCanonicalPlanDigest P.sha256 p))
    (storedOrLoad P o (withCanonicalPlanDigest P.sha256 q)) := by
  have haccepted := sameAccepted (P := P) h hdigest
  unfold storedOrLoad
  refine alike_perform_bind haccepted.planId fun stored stored' hstored => ?_
  have hmap : stored.map PlanState.withoutProjection = stored'.map PlanState.withoutProjection := hstored
  cases stored with
  | none =>
      rw [Option.map_none, eq_comm, Option.map_eq_none_iff] at hmap
      rw [hmap]
      exact alike_load hsha haccepted.toSameContent (refined_withDigest hsha hp) (refined_withDigest hsha hq)
        hdigest
  | some state =>
      rw [Option.map_some, eq_comm, Option.map_eq_some_iff] at hmap
      obtain ⟨state', rfl, hstate⟩ := hmap
      exact alike_done hstate.symm

theorem alike_runToCompletion (hnotes : HandsOver o p → p.nodes.map (·.notes) = q.nodes.map (·.notes)) :
    Alike P SameResult (runToCompletion P o p) (runToCompletion P o q) := by
  unfold runToCompletion
  rcases accept_same (o := o) hsha h hp hq with ⟨message, hleft, hright⟩ | ⟨hleft, hright⟩
  · rw [hleft, hright]
    exact alike_fail
  · rw [hleft, hright]
    have haccepted := sameAccepted (P := P) h hdigest
    refine alike_bind (alike_storedOrLoad hsha h hp hq hdigest) fun state state' hstate => ?_
    refine alike_bind (alike_emit haccepted.toSameContent _) fun _ _ _ => ?_
    have hlength : (withCanonicalPlanDigest P.sha256 q).nodes.length =
        (withCanonicalPlanDigest P.sha256 p).nodes.length := h.nodes.length_eq.symm
    rw [hlength]
    refine alike_bind (alike_runRounds haccepted.toSameContent hstate hnotes _) fun result result' hresult => ?_
    refine alike_bind (Q := fun _ _ => True) ?_ fun _ _ _ => alike_done hresult
    unfold announceEnd nodeErrors actionRunId
    rw [hresult.1.status, hresult.1.artifactRefs, hresult.1.nodeStates, haccepted.planId]
    cases result'.state.status <;> first
      | exact alike_done trivial
      | exact alike_emit haccepted.toSameContent _
      | exact alike_bind alike_now fun instant _ heq => heq ▸ alike_emit haccepted.toSameContent _

end Whole

end PlanRunner

end OpenLagrange
