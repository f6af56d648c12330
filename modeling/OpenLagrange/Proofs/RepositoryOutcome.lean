/-
When a repository run may call itself completed.

The status of the plan is computed anew whenever a node is marked, and the walk stops on the
outcome of a node alone.  So it matters that a node which goes on has no errors.  That holds for
all nodes but one kind: a repair node goes on whether its patch was applied or not, and after it
the plan can still become completed.  In runs whose repair patches are applied, a node that ends
with errors is the last one, and a completed run has only clean nodes.
-/
import OpenLagrange.Proofs.RepositoryOrder

namespace OpenLagrange

open RepositoryPlanRunner

/-! ### What the statuses say -/

/-- The node that the run is at has ended with errors, or has failed. -/
def RepositoryPlanStatus.endsBadly (status : RepositoryPlanStatus) : Bool :=
  status.status = .running ∧ status.planState.any fun state =>
    state.nodeStates.any fun item =>
      some item.nodeId = status.currentNode ∧ (item.errors ≠ [] ∨ item.status = .failed)

/-- The status, or its state of the plan, is completed. -/
def RepositoryPlanStatus.completes (status : RepositoryPlanStatus) : Bool :=
  status.status = .completed ∨ status.planState.any (·.status = .completed)

def RepositoryCall.endsBadly : RepositoryCall → Bool
  | .writeStatus status => status.endsBadly
  | _ => false

def RepositoryCall.completes : RepositoryCall → Bool
  | .recordPlanState state => state.status = .completed
  | .writeStatus status => status.completes
  | _ => false

/-- Nothing is completed after a node ended badly. -/
def NeverCompletesAfter (calls : List RepositoryCall) : Prop :=
  calls.Pairwise fun earlier later => earlier.endsBadly = true → later.completes = false

/-- Every node of the plan is completed or skipped, and none has errors. -/
def FinishedClean (plan : Planfile) (state : PlanState) : Prop :=
  (∀ node ∈ plan.nodes, node.id ∈ state.ids) ∧
    ∀ item ∈ state.nodeStates, item.status.isDone = true ∧ item.errors = []

/-- What the statuses of a run have to say. -/
def StatusesTrue {S : Type} (plan : Planfile)
    (e : Prog.Exec S RepositoryCall RepositoryPlanRunnerResult) : Prop :=
  NeverCompletesAfter (e.trace.map (·.2)) ∧
    ∀ result, e.outcome = .ok result → result.status.status = .completed →
      FinishedClean plan result.state

variable {P : RepositoryPlatform} {o : RepositoryPlanRunnerOptions} {r : RepositoryRunner}
  {x : Execution} {node : PlanNode} {start state : PlanState} {S : Type}
  {h : Prog.Handler RepositoryCall RepositoryAnswer S} {s : S}

/-! ### Clean nodes -/

/-- The nodes that are not to be walked any more are done without errors. -/
def CleanBut (remaining : List String) (state : PlanState) : Prop :=
  ∀ item ∈ state.nodeStates,
    item.nodeId ∈ remaining ∨ (item.status.isDone = true ∧ item.errors = [])

/-- What the run starts from lists the plan, and what it does not walk is clean. -/
def StartsClean (P : RepositoryPlatform) (o : RepositoryPlanRunnerOptions) (r : RepositoryRunner) :
    Prop :=
  (∀ node ∈ r.plan.nodes, node.id ∈ (startState P o r).ids) ∧
    CleanBut ((nodesForRun o r).map (·.id)) (startState P o r)

/-- A run that resumes nothing starts clean. -/
theorem startsClean_fresh (hinitial : o.initialStatus = none) (hresume : o.resumeFromNodeId = none) :
    StartsClean P o r := by
  have hnodes : nodesForRun o r = r.plan.nodes := by
    unfold nodesForRun
    rw [hresume]
    rfl
  have hids : (startState P o r).ids = r.plan.nodes.map (·.id) := by
    unfold startState
    rw [hinitial]
    simp [PlanState.ids, createInitialPlanState]
  refine ⟨fun node hnode => ?_, fun item hitem => Or.inl ?_⟩
  · rw [hids]
    exact List.mem_map_of_mem hnode
  · rw [hnodes, ← hids]
    exact List.mem_map_of_mem hitem

/-- A status that ends the walk. -/
def PlanStatus.Stopped (status : PlanStatus) : Prop := status = .failed ∨ status = .yielded

theorem cleanBut_next {running marked : PlanState} {rest : List String}
    {result : RepositoryNodeResult} (hstate : CleanBut (node.id :: rest) state)
    (hrunning : MarkedFrom P r.plan state node.id .running [] [] running)
    (hmarked : MarkedFrom P r.plan running node.id result.status.status result.artifactRefs
      result.errors marked)
    (hdone : result.status.status.isDone = true) (herrors : result.errors = []) :
    CleanBut rest marked := by
  intro item hitem
  rcases hmarked.mem hitem with ⟨-, hstatus, herror⟩ | ⟨hitem, hother⟩
  · refine Or.inr ⟨?_, herror.trans herrors⟩
    rw [hstatus]
    exact hdone
  · rcases hrunning.mem hitem with ⟨hsame, -⟩ | ⟨hitem, -⟩
    · exact (hother hsame).elim
    · rcases hstate item hitem with hin | hclean
      · rcases List.mem_cons.mp hin with hsame | hin
        · exact (hother hsame).elim
        · exact Or.inl hin
      · exact Or.inr hclean

/-- A node that has failed or yielded stops the plan. -/
theorem MarkedFrom.stopped {marked : PlanState} {nodeId : String} {outcome : NodeOutcome}
    {artifacts : List PlanArtifactRef} {errors : List String}
    (hmarked : MarkedFrom P r.plan state nodeId outcome.status artifacts errors marked)
    (hhalts : outcome = .failed ∨ outcome = .yielded) : marked.status.Stopped := by
  obtain ⟨completedAt, updatedAt, rfl⟩ := hmarked
  rcases hhalts with rfl | rfl
  · exact Or.inl rfl
  · exact Or.inr rfl

/-! ### Statuses at a node -/

theorem endsBadly_congr {a b : RepositoryPlanStatus} (hab : a.SameCourse b) :
    b.endsBadly = a.endsBadly := by
  unfold RepositoryPlanStatus.endsBadly
  rw [hab.status, hab.currentNode, hab.planState]

/-- A status at a node whose state is clean does not say that it ended badly. -/
theorem endsBadly_false (node : PlanNode) (state : PlanState) {status : RepositoryPlanStatus}
    (hcurrent : status.currentNode = some node.id)
    (hstate : status.planState = some state)
    (hclean : ∀ item ∈ state.nodeStates, item.nodeId = node.id →
      item.errors = [] ∧ item.status ≠ .failed) : status.endsBadly = false := by
  unfold RepositoryPlanStatus.endsBadly
  rw [hcurrent, hstate]
  rw [decide_eq_false_iff_not]
  rintro ⟨-, hany⟩
  obtain ⟨item, hitem, hbad⟩ := List.any_eq_true.mp hany
  simp only [Option.some.injEq, decide_eq_true_eq] at hbad
  obtain ⟨hsame, hbad⟩ := hbad
  obtain ⟨herrors, hfailed⟩ := hclean item hitem hsame
  rcases hbad with hbad | hbad
  · exact hbad herrors
  · exact hfailed hbad

/-- The calls that say nothing bad. -/
def SaysNothingBad (call : RepositoryCall) : Prop := call.endsBadly = false

/-- A program that says nothing bad, with the repair patches applied. -/
abbrev Fair {α : Type} (Q : α → Prop) (program : RepositoryProgram α) : Prop :=
  Prog.Obeys SaysNothingBad (RepairsApply True) Q program

theorem fair_of_nodeCall {α : Type} {Q : α → Prop} {c : RepositoryPlanStatus}
    {program : RepositoryProgram α} (hc : c.endsBadly = false)
    (h : InNode c (RepairsApply True) Q program) : Fair Q program := by
  refine h.mono (fun call hcall => ?_) (fun _ _ ha => ha) fun _ ha => ha
  cases call with
  | writeStatus status =>
      show status.endsBadly = false
      rw [endsBadly_congr hcall]
      exact hc
  | _ => rfl

theorem fair_await {call : RepositoryCall} (hcall : call.endsBadly = false) :
    Fair (fun _ => True) (await call) :=
  Prog.obeys_perform hcall fun _ _ => trivial

/-! ### The walk -/

/-- How a walk ends: stopped, in a state that its status shows, or with the nodes it walked clean. -/
def WalkEnd (out : PlanState × Execution) : Prop :=
  (out.1.status.Stopped ∧ out.2.status.planState = some out.1) ∨ CleanBut [] out.1

/-- Only the last call of a walk can say that a node ended badly, and then the plan is stopped. -/
def BadLast (e : Prog.Exec S RepositoryCall (PlanState × Execution)) : Prop :=
  ∃ before last, e.trace = before ++ last ∧ (∀ call ∈ before, SaysNothingBad call.2) ∧
    (last = [] ∨ (last.length = 1 ∧ ∀ out, e.outcome = .ok out →
      out.1.status.Stopped ∧ out.2.status.planState = some out.1))

/-- A first part that says nothing bad is passed over. -/
theorem badLast_bind {α : Type} {Q : α → Prop} {program : RepositoryProgram α}
    {f : α → RepositoryProgram (PlanState × Execution)}
    (hans : Prog.Along h (RepairsApply True) (program.bind f) s) (hp : Fair Q program)
    (hf : ∀ a s', Q a → Prog.Along h (RepairsApply True) (f a) s' →
      BadLast (Prog.exec h (f a) s')) : BadLast (Prog.exec h (program.bind f) s) := by
  obtain ⟨hquiet, hQ⟩ := hp.exec_along hans.left
  cases hout : (Prog.exec h program s).outcome with
  | error message =>
      rw [Prog.exec_bind_error h f hout]
      exact ⟨_, [], (List.append_nil _).symm, hquiet, Or.inl rfl⟩
  | ok a =>
      obtain ⟨before, last, htrace, hbefore, hlast⟩ := hf a _ (hQ a hout) (hans.right hout)
      rw [Prog.exec_bind_ok h f hout]
      refine ⟨(Prog.exec h program s).trace ++ before, last, ?_, ?_, hlast⟩
      · rw [htrace, List.append_assoc]
      · intro call hcall
        rcases List.mem_append.mp hcall with hcall | hcall
        · exact hquiet call hcall
        · exact hbefore call hcall

/-- The status that is written when a node stops the walk. -/
theorem badLast_stopped {marked : PlanState} {patch : RepositoryPlanStatus → RepositoryPlanStatus}
    (hans : Prog.Along h (RepairsApply True)
      ((writeStatus x patch).bind fun w => .done (marked, w)) s)
    (hstopped : marked.status.Stopped) (hplan : ∀ status, (patch status).planState = some marked) :
    BadLast (Prog.exec h ((writeStatus x patch).bind fun w => .done (marked, w)) s) := by
  unfold writeStatus at hans ⊢
  rw [Prog.bind_eq, Prog.bind_assoc] at hans ⊢
  refine badLast_bind hans (fair_await rfl) fun updatedAt s' _ _ => ?_
  dsimp only
  rw [Prog.bind_eq, Prog.bind_assoc]
  cases hwritten : h (.writeStatus { patch x.status with updatedAt }) s' with
  | mk answer s'' =>
      cases answer with
      | ok a =>
          rw [Prog.exec_perform_bind_ok h _ hwritten]
          refine ⟨[], _, rfl, by simp, Or.inr ⟨rfl, ?_⟩⟩
          intro out hout
          cases hout
          exact ⟨hstopped, hplan x.status⟩
      | error message =>
          rw [Prog.exec_perform_bind_error h _ hwritten]
          refine ⟨[], _, rfl, by simp, Or.inr ⟨rfl, ?_⟩⟩
          intro out hout
          cases hout

/-- Where the walk is at a node: the facts that working on it keeps. -/
theorem fair_startNode {running : PlanState}
    (hrunning : MarkedFrom P r.plan state node.id .running [] [] running) :
    Fair (fun y => y.status.currentNode = some node.id ∧ y.status.endsBadly = false)
      (writeStatus x (startedNodeStatus node running)) := by
  have hstarted : ∀ updatedAt, RepositoryPlanStatus.endsBadly
      { startedNodeStatus node running x.status with updatedAt } = false := by
    intro updatedAt
    refine endsBadly_false node running rfl rfl ?_
    intro item hitem hsame
    rcases hrunning.mem hitem with ⟨-, hstatus, herrors⟩ | ⟨-, hother⟩
    · refine ⟨herrors, ?_⟩
      rw [hstatus]
      nofun
    · exact (hother hsame).elim
  refine (writeStatus_obeys (φ := SaysNothingBad) rfl hstarted).mono (fun _ h => h) (fun _ _ h => h) ?_
  rintro y ⟨-, updatedAt, hy⟩
  rw [hy]
  exact ⟨rfl, hstarted updatedAt⟩

theorem fair_markNode {status : PlanNodeStatus} {artifacts : List PlanArtifactRef}
    {errors : List String} :
    Fair (MarkedFrom P r.plan state node.id status artifacts errors)
      (markNode P r state node status artifacts errors) :=
  markNode_obeys rfl fun _ _ => rfl

/-- Working on a node: it stays the current one, and it is clean if it goes on. -/
theorem fair_runNode {y : Execution} (hy : y.status.endsBadly = false) :
    Fair (fun made => made.1.Clean True ∧ made.2.status.currentNode = y.status.currentNode)
      (runNode P o r node y) := by
  have hnode : InNode y.status (RepairsApply True) (EndsOn y.status True) (runNode P o r node y) :=
    inNode_runNode ⟨rfl, rfl, rfl⟩
  refine (fair_of_nodeCall hy hnode).mono (fun _ h => h) (fun _ _ h => h) ?_
  rintro made ⟨hclean, hcourse⟩
  exact ⟨hclean, hcourse.currentNode⟩

/-- A node that goes on says nothing bad. -/
theorem fair_endNode {marked running : PlanState} {result : RepositoryNodeResult} {z : Execution}
    (hcurrent : z.status.currentNode = some node.id)
    (hmarked : MarkedFrom P r.plan running node.id result.status.status result.artifactRefs
      result.errors marked)
    (hgoes : ¬ (result.status = .failed ∨ result.status = .yielded))
    (hclean : result.Clean True) :
    Fair (fun _ => True) (writeStatus z (endedStatus r node marked result z.memory)) := by
  have herrors : result.errors = [] := by
    rcases hclean with hfailed | hyielded | hclean
    · exact (hgoes (Or.inl hfailed)).elim
    · exact (hgoes (Or.inr hyielded)).elim
    · exact hclean trivial
  refine (writeStatus_obeys (φ := SaysNothingBad) rfl fun updatedAt => ?_).mono (fun _ h => h)
    (fun _ _ h => h) fun _ _ => trivial
  have hcourse := endedStatus_course r node marked result z.memory z.status
  refine endsBadly_false node marked ?_ hcourse.2.1 ?_
  · exact hcourse.1.trans hcurrent
  · intro item hitem hsame
    rcases hmarked.mem hitem with ⟨-, hstatus, herror⟩ | ⟨-, hother⟩
    · refine ⟨herror.trans herrors, ?_⟩
      rw [hstatus]
      revert hgoes
      cases result.status <;> simp [NodeOutcome.status]
    · exact (hother hsame).elim

theorem isDone_of_goes {outcome : NodeOutcome}
    (hgoes : ¬ (outcome = .failed ∨ outcome = .yielded)) : outcome.status.isDone = true := by
  revert hgoes
  cases outcome <;> simp [NodeOutcome.status, PlanNodeStatus.isDone]

theorem RepositoryNodeResult.Clean.errors {result : RepositoryNodeResult}
    (hclean : result.Clean True) (hgoes : ¬ (result.status = .failed ∨ result.status = .yielded)) :
    result.errors = [] := by
  rcases hclean with hfailed | hyielded | hclean
  · exact (hgoes (Or.inl hfailed)).elim
  · exact (hgoes (Or.inr hyielded)).elim
  · exact hclean trivial

/-- **Only the last node of a walk can end badly.** -/
theorem runNodes_badLast (nodes : List PlanNode) (state : PlanState) (x : Execution) (s : S)
    (hans : Prog.Along h (RepairsApply True) (runNodes P o r nodes state x) s) :
    BadLast (Prog.exec h (runNodes P o r nodes state x) s) := by
  induction nodes generalizing state x s with
  | nil => exact ⟨[], [], rfl, by simp, Or.inl rfl⟩
  | cons node rest ih =>
      unfold runNodes at hans ⊢
      refine badLast_bind hans fair_markNode fun running s₁ hrunning hans₁ => ?_
      refine badLast_bind hans₁ (fair_startNode hrunning) fun y s₂ hy hans₂ => ?_
      refine badLast_bind hans₂ (fair_runNode hy.2) ?_
      rintro ⟨result, z⟩ s₃ ⟨hclean, hcurrent⟩ hans₃
      refine badLast_bind hans₃ fair_markNode fun marked s₄ hmarked hans₄ => ?_
      by_cases hhalts : result.status = .failed ∨ result.status = .yielded
      · simp only [if_pos hhalts] at hans₄ ⊢
        exact badLast_stopped hans₄ (hmarked.stopped hhalts) fun status =>
          (endedStatus_course r node marked result z.memory status).2.1
      · simp only [if_neg hhalts] at hans₄ ⊢
        refine badLast_bind hans₄
          (fair_endNode (hcurrent.trans hy.1) hmarked hhalts hclean) fun w s₅ _ hans₅ => ?_
        exact ih marked w s₅ hans₅

/-- A walk that is not stopped leaves only clean nodes. -/
theorem runNodes_walkEnd (nodes : List PlanNode) (state : PlanState) (x : Execution)
    (hstate : CleanBut (nodes.map (·.id)) state) :
    Prog.Obeys (fun _ => True) (RepairsApply True) WalkEnd (runNodes P o r nodes state x) := by
  induction nodes generalizing state x with
  | nil => exact Or.inr hstate
  | cons node rest ih =>
      unfold runNodes
      refine Prog.obeys_bind (markNode_obeys trivial fun _ _ => trivial) fun running hrunning => ?_
      refine Prog.obeys_bind (Q := fun _ => True)
        ((writeStatus_obeys trivial fun _ => trivial).mono (fun _ h => h) (fun _ _ h => h)
          fun _ _ => trivial) fun y _ => ?_
      have hnode : InNode y.status (RepairsApply True) (EndsOn y.status True)
          (runNode P o r node y) := inNode_runNode ⟨rfl, rfl, rfl⟩
      refine Prog.obeys_bind (hnode.mono (fun _ _ => trivial) (fun _ _ h => h) fun _ h => h) ?_
      rintro ⟨result, z⟩ ⟨hclean, -⟩
      refine Prog.obeys_bind (markNode_obeys trivial fun _ _ => trivial) fun marked hmarked => ?_
      refine Prog.obeys_bind (writeStatus_obeys trivial fun _ => trivial) ?_
      rintro w ⟨-, updatedAt, hw⟩
      split
      · rename_i hhalts
        refine Prog.obeys_done (Or.inl ⟨hmarked.stopped hhalts, ?_⟩)
        rw [hw]
        exact (endedStatus_course r node marked result z.memory z.status).2.1
      · rename_i hgoes
        exact ih marked w (cleanBut_next hstate hrunning hmarked (isDone_of_goes hgoes)
          (RepositoryNodeResult.Clean.errors hclean hgoes))

/-! ### The end of the run -/

/-- The last part of a run, after the walk. -/
theorem finish_obeys {φ : RepositoryCall → Prop}
    {ψ : (call : RepositoryCall) → RepositoryAnswer call → Prop}
    (hcall : ∀ call, call.endsBadly = false → call.completes = false → φ call)
    (hwrite : ∀ status : RepositoryPlanStatus, status.status = finalRunStatus state.status →
      status.planState = x.status.planState → φ (.writeStatus status)) :
    Prog.Obeys φ ψ (fun result => result.state = state ∧
      result.status.status = finalRunStatus state.status) (finish r state x) := by
  unfold finish
  refine Prog.obeys_bind (Q := fun _ => True)
    (Prog.obeys_perform (hcall _ rfl rfl) fun _ _ => trivial) fun finalPatch _ => ?_
  refine Prog.obeys_bind (recordArtifact_obeys (hcall _ rfl rfl)) ?_
  rintro ⟨finalArtifact, y⟩ ⟨hy, -⟩
  refine Prog.obeys_bind (Q := fun _ => True)
    (Prog.obeys_perform (hcall _ rfl rfl) fun _ _ => trivial) fun updatedAt _ => ?_
  refine Prog.obeys_bind (writeStatus_obeys (hcall _ rfl rfl) fun now => ?_) ?_
  · refine hwrite _ rfl ?_
    show y.status.planState = x.status.planState
    rw [hy]
  · rintro z ⟨-, now, hz⟩
    refine Prog.obeys_bind (Q := fun _ => True)
      (Prog.obeys_perform (hcall _ rfl rfl) fun _ _ => trivial) fun _ _ => Prog.obeys_done ⟨rfl, ?_⟩
    rw [hz]

theorem finalRunStatus_stopped {status : PlanStatus} (hstopped : status.Stopped) :
    finalRunStatus status ≠ .completed ∧ status ≠ .completed := by
  rcases hstopped with rfl | rfl
  · exact ⟨nofun, nofun⟩
  · exact ⟨nofun, nofun⟩

/-- The end of a run is not at a node. -/
theorem finish_fair : Fair (fun result => result.state = state ∧
    result.status.status = finalRunStatus state.status) (finish r state x) := by
  refine finish_obeys (fun _ hcall _ => hcall) fun status hstatus _ => ?_
  show status.endsBadly = false
  unfold RepositoryPlanStatus.endsBadly
  rw [decide_eq_false_iff_not, hstatus]
  rintro ⟨hrunning, -⟩
  exact absurd hrunning (by cases state.status <;> nofun)

/-- After a stopped walk nothing is completed. -/
theorem finish_stopped (hstopped : state.status.Stopped) (hplan : x.status.planState = some state) :
    Prog.Obeys (fun call => call.completes = false)
      (fun _ _ => True) (fun _ => True) (finish r state x) := by
  refine (finish_obeys (fun _ _ hcall => hcall) fun status hstatus hsame => ?_).mono
    (fun _ h => h) (fun _ _ h => h) fun _ _ => trivial
  show status.completes = false
  unfold RepositoryPlanStatus.completes
  rw [decide_eq_false_iff_not, hstatus, hsame, hplan]
  obtain ⟨hfinal, hstate⟩ := finalRunStatus_stopped hstopped
  rintro (hcompleted | hcompleted)
  · exact hfinal hcompleted
  · exact hstate (by simpa using hcompleted)

/-! ### The whole run -/

/-- Calls that say nothing bad may come before anything. -/
theorem neverCompletesAfter_append {before after : List RepositoryCall}
    (hbefore : ∀ call ∈ before, SaysNothingBad call) (hafter : NeverCompletesAfter after) :
    NeverCompletesAfter (before ++ after) := by
  induction before with
  | nil => exact hafter
  | cons call rest ih =>
      refine List.pairwise_cons.mpr ⟨?_, ih fun other hother =>
        hbefore other (List.mem_cons_of_mem _ hother)⟩
      intro later _ hbad
      rw [hbefore call List.mem_cons_self] at hbad
      cases hbad

/-- One call that may say something bad, before calls of which none completes. -/
theorem neverCompletesAfter_last {last after : List RepositoryCall}
    (hafter : ∀ call ∈ after, SaysNothingBad call)
    (hlast : last = [] ∨ (last.length = 1 ∧ ∀ call ∈ after, call.completes = false)) :
    NeverCompletesAfter (last ++ after) := by
  have hquiet : NeverCompletesAfter after := by
    rw [← List.append_nil after]
    exact neverCompletesAfter_append hafter List.Pairwise.nil
  rcases hlast with rfl | ⟨hone, hstopped⟩
  · exact hquiet
  · obtain ⟨call, rfl⟩ := List.length_eq_one_iff.mp hone
    exact List.pairwise_cons.mpr ⟨fun later hlater _ => hstopped later hlater, hquiet⟩

/-- A run that throws has no final status. -/
theorem statusesTrue_of_error {plan : Planfile}
    {e : Prog.Exec S RepositoryCall RepositoryPlanRunnerResult} {message : String}
    (hcalls : NeverCompletesAfter (e.trace.map (·.2))) (hout : e.outcome = .error message) :
    StatusesTrue plan e := by
  refine ⟨hcalls, fun result hresult => ?_⟩
  rw [hout] at hresult
  cases hresult

/-- A first part that says nothing bad is passed over. -/
theorem statusesTrue_bind {α : Type} {Q : α → Prop} {plan : Planfile}
    {program : RepositoryProgram α} {f : α → RepositoryProgram RepositoryPlanRunnerResult}
    (hans : Prog.Along h (RepairsApply True) (program.bind f) s) (hp : Fair Q program)
    (hf : ∀ a s', Prog.Along h (RepairsApply True) (f a) s' →
      StatusesTrue plan (Prog.exec h (f a) s')) :
    StatusesTrue plan (Prog.exec h (program.bind f) s) := by
  obtain ⟨hquiet, -⟩ := hp.exec_along hans.left
  have hcalls : ∀ call ∈ (Prog.exec h program s).trace.map (·.2), SaysNothingBad call := by
    intro call hcall
    obtain ⟨entry, hentry, rfl⟩ := List.mem_map.mp hcall
    exact hquiet entry hentry
  cases hout : (Prog.exec h program s).outcome with
  | error message =>
      rw [Prog.exec_bind_error h f hout]
      refine statusesTrue_of_error ?_ rfl
      rw [← List.append_nil (List.map _ _)]
      exact neverCompletesAfter_append hcalls List.Pairwise.nil
  | ok a =>
      obtain ⟨hlater, hresult⟩ := hf a _ (hans.right hout)
      rw [Prog.exec_bind_ok h f hout]
      refine ⟨?_, hresult⟩
      rw [List.map_append]
      exact neverCompletesAfter_append hcalls hlater

/-- Up to the walk nothing is said of a node. -/
theorem fair_createInitialMemory : Fair (fun _ => True) (createInitialMemory o) := by
  unfold createInitialMemory
  refine Prog.obeys_bind (Q := fun _ => True) ?_ fun verification _ =>
    Prog.obeys_bind (Q := fun _ => True) ?_ fun artifact _ => trivial
  · cases (o.initialStatus.bind fun status => truthy status.verificationReportIds.getLast?) with
    | none => trivial
    | some id => exact fair_await rfl
  · cases (rememberedMemory o).patchArtifactId with
    | none => trivial
    | some id => exact fair_await rfl

theorem runNodes_ids (nodes : List PlanNode) (state : PlanState) (x : Execution) :
    Prog.Obeys (fun _ => True) (fun _ _ => True) (fun out => out.1.ids = state.ids)
      (runNodes P o r nodes state x) := by
  induction nodes generalizing state x with
  | nil => rfl
  | cons node rest ih =>
      unfold runNodes
      refine Prog.obeys_bind (markNode_obeys trivial fun _ _ => trivial) fun running hrunning => ?_
      refine Prog.obeys_bind (Q := fun _ => True) (obeys_any _) fun y _ => ?_
      refine Prog.obeys_bind (Q := fun _ => True) (obeys_any _) ?_
      rintro ⟨result, z⟩ -
      refine Prog.obeys_bind (markNode_obeys trivial fun _ _ => trivial) fun marked hmarked => ?_
      refine Prog.obeys_bind (Q := fun _ => True) (obeys_any _) fun w _ => ?_
      have hids : marked.ids = state.ids := hmarked.ids.trans hrunning.ids
      split
      · exact Prog.obeys_done hids
      · exact (ih marked w).mono (fun _ h => h) (fun _ _ h => h) fun out hout => hout.trans hids

/-- The walk and the end of the run. -/
theorem walked_statusesTrue {memory : RepositoryExecutionMemory} (hstart : StartsClean P o r)
    (hans : Prog.Along h (RepairsApply True)
      ((runNodes P o r (nodesForRun o r) (startState P o r) ⟨r.status, [], memory⟩).bind fun out =>
        finish r out.1 out.2) s) :
    StatusesTrue r.plan (Prog.exec h
      ((runNodes P o r (nodesForRun o r) (startState P o r) ⟨r.status, [], memory⟩).bind fun out =>
        finish r out.1 out.2) s) := by
  obtain ⟨before, last, htrace, hbefore, hlast⟩ := runNodes_badLast _ _ _ _ hans.left
  have hcalls : ∀ call ∈ before.map (·.2), SaysNothingBad call := by
    intro call hcall
    obtain ⟨entry, hentry, rfl⟩ := List.mem_map.mp hcall
    exact hbefore entry hentry
  cases hout : (Prog.exec h (runNodes P o r (nodesForRun o r) (startState P o r)
      ⟨r.status, [], memory⟩) s).outcome with
  | error message =>
      rw [Prog.exec_bind_error h _ hout]
      refine statusesTrue_of_error ?_ rfl
      rw [htrace, List.map_append, ← List.append_nil (List.map _ last)]
      refine neverCompletesAfter_append hcalls (neverCompletesAfter_last (by simp) ?_)
      rcases hlast with rfl | ⟨hone, -⟩
      · exact Or.inl rfl
      · exact Or.inr ⟨by rw [List.length_map, hone], by simp⟩
  | ok out =>
      have hfair : Fair (fun result => result.state = out.1 ∧
          result.status.status = finalRunStatus out.1.status) (finish r out.1 out.2) := finish_fair
      obtain ⟨hquiet, hresult⟩ := hfair.exec_along (hans.right hout)
      rw [Prog.exec_bind_ok h _ hout]
      refine ⟨?_, ?_⟩
      · rw [htrace, List.map_append, List.map_append, List.append_assoc]
        refine neverCompletesAfter_append hcalls (neverCompletesAfter_last ?_ ?_)
        · intro call hcall
          obtain ⟨entry, hentry, rfl⟩ := List.mem_map.mp hcall
          exact hquiet entry hentry
        · rcases hlast with rfl | ⟨hone, hstopped⟩
          · exact Or.inl rfl
          · refine Or.inr ⟨by rw [List.length_map, hone], fun call hcall => ?_⟩
            obtain ⟨entry, hentry, rfl⟩ := List.mem_map.mp hcall
            obtain ⟨hstop, hplan⟩ := hstopped out hout
            exact ((finish_stopped (r := r) hstop hplan).exec_along (h := h)
              fun _ _ _ _ => trivial).1 entry hentry
      · intro result hreturned hcompleted
        obtain ⟨hstate, hfinal⟩ := hresult result hreturned
        obtain ⟨-, hends⟩ := (runNodes_walkEnd _ _ _ hstart.2).exec_along hans.left
        obtain ⟨-, hids⟩ := (runNodes_ids (P := P) (o := o) (r := r) (nodesForRun o r)
          (startState P o r) ⟨r.status, [], memory⟩).exec_along (h := h) (s := s)
          fun _ _ _ _ => trivial
        rw [hstate]
        rcases hends out hout with ⟨hstop, -⟩ | hclean
        · rw [hfinal] at hcompleted
          exact ((finalRunStatus_stopped hstop).1 hcompleted).elim
        · refine ⟨?_, fun item hitem => ?_⟩
          · rw [hids out hout]
            exact hstart.1
          · rcases hclean item hitem with hin | hitem
            · cases hin
            · exact hitem

/-- **The statuses of a run are true where its repair patches are applied**: nothing is completed
after a node ended badly, and a completed run has finished every node without errors. -/
theorem run_statusesTrue {S : Type} (P : RepositoryPlatform) (o : RepositoryPlanRunnerOptions)
    (r : RepositoryRunner) (h : Prog.Handler RepositoryCall RepositoryAnswer S) (s : S)
    (hstart : StartsClean P o r)
    (happly : Prog.Along h (RepairsApply True) (run P o r) s) :
    StatusesTrue r.plan (Prog.exec h (run P o r) s) := by
  unfold run at happly ⊢
  dsimp only at happly ⊢
  split at happly
  · rename_i hvalid
    rw [if_pos hvalid]
    refine statusesTrue_bind happly (fair_await rfl) fun _ s₁ hans₁ => ?_
    refine statusesTrue_bind hans₁ (fair_await rfl) fun _ s₂ hans₂ => ?_
    refine statusesTrue_bind hans₂ fair_createInitialMemory fun memory s₃ hans₃ => ?_
    exact walked_statusesTrue hstart hans₃
  · rename_i hvalid
    rw [if_neg hvalid]
    exact statusesTrue_of_error List.Pairwise.nil rfl

/-! ### A run whose repairs are applied, and one whose repairs are not -/

theorem run_statusesTrue_repaired :
    StatusesTrue (repairingPlan ["repair_changes"]) (Prog.exec (failing appliedPatch)
      (run sampleRepositoryPlatform (sampleRepositoryOptions (repairingPlan ["repair_changes"]))
        (sampleRepositoryRunner (repairingPlan ["repair_changes"]))) ()) :=
  run_statusesTrue sampleRepositoryPlatform
    (sampleRepositoryOptions (repairingPlan ["repair_changes"]))
    (sampleRepositoryRunner (repairingPlan ["repair_changes"])) (failing appliedPatch) ()
    (startsClean_fresh rfl rfl) (by
      intro call _ answer hanswer
      obtain ⟨s, call⟩ := call
      cases call with
      | applyPatchPlan mode workspace plan policy =>
          cases mode with
          | initialPatch => trivial
          | repair =>
              cases hanswer
              exact fun _ => rfl
      | _ => trivial)

/-- The repair patch is refused, the repair node has errors, and the run ends completed. -/
theorem refusedRepair_not_statusesTrue :
    ¬ StatusesTrue (repairingPlan ["repair_changes"]) (Prog.exec (failing refusedPatch)
      (run sampleRepositoryPlatform (sampleRepositoryOptions (repairingPlan ["repair_changes"]))
        (sampleRepositoryRunner (repairingPlan ["repair_changes"]))) ()) := by
  have hends : ((Prog.exec (failing refusedPatch) (run sampleRepositoryPlatform
      (sampleRepositoryOptions (repairingPlan ["repair_changes"]))
      (sampleRepositoryRunner (repairingPlan ["repair_changes"]))) ()).outcome.toOption.any
        fun result => result.status.status = .completed ∧
          result.state.nodeStates.any (·.errors ≠ [])) = true := by
    decide +kernel
  generalize Prog.exec (failing refusedPatch) _ () = e at hends
  rintro ⟨-, hfinished⟩
  cases hout : e.outcome with
  | error message =>
      rw [hout] at hends
      cases hends
  | ok result =>
      rw [hout] at hends
      obtain ⟨hcompleted, herrors⟩ : result.status.status = .completed ∧
          result.state.nodeStates.any (·.errors ≠ []) = true := by
        simpa [Except.toOption] using hends
      obtain ⟨item, hitem, hbad⟩ := List.any_eq_true.mp herrors
      have hclean := ((hfinished result hout hcompleted).2 item hitem).2
      simp [hclean] at hbad

end OpenLagrange
