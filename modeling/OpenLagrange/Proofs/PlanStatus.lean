/-
When the status of a plan agrees with its nodes.

Three places write the status.  Marking a node knows the outcome of that node, marking
one running knows nothing, and a continuation writes `running` whatever it finds.  The
last node marked leaves the right status behind, so what goes wrong is that a run ends
without marking one, or that something halted before it began is left halted.

Neither can happen where every step of a session has work it can do: an execution finds
nothing halted, or nothing to start, and a continuation resets all that is halted and
leaves something that is not done.
-/
import OpenLagrange.Proofs.Continuations

namespace OpenLagrange

open PlanRunner

/-- The status of a plan says what its nodes say. -/
structure PlanState.Agrees (plan : Planfile) (state : PlanState) : Prop where
  completed : state.status = .completed ↔ state.allDone = true
  failed : state.status = .failed → ∃ nodeState ∈ state.nodeStates, nodeState.status = .failed
  yielded : state.status = .yielded → ∃ nodeState ∈ state.nodeStates, nodeState.status = .yielded
  running : state.status = .running → readyNodes plan state ≠ []

variable {P : Platform} {env : Env} {σ : Scope} {runId : String} {planfile plan : Planfile}
  {state start : PlanState} {w : World}

/-! ### States that agree -/

theorem agrees_congr {other : PlanState} (hnodes : other.nodeStates = state.nodeStates)
    (hstatus : other.status = state.status) (h : state.Agrees plan) : other.Agrees plan := by
  have hall : other.allDone = state.allDone := by
    unfold PlanState.allDone
    rw [hnodes]
  have hready : readyNodes plan other = readyNodes plan state := by
    unfold readyNodes
    rw [hnodes]
  refine ⟨?_, ?_, ?_, ?_⟩
  · rw [hstatus, hall]
    exact h.completed
  · rw [hstatus, hnodes]
    exact h.failed
  · rw [hstatus, hnodes]
    exact h.yielded
  · rw [hstatus, hready]
    exact h.running

/-- Readiness does not look at the digest. -/
theorem agrees_withDigest :
    state.Agrees (withCanonicalPlanDigest P.sha256 planfile) ↔ state.Agrees planfile :=
  ⟨fun h => ⟨h.completed, h.failed, h.yielded, h.running⟩,
    fun h => ⟨h.completed, h.failed, h.yielded, h.running⟩⟩

theorem not_allDone_of_mem {nodeState : PlanNodeState} (h : nodeState ∈ state.nodeStates)
    (hnot : nodeState.status.isDone = false) : state.allDone ≠ true := by
  intro hall
  have hdone := List.all_eq_true.mp hall nodeState h
  rw [hnot] at hdone
  cases hdone

/-- A state that was marked agrees, if the run that idled had nothing left. -/
theorem agrees_of_told {ending : Ending} (htold : state.Told ending)
    (hidle : ending = .idle → state.allDone = true) : state.Agrees plan := by
  cases ending with
  | idle =>
      have hall := hidle rfl
      have hstatus : state.status = .completed := by
        rw [show state.status = _ from htold, if_pos hall]
      exact ⟨iff_of_true hstatus hall, by simp [hstatus], by simp [hstatus], by simp [hstatus]⟩
  | halted =>
      rcases htold with ⟨hstatus, ns, hns, hnst⟩ | ⟨hstatus, ns, hns, hnst⟩
      · have hall := not_allDone_of_mem hns (by rw [hnst]; rfl)
        exact ⟨iff_of_false (by simp [hstatus]) hall, fun _ => ⟨ns, hns, hnst⟩,
          by simp [hstatus], by simp [hstatus]⟩
      · have hall := not_allDone_of_mem hns (by rw [hnst]; rfl)
        exact ⟨iff_of_false (by simp [hstatus]) hall, by simp [hstatus],
          fun _ => ⟨ns, hns, hnst⟩, by simp [hstatus]⟩
  | interrupted => exact htold.elim

/-! ### What a session keeps -/

/-- What is stored of a plan lists its nodes, none of them left running, and agrees. -/
structure PlanState.Settled (plan : Planfile) (state : PlanState) : Prop where
  fits : state.Fits plan
  quiet : ∀ id, state.phase id ≠ .active
  agrees : state.Agrees plan

def SettledIn (plan : Planfile) (stored : Option PlanState) : Prop :=
  ∀ state, stored = some state → state.Settled plan

/-- There is nothing halted in the state, or nothing that could start. -/
def PlanState.Unobstructed (plan : Planfile) (state : PlanState) : Prop :=
  (∀ nodeState ∈ state.nodeStates, nodeState.status.isStopped = false) ∨
    readyNodes plan state = []

theorem settled_withDigest :
    state.Settled (withCanonicalPlanDigest P.sha256 planfile) ↔ state.Settled planfile :=
  ⟨fun h => ⟨fits_withDigest.mp h.fits, h.quiet, agrees_withDigest.mp h.agrees⟩,
    fun h => ⟨fits_withDigest.mpr h.fits, h.quiet, agrees_withDigest.mpr h.agrees⟩⟩

theorem not_halted_of_unstopped (hs : plan.Sound) (hfits : state.Fits plan)
    (h : ∀ nodeState ∈ state.nodeStates, nodeState.status.isStopped = false) :
    ∀ id ∈ plan.graph.tasks, state.phase id ≠ .halted := by
  intro id hid hhalt
  rw [← hfits.tasks] at hid
  obtain ⟨ns, hns, rfl⟩ := List.mem_map.mp hid
  rw [state.phase_of_mem (hfits.nodup hs) hns, PlanNodeStatus.phase_halted, h ns hns] at hhalt
  cases hhalt

/-- A task that is neither active nor halted waits or is done. -/
theorem waiting_or_done {p : Phase} (hquiet : p ≠ .active) (hhalt : p ≠ .halted) :
    p = .waiting ∨ p = .done := by
  cases p with
  | waiting => exact Or.inl rfl
  | active => exact absurd rfl hquiet
  | done => exact Or.inr rfl
  | halted => exact absurd rfl hhalt

/-- A fresh state of a plan with nodes is settled. -/
theorem initialPlanState_settled (hs : plan.Sound) (hne : plan.nodes ≠ []) {now : String} :
    (initialPlanState P plan now).Settled plan := by
  have hfits : (initialPlanState P plan now).Fits plan := initialPlanState_fits
  obtain ⟨node, hnode⟩ := List.exists_mem_of_ne_nil _ hne
  have hall : (initialPlanState P plan now).allDone ≠ true := by
    rw [Ne, PlanState.allDone_iff (hfits.nodup hs), hfits.tasks]
    intro hdone
    have hid : node.id ∈ plan.graph.tasks := Planfile.mem_tasks.mpr ⟨node, hnode, rfl⟩
    have hwait := hdone node.id hid
    rw [initialPlanState_phase hs hid] at hwait
    cases hwait
  refine ⟨hfits, ?_, ?_⟩
  · intro id hactive
    by_cases hid : id ∈ plan.graph.tasks
    · rw [initialPlanState_phase hs hid] at hactive
      cases hactive
    · rw [← hfits.tasks] at hid
      unfold PlanState.phase at hactive
      rw [PlanState.node?_eq_none.mpr hid] at hactive
      cases hactive
  · exact ⟨iff_of_false (by simp [initialPlanState, createInitialPlanState]) hall,
      by simp [initialPlanState, createInitialPlanState],
      by simp [initialPlanState, createInitialPlanState],
      by simp [initialPlanState, createInitialPlanState]⟩

/-- A worker that was not interrupted leaves no node running. -/
theorem quiet_of_greedy {o : PlanRunnerOptions} {seen : List (Seen String Value)} {m' : Outputs}
    {ending : Ending}
    (hg : TaskGraph.Greedy plan.graph (nodeWork P env o plan) start.phase Outputs.empty seen
      state.phase m' ending) (hend : ending ≠ .interrupted) (hquiet : ∀ id, start.phase id ≠ .active)
    (id : String) : state.phase id ≠ .active := by
  rcases hg.phase_cases hend id with hsame | ⟨m₀, works, m₁, hwork⟩
  · rw [hsame]
    exact hquiet id
  · obtain ⟨node, -, -, r, -, hr⟩ := hwork
    cases r with
    | none => cases hr
    | some worked =>
        have hphase : state.phase id = worked.1.status.phase := by
          simpa using congrArg (Option.map Prod.fst) hr
        rw [hphase]
        cases worked.1 <;> simp [NodeOutcome.status, PlanNodeStatus.phase]

/-- Nothing is seen of a worker that has nothing to start. -/
theorem seen_of_idle {ι ω M : Type} [DecidableEq ι] {g : TaskGraph ι} {W : TaskGraph.Work ι ω M}
    {φ φ' : ι → Phase} {m m' : M} {seen : List (Seen ι ω)} {ending : Ending}
    (hg : TaskGraph.Greedy g W φ m seen φ' m' ending) (hidle : g.ready φ = []) : seen = [] := by
  cases hg with
  | idle h => rfl
  | stopped => rfl
  | interrupted h hr | halted h hr hp | next h hr hg =>
      rw [hidle] at h
      cases h

/-! ### What a step keeps -/

variable {known : Prop} {stored final : Option PlanState} {seen : List (Seen String Value)}

/-- **An execution that returns leaves a status that agrees.** -/
theorem Executed.settled (h : Executed P env plan known stored true final seen) (hs : plan.Sound)
    (hne : plan.nodes ≠ []) (hstored : SettledIn plan stored)
    (hclear : ∀ state, stored = some state → state.Unobstructed plan) : SettledIn plan final := by
  generalize hok : true = ok at h
  cases h with
  | skipped h => exact hstored
  | unloaded h hseen => cases hok
  | @ran o pre start main state' m' ending extra left ok hopen hfits hg hextra hnodes hid hstatus hret =>
      have hstart : start.Settled plan ∧ start.Unobstructed plan := by
        cases hopen with
        | stored hsome => exact ⟨hstored _ hsome, hclear _ hsome⟩
        | fresh hnone =>
            refine ⟨initialPlanState_settled hs hne, Or.inl ?_⟩
            intro ns hns
            simp only [initialPlanState, createInitialPlanState, List.map_map, List.mem_map,
              Function.comp_apply] at hns
            obtain ⟨node, -, rfl⟩ := hns
            by_cases hd : node.dependsOn.length = 0
            · simp [hd, PlanNodeStatus.isStopped]
            · simp [hd, PlanNodeStatus.isStopped]
      obtain ⟨hsettled, hcase⟩ := hstart
      rintro _ ⟨⟩
      have hleft : ∀ {other : PlanState}, other.nodeStates = left.nodeStates →
          left.phase = other.phase := by
        intro other hother
        funext id
        unfold PlanState.phase PlanState.node?
        rw [hother]
      have hfitsLeft : left.Fits plan := by
        refine ⟨?_, hid.trans hfits.planId⟩
        rw [← hfits.ids]
        unfold PlanState.ids
        rw [hnodes]
      rcases hret hok.symm with ⟨hmain, htold⟩ | ⟨rfl, rfl⟩
      · -- Some node was marked, so the status tells.
        have hend : ending ≠ .interrupted := by
          rintro rfl
          exact htold
        have hunstopped := hcase.resolve_right fun hready =>
          hmain (seen_of_idle hg ((ready_eq_nil_iff hs hsettled.fits).mp hready))
        have hhalt := not_halted_of_unstopped hs hsettled.fits hunstopped
        refine ⟨hfitsLeft, ?_, agrees_congr hnodes hstatus (agrees_of_told htold ?_)⟩
        · rw [hleft hnodes.symm]
          exact quiet_of_greedy hg hend hsettled.quiet
        · rintro rfl
          rw [PlanState.allDone_iff (hfits.nodup hs), hfits.tasks]
          refine hg.idle_all_done hs.acyclic ?_ fun id hmem =>
            waiting_or_done (hsettled.quiet id) (hhalt id hmem)
          intro id hmem d hd
          obtain ⟨node, hnode, rfl⟩ := Planfile.mem_tasks.mp hmem
          rw [plan.deps_of_nodup hs.nodup hnode] at hd
          exact hs.deps node hnode d hd
      · -- Nothing could start, and everything is as it was.
        refine ⟨hfitsLeft, ?_, agrees_congr hnodes hstatus hsettled.agrees⟩
        rw [hleft hnodes.symm]
        exact hsettled.quiet

/-- A continuation has something to do: it resets all that is halted, and not everything
that is left is done. -/
def Reopens (planfile : Planfile) (continuation : RunContinuationRecord) (state : PlanState) : Prop :=
  (∀ nodeState ∈ state.nodeStates, nodeState.status.isStopped = true →
    nodeState.nodeId ∈ resetNodeIds planfile state continuation) ∧
  ∃ nodeState ∈ state.nodeStates,
    nodeState.nodeId ∈ resetNodeIds planfile state continuation ∨ nodeState.status.isDone = false

variable {continuation : RunContinuationRecord} {now : String}

/-- **A reset that has something to do leaves a status that agrees.** -/
theorem continuedState_settled (hs : planfile.Sound) (h : state.Settled planfile)
    (hopen : Reopens planfile continuation state) :
    (continuedState planfile state continuation now).Settled planfile ∧
      (continuedState planfile state continuation now).Unobstructed planfile := by
  have hnd := h.fits.nodup hs
  have hfits : (continuedState planfile state continuation now).Fits planfile :=
    continuedState_fits h.fits
  have hnd' := hfits.nodup hs
  have hquiet : ∀ id, (continuedState planfile state continuation now).phase id ≠ .active := by
    intro id
    rw [continuedState_phase]
    split
    · simp
    · exact h.quiet id
  have hhalt : ∀ id ∈ state.ids,
      (continuedState planfile state continuation now).phase id ≠ .halted := by
    intro id hid
    rw [continuedState_phase]
    split
    · simp
    · rename_i hnot
      intro hhalt
      obtain ⟨ns, hns, rfl⟩ := List.mem_map.mp hid
      have hstopped := hhalt
      rw [state.phase_of_mem hnd hns, PlanNodeStatus.phase_halted] at hstopped
      exact hnot ⟨hopen.1 ns hns hstopped, hid⟩
  have hphase : ∀ id ∈ planfile.graph.tasks,
      (continuedState planfile state continuation now).phase id = .waiting ∨
        (continuedState planfile state continuation now).phase id = .done := by
    intro id hid
    rw [← h.fits.tasks] at hid
    exact waiting_or_done (hquiet id) (hhalt id hid)
  -- Something is left to be done.
  obtain ⟨ns, hns, hcase⟩ := hopen.2
  have hmem : ns.nodeId ∈ state.ids := List.mem_map.mpr ⟨ns, hns, rfl⟩
  have hnot : (continuedState planfile state continuation now).phase ns.nodeId ≠ .done := by
    rw [continuedState_phase]
    split
    · simp
    · rename_i hkeep
      rw [Ne, state.phase_of_mem hnd hns, PlanNodeStatus.phase_done]
      rcases hcase with hreset | hnotDone
      · exact absurd ⟨hreset, hmem⟩ hkeep
      · simp [hnotDone]
  have hready : readyNodes planfile (continuedState planfile state continuation now) ≠ [] :=
    readyNodes_ne_nil hs hfits hphase (h.fits.tasks ▸ hmem) hnot
  refine ⟨⟨hfits, hquiet, ⟨iff_of_false (by simp [continuedState]) ?_, by simp [continuedState],
    by simp [continuedState], fun _ => hready⟩⟩, Or.inl ?_⟩
  · intro hall
    refine hnot ((PlanState.allDone_iff hnd').mp hall ns.nodeId ?_)
    rw [hfits.ids, ← h.fits.ids]
    exact hmem
  · intro ns' hns'
    by_contra hstopped
    have hmem' : ns'.nodeId ∈ (continuedState planfile state continuation now).ids :=
      List.mem_map.mpr ⟨ns', hns', rfl⟩
    refine hhalt ns'.nodeId ?_ ?_
    · rw [h.fits.ids, ← hfits.ids]
      exact hmem'
    · rw [PlanState.phase_of_mem hnd' hns', PlanNodeStatus.phase_halted]
      simpa using hstopped

theorem settledIn_withDigest :
    SettledIn (withCanonicalPlanDigest P.sha256 planfile) stored ↔ SettledIn planfile stored :=
  forall₂_congr fun _ _ => settled_withDigest

/-- **A continuation that returns leaves a status that agrees.** -/
theorem Continued.settled (h : Continued P env planfile continuation stored true final seen)
    (hs : planfile.Sound) (hne : planfile.nodes ≠ []) (hstored : SettledIn planfile stored)
    (hopen : ∀ state, stored = some state → Reopens planfile continuation state) :
    SettledIn planfile final := by
  generalize hok : true = ok at h
  cases h with
  | stopped => cases hok
  | unreset h => cases hok
  | @executed reset pre main final ok hresets hexec =>
      rw [← hok] at hexec
      have hreset : SettledIn planfile reset ∧
          ∀ state, reset = some state → state.Unobstructed planfile := by
        cases hresets with
        | absent h =>
            refine ⟨?_, ?_⟩
            · rintro _ ⟨⟩
            · rintro _ ⟨⟩
        | reset h =>
            refine ⟨?_, ?_⟩
            · rintro _ ⟨⟩
              exact (continuedState_settled hs (hstored _ h) (hopen _ h)).1
            · rintro _ ⟨⟩
              exact (continuedState_settled hs (hstored _ h) (hopen _ h)).2
      exact settledIn_withDigest.mp
        (hexec.settled (sound_withDigest hs) hne (settledIn_withDigest.mpr hreset.1) hreset.2)

/-! ### Sessions -/

/-- The operation returns. -/
def Operation.Ends (P : Platform) (env : Env) (runId : String) (w : World) (op : Operation) : Prop :=
  returned (Prog.exec (handle P env) (op.program P runId) w).outcome = true

/-- The operation finds work it can do: an execution finds nothing halted, or nothing to
start, and a continuation reopens the plan. -/
def Operation.Settles (planfile : Planfile) (w : World) : Operation → Prop
  | .execute => ∀ state, w.planStates planfile.planId = some state → state.Unobstructed planfile
  | .continuation id =>
      ∀ continuation, w.continuations id = some continuation → continuation.kind ≠ .cancel →
        ∀ state, w.planStates planfile.planId = some state → Reopens planfile continuation state
  | _ => True

/-- An operation that returns and finds work it can do leaves a status that agrees. -/
theorem Operated.settled {op : Operation} (h : Operated P env planfile w op true final seen)
    (hs : planfile.Sound) (hne : planfile.nodes ≠ [])
    (hstored : SettledIn planfile (w.planStates planfile.planId)) (hop : op.Settles planfile w) :
    SettledIn planfile final := by
  cases h with
  | nothing => exact hstored
  | created h =>
      cases h with
      | unrecorded => exact hstored
      | recorded hfinal =>
          rcases hfinal with rfl | rfl
          · exact hstored
          · rintro _ ⟨⟩
            exact initialPlanState_settled hs hne
  | executed h =>
      exact settledIn_withDigest.mp (h.settled (sound_withDigest hs) hne
        (settledIn_withDigest.mpr hstored) hop)
  | resumed h =>
      cases h with
      | nothing h => exact hstored
      | continued hid hkind h => exact h.settled hs hne hstored (hop _ hid hkind)

/-- **When the status of a plan agrees with its nodes.**  In a session on one run of an
accepted plan that has nodes, in which every operation returns and finds work it can do,
the stored status agrees after every one of them. -/
theorem session_agrees (P : Platform) (env : Env) (σ : Scope) (runId : String)
    (planfile : Planfile) (snapshot : Option CapabilitySnapshot) (w₀ w : World)
    (hvalid : (validatePlanfile P snapshot planfile).ok = true) (hne : planfile.nodes ≠ [])
    (hp : planfile.planId = σ.planOf runId) (hexec : σ.Executes runId planfile)
    (hholds : σ.Holds w₀)
    (hstored : ∀ state, w₀.planStates planfile.planId = some state → state.Settled planfile)
    (h : Session P env σ runId (fun w op => op.Ends P env runId w ∧ op.Settles planfile w) w₀ w) :
    ∀ state, w.planStates planfile.planId = some state → state.Agrees planfile := by
  have hs : planfile.Sound := sound_of_valid hvalid
  have hkept : σ.Holds w ∧ SettledIn planfile (w.planStates planfile.planId) := by
    induction h with
    | opened => exact ⟨hholds, hstored⟩
    | @next w op hsession hop hallowed ih =>
        obtain ⟨hw, hsettled⟩ := ih
        obtain ⟨hends, hsettles⟩ := hallowed
        have hfits : w.Fits planfile := fun state hstate => (hsettled state hstate).fits
        have hscope : Prog.Keeps (handle P env) (Call.within σ runId) (Answer.within σ) σ.Holds :=
          keeps_scope
        obtain ⟨hholds', -, -⟩ := (within_operation hop).exec hscope hw
        have hoperated : Operated P env planfile w op
            (returned (Prog.exec (handle P env) (op.program P runId) w).outcome)
            ((Prog.exec (handle P env) (op.program P runId) w).state.planStates planfile.planId)
            ((Prog.exec (handle P env) (op.program P runId) w).trace.filterMap
              (observe planfile.planId)) := operation_shows hexec hp hop hw hfits
        rw [show returned _ = true from hends] at hoperated
        exact ⟨hholds', hoperated.settled hs hne hsettled hsettles⟩
  exact fun state hstate => (hkept.2 state hstate).agrees

theorem sampleState_settled :
    (sampleState .completed .completed .completed).Settled sampleChain := by
  refine ⟨sampleState_fits, ?_, ⟨by decide, by decide, by decide, by decide⟩⟩
  intro id hactive
  unfold PlanState.phase at hactive
  cases hnode : (sampleState .completed .completed .completed).node? id with
  | none =>
      rw [hnode] at hactive
      cases hactive
  | some ns =>
      rw [hnode] at hactive
      have hmem := (PlanState.node?_mem hnode).1
      have hdone : ∀ ns ∈ (sampleState .completed .completed .completed).nodeStates,
          ns.status = .completed := by decide
      dsimp only at hactive
      rw [hdone ns hmem] at hactive
      cases hactive

/-- A resume of the completed chain returns, and leaves it running with nothing to start. -/
theorem sampleChain_reopened :
    ¬ ∀ (P : Platform) (env : Env) (σ : Scope) (runId : String) (planfile : Planfile) (w₀ w : World),
      (validatePlanfile P none planfile).ok = true → planfile.nodes ≠ [] →
      planfile.planId = σ.planOf runId → σ.Executes runId planfile → σ.Holds w₀ →
      (∀ state, w₀.planStates planfile.planId = some state → state.Settled planfile) →
      Session P env σ runId (fun w op => op.Ends P env runId w) w₀ w →
      ∀ state, w.planStates planfile.planId = some state → state.Agrees planfile := by
  intro hall
  have hsettled : ∀ state, (sampleStore (sampleState .completed .completed .completed)
      (sampleContinuation .resume none)).planStates sampleChain.planId = some state →
      state.Settled sampleChain := by
    intro state hstate
    obtain rfl : sampleState .completed .completed .completed = state := Option.some.inj hstate
    exact sampleState_settled
  have hsession : Session samplePlatform sampleEnv sampleScope "run"
      (fun w op => op.Ends samplePlatform sampleEnv "run" w)
      (sampleStore (sampleState .completed .completed .completed) (sampleContinuation .resume none))
      (Prog.exec (handle samplePlatform sampleEnv)
        ((Operation.continuation "cont").program samplePlatform "run")
        (sampleStore (sampleState .completed .completed .completed)
          (sampleContinuation .resume none))).state := by
    refine .next .opened rfl ?_
    unfold Operation.Ends
    decide
  have hagrees := hall _ _ _ _ _ _ _ (by decide) (by decide) rfl sampleScope_executes
    sampleStore_holds hsettled hsession
  have hleft : ((Prog.exec (handle samplePlatform sampleEnv)
      ((Operation.continuation "cont").program samplePlatform "run")
      (sampleStore (sampleState .completed .completed .completed)
        (sampleContinuation .resume none))).state.planStates "plan").map
          (fun state => (state.status, state.allDone)) = some (.running, true) := by decide
  obtain ⟨state, hstate, hst⟩ := Option.map_eq_some_iff.mp hleft
  obtain ⟨hrunning, hdone⟩ := Prod.mk.inj hst
  have hcompleted := (hagrees state hstate).completed.mpr hdone
  rw [hrunning] at hcompleted
  cases hcompleted

set_option maxRecDepth 2000 in
/-- Executing the completed chain leaves a status that agrees. -/
theorem sampleChain_agrees :
    ∃ state, (Prog.exec (handle samplePlatform sampleEnv)
      (Operation.execute.program samplePlatform "run")
      (sampleStore (sampleState .completed .completed .completed)
        (sampleContinuation .resume none))).state.planStates sampleChain.planId = some state ∧
      state.Agrees sampleChain := by
  have hsettled : ∀ state, (sampleStore (sampleState .completed .completed .completed)
      (sampleContinuation .resume none)).planStates sampleChain.planId = some state →
      state.Settled sampleChain := by
    intro state hstate
    obtain rfl : sampleState .completed .completed .completed = state := Option.some.inj hstate
    exact sampleState_settled
  have hsession : Session samplePlatform sampleEnv sampleScope "run"
      (fun w op => op.Ends samplePlatform sampleEnv "run" w ∧ op.Settles sampleChain w)
      (sampleStore (sampleState .completed .completed .completed) (sampleContinuation .resume none))
      (Prog.exec (handle samplePlatform sampleEnv)
        (Operation.execute.program samplePlatform "run")
        (sampleStore (sampleState .completed .completed .completed)
          (sampleContinuation .resume none))).state := by
    refine .next .opened trivial ⟨?_, ?_⟩
    · unfold Operation.Ends
      decide
    · intro state hstate
      obtain rfl : sampleState .completed .completed .completed = state := Option.some.inj hstate
      exact Or.inl (by decide)
  have hstored : ((Prog.exec (handle samplePlatform sampleEnv)
      (Operation.execute.program samplePlatform "run")
      (sampleStore (sampleState .completed .completed .completed)
        (sampleContinuation .resume none))).state.planStates sampleChain.planId).isSome = true := by
    decide
  obtain ⟨state, hstate⟩ := Option.isSome_iff_exists.mp hstored
  exact ⟨state, hstate, session_agrees samplePlatform sampleEnv sampleScope "run" sampleChain none
    _ _ (by decide) (by decide) rfl sampleScope_executes sampleStore_holds hsettled hsession state
    hstate⟩

end OpenLagrange
