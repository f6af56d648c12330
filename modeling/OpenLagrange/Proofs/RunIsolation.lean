/-
Runs of different plans do not disturb each other.

Requests about runs, and the work that they leave to others, go on together: between two calls of
one of them any number of calls of the others may be made.  What they share is the store.  What a
run sees of it is the state of its plan, its record, its continuations, its attempts and its
events.  Besides that a call reads the time and the index of artifacts, which all runs write, and
these make up the moment of a call.

Every program stays within its run (`within_operation`), so a call about one run reads no more
than what that run sees, and changes nothing that a run of another plan sees.  `Together.run_own`
says what follows from that for any order of the calls: the requests about a run are answered, and
the run is stored, as if the other runs were not there.
-/
import OpenLagrange.Lib.Together
import OpenLagrange.Proofs.Scope

namespace OpenLagrange.Concurrent

variable {P : Platform} {env : Env} {σ : Scope} {w w' : World}

/-! ### What happens -/

/-- What an operation is answered with. -/
inductive Reply where
  | created (result : CreateRunResult)
  | snapshot (found : Option RunSnapshot)
  | action (result : RunActionResult)

/-- The operation on the run `runId`, with its answer. -/
def answered (P : Platform) (runId : String) : Operation → Program Reply
  | .create input => (createRunFromPlanfile P input).bind fun result => .done (.created result)
  | .execute => (executeStoredRun P runId).bind fun found => .done (.snapshot found)
  | .resume now => (resumeRun P runId now).bind fun result => .done (.action result)
  | .retry nodeId replayMode now =>
      (retryRunNode P runId nodeId replayMode now).bind fun result => .done (.action result)
  | .cancel now => (cancelRun P runId now).bind fun result => .done (.action result)
  | .continuation id => (executeRunContinuation P id).bind fun found => .done (.snapshot found)
  | .cancellation id => (executeRunCancellation P id).bind fun found => .done (.snapshot found)

theorem within_answered {runId : String} {op : Operation} (h : op.On σ P runId) :
    Within σ runId (fun _ => True) (answered P runId op) := by
  cases op with
  | create input => exact within_bind (within_createRunFromPlanfile h) fun _ _ => within_done trivial
  | execute => exact within_bind within_executeStoredRun fun _ _ => within_done trivial
  | resume now => exact within_bind (within_resumeRun h) fun _ _ => within_done trivial
  | retry nodeId replayMode now =>
      exact within_bind (within_retryRunNode h) fun _ _ => within_done trivial
  | cancel now => exact within_bind (within_cancelRun h) fun _ _ => within_done trivial
  | continuation id =>
      exact within_bind (within_executeRunContinuation h) fun _ _ => within_done trivial
  | cancellation id =>
      exact within_bind (within_executeRunCancellation h) fun _ _ => within_done trivial

/-- An operation on a run begins, or one of those that have begun makes its next call. -/
inductive Happening where
  | begins (runId : String) (op : Operation)
  | calls (runId : String) (place : Nat)

def Happening.runId : Happening → String
  | .begins runId _ => runId
  | .calls runId _ => runId

def Happening.turn (P : Platform) : Happening → Together.Turn String Call Answer Reply
  | .begins runId op => .join runId (answered P runId op)
  | .calls runId place => .move runId place

theorem Happening.owner_turn (happening : Happening) :
    (happening.turn P).owner = happening.runId := by
  cases happening <;> rfl

/-- Nothing has begun. -/
def idle (w : World) : Together.Running String Call Answer World Reply := ⟨w, fun _ => []⟩

variable {runId : String}

/-- What the operations come to, and what they leave in the store. -/
def together (P : Platform) (env : Env) (happenings : List Happening) (w : World) :
    Together.Running String Call Answer World Reply :=
  Together.run (handle P env) (happenings.map (·.turn P)) (idle w)

/-! ### Moments -/

/-- What a call reads that belongs to no run: how far the world has come, and what artifacts
there are. -/
structure Moment where
  tick : Nat
  artifacts : List ArtifactSummary

def moment (w : World) : Moment := ⟨w.tick, w.artifacts⟩

def inMoment (w : World) (m : Moment) : World := { w with tick := m.tick, artifacts := m.artifacts }

/-- A call that is made in a moment of its own. -/
def handleAt (P : Platform) (env : Env) (m : Moment) : Prog.Handler Call Answer World :=
  fun call w => handle P env call (inMoment w m)

/-- The same without what happens to other runs: each call in the moment it was made in. -/
def undisturbed (P : Platform) (env : Env) (runId : String) (happenings : List Happening)
    (w : World) : Together.Running String Call Answer World Reply :=
  Together.replay (handleAt P env) (Together.ownTurns runId
    (Together.timed (handle P env) moment (happenings.map (·.turn P)) (idle w))) (idle w)

/-! ### What a run sees -/

structure RunView where
  planState : Option PlanState
  execution : Option RunExecutionRecord
  continuations : String → Option RunContinuationRecord
  attempts : List NodeAttempt
  events : List RunEvent

def view (σ : Scope) (runId : String) (w : World) : RunView where
  planState := w.planStates (σ.planOf runId)
  execution := w.executions runId
  continuations id := if σ.ownerOf id = runId then w.continuations id else none
  attempts := w.attempts runId
  events := w.runEvents runId

theorem view_setPlanState {state : PlanState} : view σ runId (w.setPlanState state) =
    if state.planId = σ.planOf runId then { view σ runId w with planState := some state }
    else view σ runId w := by
  unfold view World.setPlanState
  by_cases hid : state.planId = σ.planOf runId
  · rw [if_pos hid]
    simp only [← hid, Function.update_self]
  · rw [if_neg hid]
    simp only [Function.update_of_ne (Ne.symm hid)]

theorem view_setExecution {record : RunExecutionRecord} : view σ runId (w.setExecution record) =
    if record.runId = runId then { view σ runId w with execution := some record }
    else view σ runId w := by
  unfold view World.setExecution
  by_cases hid : record.runId = runId
  · rw [if_pos hid]
    simp only [← hid, Function.update_self]
  · rw [if_neg hid]
    simp only [Function.update_of_ne (Ne.symm hid)]

theorem view_setContinuation {record : RunContinuationRecord} :
    view σ runId (w.setContinuation record) =
      if σ.ownerOf record.continuationId = runId then
        { view σ runId w with
          continuations := Function.update (view σ runId w).continuations record.continuationId
            (some record) }
      else view σ runId w := by
  unfold view World.setContinuation
  by_cases hid : σ.ownerOf record.continuationId = runId
  · rw [if_pos hid]
    simp only [RunView.mk.injEq, true_and, and_true]
    funext id
    by_cases hsame : id = record.continuationId
    · rw [hsame, Function.update_self, Function.update_self, if_pos hid]
    · rw [Function.update_of_ne hsame, Function.update_of_ne hsame]
  · rw [if_neg hid]
    simp only [RunView.mk.injEq, true_and, and_true]
    funext id
    by_cases hown : σ.ownerOf id = runId
    · have hother : id ≠ record.continuationId := fun heq => hid (heq ▸ hown)
      rw [if_pos hown, if_pos hown, Function.update_of_ne hother]
    · rw [if_neg hown, if_neg hown]

theorem view_setAttempts {id : String} {attempts : List NodeAttempt} :
    view σ runId (w.setAttempts id attempts) =
      if id = runId then { view σ runId w with attempts := attempts } else view σ runId w := by
  unfold view World.setAttempts
  by_cases hid : id = runId
  · rw [if_pos hid]
    simp only [← hid, Function.update_self]
  · rw [if_neg hid]
    simp only [Function.update_of_ne (Ne.symm hid)]

theorem view_setEvents {id : String} {events : List RunEvent} :
    view σ runId (w.setEvents id events) =
      if id = runId then { view σ runId w with events := events } else view σ runId w := by
  unfold view World.setEvents
  by_cases hid : id = runId
  · rw [if_pos hid]
    simp only [← hid, Function.update_self]
  · rw [if_neg hid]
    simp only [Function.update_of_ne (Ne.symm hid)]

/-! ### Calls about the run, and about others -/

/-- **A call about a run reads what the run sees, and the moment.** -/
theorem serve_own {call : Call} (hcall : call.within σ runId)
    (hview : view σ runId w = view σ runId w') (hmoment : moment w = moment w') :
    (serve P env call w).1 = (serve P env call w').1 ∧
      view σ runId (serve P env call w).2 = view σ runId (serve P env call w').2 := by
  have htick : w.tick = w'.tick := congrArg Moment.tick hmoment
  have hindex : w.artifacts = w'.artifacts := congrArg Moment.artifacts hmoment
  have hstates : w.planStates (σ.planOf runId) = w'.planStates (σ.planOf runId) :=
    congrArg RunView.planState hview
  have hexecutions : w.executions runId = w'.executions runId := congrArg RunView.execution hview
  have hattempts : w.attempts runId = w'.attempts runId := congrArg RunView.attempts hview
  have hevents : w.runEvents runId = w'.runEvents runId := congrArg RunView.events hview
  cases call with
  | clock | anHourFromNow => exact ⟨by simp only [serve, htick], hview⟩
  | compileWorkOrder plan nodeId snapshot => exact ⟨rfl, hview⟩
  | handleNode workOrder plan node state => exact ⟨by simp only [serve, htick], hview⟩
  | submitWorkflow task => exact ⟨by simp only [serve, htick], hview⟩
  | writeFile path text => exact ⟨rfl, hview⟩
  | registerRun id => exact ⟨rfl, hview⟩
  | spawn task => exact ⟨rfl, hview⟩
  | getPlanState id =>
      have hid : id = σ.planOf runId := hcall
      exact ⟨by simp only [serve, hid, hstates], hview⟩
  | getRunExecution id =>
      have hid : id = runId := hcall
      exact ⟨by simp only [serve, hid, hexecutions], hview⟩
  | listNodeAttempts id =>
      have hid : id = runId := hcall
      exact ⟨by simp only [serve, hid, hattempts], hview⟩
  | listRunEvents id =>
      have hid : id = runId := hcall
      exact ⟨by simp only [serve, hid, hevents], hview⟩
  | getRunContinuation id =>
      have hid : σ.ownerOf id = runId := hcall
      have hfound := congrFun (congrArg RunView.continuations hview) id
      simp only [view, if_pos hid] at hfound
      exact ⟨by simp only [serve, hfound], hview⟩
  | listArtifacts => exact ⟨by simp only [serve, hindex], hview⟩
  | recordPlanState state =>
      refine ⟨rfl, ?_⟩
      simp only [serve, view_setPlanState, hview]
  | recordRunExecution record =>
      refine ⟨rfl, ?_⟩
      simp only [serve, view_setExecution, hview]
  | recordRunContinuation record =>
      refine ⟨rfl, ?_⟩
      simp only [serve, view_setContinuation, hview]
  | recordNodeAttempt attempt =>
      have hid : attempt.runId = runId := hcall
      refine ⟨rfl, ?_⟩
      simp only [serve, view_setAttempts, hview, hid, hattempts]
  | appendRunEvent event =>
      have hid : event.runId = runId := hcall.1
      refine ⟨rfl, ?_⟩
      simp only [serve, view_setEvents, hview, hid, hevents]
  | emitRunEvent listener planId body =>
      cases listener with
      | none => exact ⟨rfl, hview⟩
      | some l =>
          have hid : l.runId = runId := hcall.2 l rfl
          refine ⟨rfl, ?_⟩
          simp only [serve, view_setEvents, hview, hid, hevents]
  | runCapabilityStep id input =>
      cases id with
      | none => exact ⟨by simp only [serve, htick], hview⟩
      | some r =>
          have hid : r = runId := hcall.2 r rfl
          refine ⟨by simp only [serve, htick], ?_⟩
          simp only [serve, view_setEvents, hview, hid, hevents, htick]
  | registerArtifacts artifacts => exact ⟨rfl, hview⟩
  | flushArtifacts planId dir =>
      refine ⟨by simp only [serve, htick], ?_⟩
      simp only [serve]
      split
      · split
        · exact hview
        · exact hview
      · split
        · exact hview
        · exact hview

/-- **A call about another run, of another plan, changes nothing that the run sees.** -/
theorem serve_other {other : String} {call : Call} (hcall : call.within σ other)
    (hne : other ≠ runId) (hplan : σ.planOf other ≠ σ.planOf runId) :
    view σ runId (serve P env call w).2 = view σ runId w := by
  cases call with
  | recordPlanState state =>
      have hid : state.planId = σ.planOf other := hcall
      exact view_setPlanState.trans (if_neg (hid ▸ hplan))
  | recordRunExecution record =>
      have hid : record.runId = other := hcall.runId
      exact view_setExecution.trans (if_neg (hid ▸ hne))
  | recordRunContinuation record =>
      have hid : σ.ownerOf record.continuationId = other := hcall.1
      exact view_setContinuation.trans (if_neg (hid ▸ hne))
  | recordNodeAttempt attempt =>
      have hid : attempt.runId = other := hcall
      exact view_setAttempts.trans (if_neg (hid ▸ hne))
  | appendRunEvent event =>
      have hid : event.runId = other := hcall.1
      exact view_setEvents.trans (if_neg (hid ▸ hne))
  | emitRunEvent listener planId body =>
      cases listener with
      | none => rfl
      | some l =>
          have hid : l.runId = other := hcall.2 l rfl
          exact view_setEvents.trans (if_neg (hid ▸ hne))
  | runCapabilityStep id input =>
      cases id with
      | none => rfl
      | some r =>
          have hid : r = other := hcall.2 r rfl
          exact view_setEvents.trans (if_neg (hid ▸ hne))
  | flushArtifacts planId dir =>
      simp only [serve]
      split
      · rfl
      · rfl
  | _ => rfl

theorem handleAt_own (m : Moment) {call : Call} (hcall : call.within σ runId)
    (hview : view σ runId w = view σ runId w') :
    (handleAt P env m call w).1 = (handleAt P env m call w').1 ∧
      view σ runId (handleAt P env m call w).2 = view σ runId (handleAt P env m call w').2 := by
  have hserve := @serve_own P env σ (inMoment w m) (inMoment w' m) runId call hcall hview rfl
  have hfault : env.faultAt call (inMoment w m) = env.faultAt call (inMoment w' m) := rfl
  unfold handleAt handle
  rw [← hfault]
  cases env.faultAt call (inMoment w m) with
  | none => exact hserve
  | before message => exact ⟨rfl, hview⟩
  | after message => exact ⟨rfl, hserve.2⟩

theorem handleAt_other (m : Moment) {other : String} {call : Call} (hcall : call.within σ other)
    (hne : other ≠ runId) (hplan : σ.planOf other ≠ σ.planOf runId) :
    view σ runId (handleAt P env m call w).2 = view σ runId w := by
  have hserved : view σ runId (handle P env call (inMoment w m)).2 = view σ runId (inMoment w m) :=
    handle_view (fun _ => rfl) (serve_other hcall hne hplan)
  exact hserved

theorem keeps_at (m : Moment) (other : String) :
    Prog.Keeps (handleAt P env m) (Call.within σ other) (Answer.within σ) σ.Holds where
  state call w hcall hw :=
    keeps_scope.state call (inMoment w m) hcall
      ⟨hw.planStates, hw.executions, hw.continuations, hw.events⟩
  answer call w answer hcall hw hanswer :=
    keeps_scope.answer call (inMoment w m) answer hcall
      ⟨hw.planStates, hw.executions, hw.continuations, hw.events⟩ hanswer

theorem separated : Together.Separated (handleAt P env) (Call.within σ) (Answer.within σ) σ.Holds
    (view σ runId) runId (fun other => other ≠ runId ∧ σ.planOf other ≠ σ.planOf runId) where
  keeps := keeps_at
  own m _ _ _ hcall hview := handleAt_own m hcall hview
  others m _ _ _ hother hcall _ := handleAt_other m hcall hother.1 hother.2

/-! ### Isolation -/

variable (P env σ) in
/-- What is asked about the run is answered, and the run is stored, as if the other runs were not
there. -/
structure Isolated (runId : String) (happenings : List Happening) (w : World) : Prop where
  answers : (together P env happenings w).pool runId =
    (undisturbed P env runId happenings w).pool runId
  stored : view σ runId (together P env happenings w).state =
    view σ runId (undisturbed P env runId happenings w).state

/-- The chain as a plan of its own. -/
def chainOf (planId : String) : Planfile := { sampleChain with planId }

/-- Every run executes the chain as the plan of its own id. -/
def apart : Scope where
  planOf := id
  planfile := fun runId plan => plan = chainOf runId
  ownerOf := id
  kind := fun _ _ => True
  planfile_planId := by
    rintro _ _ rfl
    rfl

def recordOf (runId : String) : RunExecutionRecord :=
  canonicalRun runId (chainOf runId) none "2026-01-01T00:00:00Z"

def bothStored : World := (World.empty.setExecution (recordOf "one")).setExecution (recordOf "other")

theorem bothStored_holds : apart.Holds bothStored where
  planStates id state h := by cases h
  executions id record h := by
    simp only [bothStored, World.setExecution] at h
    by_cases hother : id = (recordOf "other").runId
    · rw [hother, Function.update_self] at h
      rw [hother, ← Option.some.inj h]
      exact ⟨rfl, rfl, rfl⟩
    · rw [Function.update_of_ne hother] at h
      by_cases hone : id = (recordOf "one").runId
      · rw [hone, Function.update_self] at h
        rw [hone, ← Option.some.inj h]
        exact ⟨rfl, rfl, rfl⟩
      · rw [Function.update_of_ne hone] at h
        cases h
  continuations id continuation h := by cases h
  events id event h := by cases h

/-- Two executions that take turns. -/
def takingTurns : List Happening :=
  [.begins "one" .execute, .begins "other" .execute, .calls "one" 0, .calls "other" 0,
    .calls "other" 0, .calls "one" 0]

end OpenLagrange.Concurrent
