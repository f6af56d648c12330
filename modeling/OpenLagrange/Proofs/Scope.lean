/-
Every program stays within its run.

Run records, events, attempts and continuations are kept by run id or continuation id,
plan states by plan id.  A `Scope` says which plan each run executes, which Planfiles it
may be recorded with, and which run a continuation belongs to.  `Within` is then a
property of the text of a program: it reads and writes under the ids of one run alone,
provided everything stored is under the right ids, which is what `Scope.Holds` says of
a world and what every call within a scope keeps.

Nothing here depends on how many programs run, so the results hold for one program
alone and for any number of them together.
-/
import OpenLagrange.Proofs.RunSafety

namespace OpenLagrange

open PlanRunner

/-- What belongs to each run. -/
structure Scope where
  /-- The plan a run executes. -/
  planOf : String → String
  /-- The Planfiles a run may be recorded with. -/
  planfile : String → Planfile → Prop
  /-- The run a continuation id belongs to. -/
  ownerOf : String → String
  /-- The kinds a continuation of that id may have. -/
  kind : String → ContinuationKind → Prop
  planfile_planId : ∀ runId plan, planfile runId plan → plan.planId = planOf runId

namespace Scope

variable (σ : Scope)

structure Record (id : String) (record : RunExecutionRecord) : Prop where
  runId : record.runId = id
  planId : record.planId = σ.planOf id
  planfile : σ.planfile id record.planfile

structure Continuation (id : String) (continuation : RunContinuationRecord) : Prop where
  continuationId : continuation.continuationId = id
  runId : continuation.runId = σ.ownerOf id
  kind : σ.kind id continuation.kind

/-- Everything is stored under the ids it belongs to. -/
structure Holds (w : World) : Prop where
  planStates : ∀ id state, w.planStates id = some state → state.planId = id
  executions : ∀ id record, w.executions id = some record → σ.Record id record
  continuations : ∀ id continuation, w.continuations id = some continuation →
    σ.Continuation id continuation
  events : ∀ id, ∀ event ∈ w.runEvents id, event.planId = σ.planOf id

end Scope

/-- The call is about the run alone. -/
def Call.within (σ : Scope) (runId : String) : Call → Prop
  | .getPlanState id => id = σ.planOf runId
  | .recordPlanState state => state.planId = σ.planOf runId
  | .emitRunEvent listener planId _ =>
      planId = σ.planOf runId ∧ ∀ l, listener = some l → l.runId = runId
  | .runCapabilityStep id input =>
      input.planId = σ.planOf runId ∧ ∀ r, id = some r → r = runId
  | .getRunExecution id | .listNodeAttempts id | .listRunEvents id => id = runId
  | .recordRunExecution record => σ.Record runId record
  | .getRunContinuation id => σ.ownerOf id = runId
  | .recordRunContinuation continuation =>
      σ.ownerOf continuation.continuationId = runId ∧
        σ.Continuation continuation.continuationId continuation
  | .recordNodeAttempt attempt => attempt.runId = runId
  | .appendRunEvent event => event.runId = runId ∧ event.planId = σ.planOf runId
  | _ => True

/-- What is read is what belongs under the id it was read by. -/
def Answer.within (σ : Scope) : (call : Call) → Answer call → Prop
  | .getPlanState id, found => ∀ state, found = some state → state.planId = id
  | .recordPlanState state, recorded => recorded = state
  | .getRunExecution id, found => ∀ record, found = some record → σ.Record id record
  | .recordRunExecution record, recorded => recorded = record
  | .getRunContinuation id, found =>
      ∀ continuation, found = some continuation → σ.Continuation id continuation
  | .listRunEvents id, events => ∀ event ∈ events, event.planId = σ.planOf id
  | _, _ => True

/-- The program is about the run alone, and returns within `Q`. -/
abbrev Within (σ : Scope) (runId : String) {α : Type} (Q : α → Prop) (p : Program α) : Prop :=
  Prog.Obeys (Call.within σ runId) (Answer.within σ) Q p

variable {P : Platform} {env : Env} {σ : Scope} {runId : String} {w : World}

/-! ### Calls within a scope keep it -/

theorem mem_sortEvents {events : List RunEvent} {event : RunEvent} :
    event ∈ sortEvents P events ↔ event ∈ events := by
  unfold sortEvents
  exact List.mem_insertionSort _

theorem mem_appendEvent {events : List RunEvent} {event new : RunEvent}
    (h : event ∈ appendEvent P events new) : event ∈ events ∨ event = new := by
  unfold appendEvent at h
  rw [mem_sortEvents] at h
  split at h
  · exact Or.inl h
  · simpa using h

/-- Events appended one after the other are the old ones and the new ones. -/
theorem mem_foldl_appendEvent {ι : Type} {f : ι → RunEvent} {steps : List ι} :
    ∀ {events : List RunEvent} {event : RunEvent},
      event ∈ steps.foldl (fun events step => appendEvent P events (f step)) events →
      event ∈ events ∨ ∃ step ∈ steps, event = f step := by
  induction steps with
  | nil =>
      intro events event h
      exact Or.inl h
  | cons step rest ih =>
      intro events event h
      rw [List.foldl_cons] at h
      rcases ih h with hmem | ⟨s, hs, rfl⟩
      · rcases mem_appendEvent hmem with hold | rfl
        · exact Or.inl hold
        · exact Or.inr ⟨step, List.mem_cons_self, rfl⟩
      · exact Or.inr ⟨s, List.mem_cons_of_mem _ hs, rfl⟩

theorem Scope.Holds.next (h : σ.Holds w) : σ.Holds w.next :=
  ⟨h.planStates, h.executions, h.continuations, h.events⟩

theorem Scope.Holds.setEvents (h : σ.Holds w) {events : List RunEvent}
    (hevents : ∀ event ∈ events, event.planId = σ.planOf runId) :
    σ.Holds (w.setEvents runId events) where
  planStates := h.planStates
  executions := h.executions
  continuations := h.continuations
  events id event hevent := by
    simp only [World.setEvents] at hevent
    by_cases hid : id = runId
    · rw [hid, Function.update_self] at hevent
      rw [hid]
      exact hevents event hevent
    · rw [Function.update_of_ne hid] at hevent
      exact h.events id event hevent

/-- A call within a run is served to a world that is in order. -/
theorem holds_serve (h : σ.Holds w) {call : Call} (hcall : call.within σ runId) :
    σ.Holds (serve P env call w).2 := by
  cases call with
  | recordPlanState state =>
      refine ⟨?_, h.executions, h.continuations, h.events⟩
      intro id found hfound
      simp only [serve, World.setPlanState] at hfound
      by_cases hid : id = state.planId
      · rw [hid, Function.update_self, Option.some.injEq] at hfound
        rw [hid, hfound]
      · rw [Function.update_of_ne hid] at hfound
        exact h.planStates id found hfound
  | recordRunExecution record =>
      refine ⟨h.planStates, ?_, h.continuations, h.events⟩
      intro id found hfound
      have hrecord : σ.Record runId record := hcall
      simp only [serve, World.setExecution] at hfound
      by_cases hid : id = record.runId
      · rw [hid, Function.update_self, Option.some.injEq] at hfound
        rw [hid, ← hfound, hrecord.runId]
        exact hrecord
      · rw [Function.update_of_ne hid] at hfound
        exact h.executions id found hfound
  | recordRunContinuation continuation =>
      refine ⟨h.planStates, h.executions, ?_, h.events⟩
      intro id found hfound
      simp only [serve, World.setContinuation] at hfound
      by_cases hid : id = continuation.continuationId
      · rw [hid, Function.update_self, Option.some.injEq] at hfound
        rw [hid, ← hfound]
        exact hcall.2
      · rw [Function.update_of_ne hid] at hfound
        exact h.continuations id found hfound
  | emitRunEvent listener planId body =>
      obtain ⟨hplan, hlistener⟩ := hcall
      cases listener with
      | none => exact h
      | some l =>
          simp only [serve]
          refine h.setEvents ?_
          intro event hevent
          rcases mem_appendEvent hevent with hold | rfl
          · exact h.events _ event hold
          · rw [hlistener l rfl]
            exact hplan
  | runCapabilityStep id input =>
      obtain ⟨hplan, hid⟩ := hcall
      cases id with
      | none => exact h
      | some r =>
          simp only [serve]
          refine h.setEvents ?_
          intro event hevent
          rcases mem_foldl_appendEvent hevent with hold | ⟨step, -, rfl⟩
          · exact h.events _ event hold
          · rw [hid r rfl]
            exact hplan
  | appendRunEvent new =>
      obtain ⟨hrun, hplan⟩ := hcall
      simp only [serve]
      refine h.setEvents ?_
      intro event hevent
      rcases mem_appendEvent hevent with hold | rfl
      · exact h.events _ event hold
      · rw [hrun]
        exact hplan
  | flushArtifacts planId dir =>
      simp only [serve]
      split
      · exact ⟨h.planStates, h.executions, h.continuations, h.events⟩
      · exact h
  | recordNodeAttempt _ | registerArtifacts _ =>
      exact ⟨h.planStates, h.executions, h.continuations, h.events⟩
  | _ => exact h

theorem keeps_scope :
    Prog.Keeps (handle P env) (Call.within σ runId) (Answer.within σ) σ.Holds where
  state call w hcall hw := by
    have hworld : (handle P env call w).2 = (serve P env call w).2.next ∨
        (handle P env call w).2 = w.next := handle_world call w
    rcases hworld with h | h
    · rw [h]
      exact (holds_serve hw hcall).next
    · rw [h]
      exact hw.next
  answer call w answer _ hw hanswer := by
    have hserved := (handle_ok hanswer).1
    cases call with
    | getPlanState id =>
        intro state hstate
        rw [hstate] at hserved
        exact hw.planStates id state (Except.ok.inj hserved)
    | getRunExecution id =>
        intro record hrecord
        rw [hrecord] at hserved
        exact hw.executions id record (Except.ok.inj hserved)
    | getRunContinuation id =>
        intro continuation hcont
        rw [hcont] at hserved
        exact hw.continuations id continuation (Except.ok.inj hserved)
    | recordPlanState state => exact (Except.ok.inj hserved).symm
    | recordRunExecution record => exact (Except.ok.inj hserved).symm
    | listRunEvents id =>
        intro event hevent
        rw [← Except.ok.inj hserved, mem_sortEvents] at hevent
        exact hw.events id event hevent
    | _ => trivial

/-- One call within a run, whatever it answers. -/
theorem within_perform {e : Call} (h : e.within σ runId) :
    Within σ runId (fun _ => True) (perform e) :=
  Prog.obeys_perform h fun _ _ => trivial

theorem within_bind {α β : Type} {p : Program α} {f : α → Program β} {Q : α → Prop}
    {Q' : β → Prop} (hp : Within σ runId Q p) (hf : ∀ a, Q a → Within σ runId Q' (f a)) :
    Within σ runId Q' (p.bind f) :=
  Prog.obeys_bind hp hf

theorem within_done {α : Type} {a : α} {Q : α → Prop} (h : Q a) :
    Within σ runId Q (.done a) :=
  Prog.obeys_done h

theorem within_weaken {α : Type} {p : Program α} {Q : α → Prop} (h : Within σ runId Q p) :
    Within σ runId (fun _ => True) p :=
  Prog.Obeys.mono h (fun _ h => h) (fun _ _ h => h) (fun _ _ => trivial)

/-! ### The runner -/

section Runner

variable {o : PlanRunnerOptions} {plan : Planfile} {state : PlanState} {node : PlanNode}
  {outputs : Outputs}

theorem within_now : Within σ runId (fun _ => True) (PlanRunner.now o) := by
  unfold PlanRunner.now
  split
  · exact within_done trivial
  · exact within_perform (e := .clock) trivial

theorem within_emit (hl : ∀ r, listener o = some r → r = runId)
    (hp : plan.planId = σ.planOf runId) {body : RunEventBody} :
    Within σ runId (fun _ => True) (emit o plan body) := by
  unfold emit
  cases hlisten : listener o with
  | none =>
      refine within_perform ⟨hp, ?_⟩
      intro l hsome
      cases hsome
  | some r =>
      refine within_bind within_now fun t _ => within_perform ⟨hp, ?_⟩
      intro l hsome
      cases hsome
      exact hl r hlisten

theorem within_emitNodeStarted (hl : ∀ r, listener o = some r → r = runId)
    (hp : plan.planId = σ.planOf runId) :
    Within σ runId (fun _ => True) (emitNodeStarted o plan node) := by
  refine within_bind (within_emit hl hp) fun _ _ => ?_
  unfold emitPhaseStarted
  split
  · exact within_emit hl hp
  · exact within_emit hl hp
  · exact within_done trivial

theorem within_emitArtifacts (hl : ∀ r, listener o = some r → r = runId)
    (hp : plan.planId = σ.planOf runId) {artifacts : List PlanArtifactRef} :
    Within σ runId (fun _ => True) (emitArtifacts o plan node artifacts) := by
  induction artifacts with
  | nil => exact within_done trivial
  | cons artifact rest ih =>
      refine within_bind (Q := fun _ => True) ?_ fun _ _ => ih
      unfold emitArtifact
      split
      · exact within_done trivial
      · exact within_emit hl hp

theorem within_record (h : state.planId = σ.planOf runId) :
    Within σ runId (fun s => s.planId = σ.planOf runId) (perform (.recordPlanState state)) := by
  refine Prog.obeys_perform (e := Call.recordPlanState state) h ?_
  intro recorded hrec
  have heq : recorded = state := hrec
  exact heq ▸ h

theorem within_markNode (hl : ∀ r, listener o = some r → r = runId)
    (hp : plan.planId = σ.planOf runId) (hstate : state.planId = σ.planOf runId)
    {outcome : NodeOutcome} {artifacts : List PlanArtifactRef} {errors : List String} :
    Within σ runId (fun s => s.planId = σ.planOf runId)
      (markNode P o plan state node outcome artifacts errors) := by
  refine within_bind within_now fun now _ => ?_
  refine within_bind (within_record hstate) fun recorded hrec => ?_
  refine within_bind (within_emit hl hp) fun _ _ => ?_
  refine within_bind (within_emitArtifacts hl hp) fun _ _ => ?_
  refine within_bind (Q := fun _ => True) ?_ fun _ _ => within_done hrec
  unfold emitPhaseCompleted
  split
  · exact within_emit hl hp
  · exact within_emit hl hp
  · exact within_done trivial

theorem within_stepArtifacts {refs : List String} :
    Within σ runId (fun _ => True) (stepArtifacts o refs) := by
  induction refs with
  | nil => exact within_done trivial
  | cons id rest ih =>
      exact within_bind within_now fun _ _ => within_bind ih fun _ _ => within_done trivial

theorem within_workOn (hl : ∀ r, listener o = some r → r = runId)
    (hp : plan.planId = σ.planOf runId) :
    Within σ runId (fun _ => True) (workOn P o plan state node outputs) := by
  unfold workOn
  split
  · exact within_done trivial
  · split
    · refine within_bind (Q := fun _ => True) ?_ fun result _ => ?_
      · unfold runCapabilityNode
        dsimp only
        split
        · exact Prog.obeys_fail
        · split
          · exact Prog.obeys_fail
          · exact within_perform ⟨hp, fun r hr => hl r hr⟩
      · exact within_bind within_stepArtifacts fun _ _ => within_done trivial
    · split
      · refine within_bind (within_perform (e := .compileWorkOrder _ _ _) trivial) fun _ _ => ?_
        exact within_bind (within_perform (e := .handleNode _ _ _ _) trivial) fun _ _ =>
          within_done trivial
      · exact within_done trivial

theorem within_runRound (hl : ∀ r, listener o = some r → r = runId)
    (hp : plan.planId = σ.planOf runId) (hstate : state.planId = σ.planOf runId) :
    Within σ runId (fun r => r.state.planId = σ.planOf runId)
      (runRound P o plan state node outputs) := by
  refine within_bind (within_emitNodeStarted hl hp) fun _ _ => ?_
  refine within_bind (Q := fun s => s.planId = σ.planOf runId) ?_ fun running hrunning => ?_
  · exact within_bind within_now fun now _ => within_record hstate
  refine within_bind (within_workOn hl hp) fun work _ => ?_
  exact within_bind (within_markNode hl hp hrunning) fun marked hmarked => within_done hmarked

theorem within_runRounds (hl : ∀ r, listener o = some r → r = runId)
    (hp : plan.planId = σ.planOf runId) {k : Nat} (hstate : state.planId = σ.planOf runId) :
    Within σ runId (fun r => r.state.planId = σ.planOf runId)
      (runRounds P o plan k state outputs) := by
  induction k generalizing state outputs with
  | zero => exact within_done hstate
  | succ k ih =>
      unfold runRounds
      split
      · exact within_done hstate
      · refine within_bind (within_runRound hl hp hstate) fun r hr => ?_
        split
        · exact within_done hr
        · exact ih hr

theorem within_storedOrLoad (hl : ∀ r, listener o = some r → r = runId)
    (hp : plan.planId = σ.planOf runId) :
    Within σ runId (fun s => s.planId = σ.planOf runId) (storedOrLoad P o plan) := by
  have hread : Within σ runId
      (fun found : Option PlanState => ∀ state, found = some state → state.planId = plan.planId)
      (perform (.getPlanState plan.planId)) :=
    Prog.obeys_perform (e := Call.getPlanState plan.planId) hp fun _ h => h
  refine within_bind hread fun found hfound => ?_
  cases found with
  | some state => exact within_done ((hfound state rfl).trans hp)
  | none =>
      unfold load
      cases hacc : accept P o plan with
      | error message => exact Prog.obeys_fail
      | ok accepted =>
          obtain ⟨rfl, -⟩ := accept_ok hacc
          refine within_bind within_now fun now _ => ?_
          refine within_bind (within_record hp) fun recorded hrec => ?_
          exact within_bind (within_emit hl hp) fun _ _ => within_done hrec

/-- **A run to completion stays within its run.** -/
theorem within_runToCompletion (hl : ∀ r, listener o = some r → r = runId)
    (hp : plan.planId = σ.planOf runId) :
    Within σ runId (fun r => r.state.planId = σ.planOf runId) (runToCompletion P o plan) := by
  unfold runToCompletion
  cases hacc : accept P o plan with
  | error message => exact Prog.obeys_fail
  | ok accepted =>
      obtain ⟨haccepted, -⟩ := accept_ok hacc
      have hp' : accepted.planId = σ.planOf runId := by
        rw [haccepted]
        exact hp
      refine within_bind (within_storedOrLoad hl hp') fun state hstate => ?_
      refine within_bind (within_emit hl hp') fun _ _ => ?_
      refine within_bind (within_runRounds hl hp' hstate) fun r hr => ?_
      refine within_bind (Q := fun _ => True) ?_ fun _ _ => within_done hr
      unfold announceEnd
      split
      · exact within_emit hl hp'
      · exact within_bind within_now fun _ _ => within_emit hl hp'
      · exact within_emit hl hp'
      · exact within_done trivial

end Runner

/-! ### Snapshots -/

theorem within_listRunEvents {Q : List RunEvent → Prop}
    (hQ : ∀ events, (∀ event ∈ events, event.planId = σ.planOf runId) → Q events) :
    Within σ runId Q (perform (.listRunEvents runId)) :=
  Prog.obeys_perform (e := Call.listRunEvents runId) rfl hQ

theorem within_getRunExecution :
    Within σ runId (fun found : Option RunExecutionRecord => ∀ record, found = some record →
      σ.Record runId record) (perform (.getRunExecution runId)) :=
  Prog.obeys_perform (e := Call.getRunExecution runId) rfl fun _ h => h

/-- The plan a snapshot is about is the plan of its run. -/
theorem snapshot_planId {sources : SnapshotSources} {planId : String}
    (hevents : ∀ event ∈ sources.events, event.planId = σ.planOf runId)
    (hplan : ∀ plan, sources.planfile = some plan → plan.planId = σ.planOf runId)
    (hrun : ∀ record, sources.run = some record → σ.Record runId record)
    (h : sources.planId? = some planId) : planId = σ.planOf runId := by
  unfold SnapshotSources.planId? at h
  obtain ⟨hfound, -⟩ := Option.filter_eq_some_iff.mp h
  rcases Option.or_eq_some_iff.mp hfound with hcreated | ⟨-, hother⟩
  · obtain ⟨event, hevent, rfl⟩ := Option.map_eq_some_iff.mp hcreated
    exact hevents event (List.mem_of_find?_eq_some hevent)
  · rcases Option.or_eq_some_iff.mp hother with hrecord | ⟨-, hfile⟩
    · obtain ⟨record, hrec, rfl⟩ := Option.map_eq_some_iff.mp hrecord
      exact (hrun record hrec).planId
    · obtain ⟨plan, hsource, rfl⟩ := Option.map_eq_some_iff.mp hfile
      exact hplan plan hsource

theorem within_buildRunSnapshot {planfile : Option Planfile}
    (hplan : ∀ plan, planfile = some plan → plan.planId = σ.planOf runId) :
    Within σ runId (fun _ => True) (buildRunSnapshot P runId planfile) := by
  refine within_bind (within_listRunEvents fun _ h => h) fun events hevents => ?_
  have hread : Within σ runId (fun run : Option RunExecutionRecord => ∀ record,
      run = some record → σ.Record runId record) (snapshotRun runId planfile) := by
    cases planfile with
    | some plan => exact within_done (by simp)
    | none => exact within_getRunExecution
  refine within_bind hread fun run hrun => ?_
  dsimp only
  split
  · exact within_done trivial
  · rename_i planId hplanId
    have hid : planId = σ.planOf runId := by
      refine snapshot_planId hevents ?_ hrun hplanId
      intro plan hsome
      rcases Option.or_eq_some_iff.mp hsome with hsome | ⟨-, hstored⟩
      · exact hplan plan hsome
      · obtain ⟨record, hrecord, hparse⟩ := Option.bind_eq_some_iff.mp hstored
        unfold parseStoredPlanfile at hparse
        split at hparse
        · cases hparse
          exact σ.planfile_planId _ _ (hrun record hrecord).planfile
        · cases hparse
    refine within_bind (within_perform hid) fun planState _ => ?_
    refine within_bind (within_perform rfl) fun attempts _ => ?_
    exact within_bind (within_perform (e := .listArtifacts) trivial) fun _ _ => within_done trivial

/-! ### Executions -/

theorem within_parsePlanfile {plan : Planfile} :
    Within σ runId (fun parsed => parsed = plan) (parsePlanfile P plan) := by
  unfold parsePlanfile
  split
  · exact within_done rfl
  · exact Prog.obeys_fail

theorem within_clock : Within σ runId (fun _ => True) (perform .clock) :=
  within_perform (e := .clock) trivial

theorem within_recordRunExecution {record : RunExecutionRecord} (h : σ.Record runId record) :
    Within σ runId (fun recorded => recorded = record) (perform (.recordRunExecution record)) :=
  Prog.obeys_perform (e := Call.recordRunExecution record) h fun _ hrec => hrec

/-- The options of a live run report for that run. -/
theorem listener_live {input : LiveRunInput} (hrun : input.runId = some runId) {expiresAt r : String}
    (h : listener (liveRunnerOptions P input expiresAt) = some r) : r = runId := by
  unfold listener liveRunnerOptions at h
  simp only [hrun, Option.getD_some, if_true] at h
  obtain ⟨hsome, -⟩ := Option.filter_eq_some_iff.mp h
  exact (Option.some.inj hsome).symm

theorem within_executeLive {input : LiveRunInput} (hrun : input.runId = some runId)
    (hp : input.plan.planId = σ.planOf runId) :
    Within σ runId (fun _ => True) (executeLiveLocalPlanfile P input) := by
  unfold executeLiveLocalPlanfile
  dsimp only
  split
  · refine within_bind (within_perform (e := .anHourFromNow) trivial) fun expiresAt _ => ?_
    refine within_bind (within_runToCompletion (fun r => listener_live hrun) hp) fun result hres => ?_
    refine within_bind (within_perform (e := .flushArtifacts _ _) trivial) fun artifacts _ => ?_
    refine within_bind (within_perform (e := .writeFile _ _) trivial) fun _ _ => ?_
    refine within_bind (within_perform (e := .registerArtifacts _) trivial) fun _ _ => ?_
    refine within_bind (within_perform (e := .registerRun _) trivial) fun _ _ => ?_
    exact within_weaken (within_record hres)
  · exact Prog.obeys_fail

theorem within_concludeRun {snapshot : Option RunSnapshot} :
    Within σ runId (fun _ => True) (concludeRun runId snapshot) := by
  refine within_bind within_getRunExecution fun latest hlatest => ?_
  split
  · rename_i record shown
    have hrecord := hlatest record rfl
    refine within_bind within_clock fun updatedAt _ => ?_
    refine within_bind (within_recordRunExecution ⟨hrecord.runId, hrecord.planId, hrecord.planfile⟩)
      fun _ _ => within_done trivial
  · exact within_done trivial

theorem within_executeRecordedRun {record : RunExecutionRecord} (h : σ.Record runId record) :
    Within σ runId (fun _ => True) (executeRecordedRun P runId record) := by
  refine within_bind within_clock fun startedAt _ => ?_
  refine within_bind within_clock fun updatedAt _ => ?_
  refine within_bind (within_recordRunExecution ⟨h.runId, h.planId, h.planfile⟩) fun _ _ => ?_
  refine within_bind within_parsePlanfile fun plan hplan => ?_
  have hp : plan.planId = σ.planOf runId := by
    rw [hplan]
    exact σ.planfile_planId _ _ h.planfile
  refine within_bind within_clock fun now _ => ?_
  refine within_bind (within_executeLive rfl hp) fun _ _ => ?_
  refine within_bind (within_buildRunSnapshot ?_) fun snapshot _ => ?_
  · intro other hother
    cases hother
    exact hp
  · exact within_bind within_concludeRun fun _ _ => within_done trivial

/-- **Executing a run stays within it.** -/
theorem within_executeStoredRun :
    Within σ runId (fun _ => True) (executeStoredRun P runId) := by
  refine within_bind within_getRunExecution fun found hfound => ?_
  cases found with
  | none => exact within_done trivial
  | some record => exact within_executeRecordedRun (hfound record rfl)

/-! ### Continuations -/

theorem within_getRunContinuation {id : String} (h : σ.ownerOf id = runId) :
    Within σ runId (fun found : Option RunContinuationRecord => ∀ continuation,
      found = some continuation → σ.Continuation id continuation)
      (perform (.getRunContinuation id)) :=
  Prog.obeys_perform (e := Call.getRunContinuation id) h fun _ hfound => hfound

theorem within_recordRunContinuation {continuation : RunContinuationRecord}
    (hid : σ.ownerOf continuation.continuationId = runId) (hrun : continuation.runId = runId)
    (hkind : σ.kind continuation.continuationId continuation.kind) :
    Within σ runId (fun _ => True) (perform (.recordRunContinuation continuation)) :=
  within_perform ⟨hid, rfl, hrun.trans hid.symm, hkind⟩

theorem within_executeRunCancellation {id : String} (h : σ.ownerOf id = runId) :
    Within σ runId (fun _ => True) (executeRunCancellation P id) := by
  refine within_bind (within_getRunContinuation h) fun found hfound => ?_
  cases found with
  | none => exact within_done trivial
  | some continuation =>
      obtain ⟨hid, hrun, hkind⟩ := hfound continuation rfl
      rw [h] at hrun
      dsimp only
      rw [hrun]
      refine within_bind within_getRunExecution fun latest hlatest => ?_
      cases latest with
      | none => exact within_done trivial
      | some record =>
          have hrecord := hlatest record rfl
          refine within_bind within_clock fun now _ => ?_
          refine within_bind (within_recordRunExecution
            ⟨hrecord.runId, hrecord.planId, hrecord.planfile⟩) fun _ _ => ?_
          refine within_bind (within_recordRunContinuation ?_ rfl ?_) fun _ _ => ?_
          · rw [hid]
            exact h
          · rw [hid]
            exact hkind
          refine within_bind (within_perform ⟨hrecord.runId, hrecord.planId⟩) fun _ _ => ?_
          refine within_bind within_parsePlanfile fun plan hplan => ?_
          rw [hrecord.runId]
          refine within_buildRunSnapshot ?_
          intro other hother
          cases hother
          rw [hplan]
          exact σ.planfile_planId _ _ hrecord.planfile

theorem within_resetStoredState {plan : Planfile} {continuation : RunContinuationRecord}
    (hp : plan.planId = σ.planOf runId) :
    Within σ runId (fun _ => True) (resetStoredState plan continuation) := by
  have hread : Within σ runId
      (fun found : Option PlanState => ∀ state, found = some state → state.planId = plan.planId)
      (perform (.getPlanState plan.planId)) :=
    Prog.obeys_perform (e := Call.getPlanState plan.planId) hp fun _ h => h
  refine within_bind hread fun found hfound => ?_
  cases found with
  | none => exact within_done trivial
  | some state =>
      refine within_bind within_clock fun now _ => ?_
      have hstate : (continuedState plan state continuation now).planId = σ.planOf runId :=
        (hfound state rfl).trans hp
      exact within_bind (within_record hstate) fun _ _ => within_done trivial

theorem within_continueRun {continuation : RunContinuationRecord} {plan : Planfile}
    (hid : σ.ownerOf continuation.continuationId = runId) (hrun : continuation.runId = runId)
    (hkind : σ.kind continuation.continuationId continuation.kind)
    (hp : plan.planId = σ.planOf runId) :
    Within σ runId (fun _ => True) (continueRun P continuation plan) := by
  refine within_bind (within_resetStoredState hp) fun _ _ => ?_
  refine within_bind within_clock fun now _ => ?_
  refine within_bind (within_recordRunContinuation hid hrun hkind) fun _ _ => ?_
  rw [hrun]
  refine within_bind within_executeStoredRun fun snapshot _ => ?_
  refine within_bind within_clock fun now' _ => ?_
  exact within_bind (within_recordRunContinuation hid rfl hkind) fun _ _ => within_done trivial

/-- **Executing a continuation stays within the run it belongs to.** -/
theorem within_executeRunContinuation {id : String} (h : σ.ownerOf id = runId) :
    Within σ runId (fun _ => True) (executeRunContinuation P id) := by
  refine within_bind (within_getRunContinuation h) fun found hfound => ?_
  cases found with
  | none => exact within_done trivial
  | some continuation =>
      obtain ⟨hid, hrun, hkind⟩ := hfound continuation rfl
      rw [h] at hrun
      have hget : Within σ runId (fun latest : Option RunExecutionRecord => ∀ record,
          latest = some record → σ.Record runId record)
          (perform (.getRunExecution continuation.runId)) := by
        rw [hrun]
        exact within_getRunExecution
      refine within_bind hget fun latest hlatest => ?_
      cases latest with
      | none => exact within_done trivial
      | some record =>
          dsimp only
          split
          · exact within_executeRunCancellation h
          · refine within_bind within_parsePlanfile fun plan hplan => ?_
            refine within_continueRun ?_ hrun ?_ ?_
            · rw [hid]
              exact h
            · rw [hid]
              exact hkind
            · rw [hplan]
              exact σ.planfile_planId _ _ (hlatest record rfl).planfile

/-! ### Requests -/

theorem within_nowOr {now : Option String} :
    Within σ runId (fun t => now = none ∨ now = some t) (nowOr now) := by
  unfold nowOr
  cases now with
  | some t => exact within_done (Or.inr rfl)
  | none => exact Prog.obeys_perform (e := Call.clock) trivial fun _ _ => Or.inl rfl

theorem within_trySubmit {task : Task} : Within σ runId (fun _ => True) (trySubmit task) := by
  refine Prog.obeys_tryCatch ?_ fun _ => within_done trivial
  exact within_bind (within_perform (e := .submitWorkflow task) trivial) fun _ _ => within_done trivial

theorem within_handOver {continuation : RunContinuationRecord} {task : Task} {left : Program Unit}
    (hid : σ.ownerOf continuation.continuationId = runId) (hrun : continuation.runId = runId)
    (hkind : σ.kind continuation.continuationId continuation.kind)
    (hleft : Within σ runId (fun _ => True) left) :
    Within σ runId (fun _ => True) (handOver continuation task left) := by
  refine within_bind within_trySubmit fun submitted _ => ?_
  cases submitted with
  | some id =>
      refine within_bind within_clock fun now _ => ?_
      exact within_bind (within_recordRunContinuation hid hrun hkind) fun _ _ => within_done trivial
  | none => exact within_bind hleft fun _ _ => within_done trivial

theorem within_accepted {continuationId message : String} {hatchetRunId : Option String} :
    Within σ runId (fun _ => True) (accepted P runId continuationId hatchetRunId message) :=
  within_bind (within_buildRunSnapshot (by simp)) fun _ _ => within_done trivial

theorem within_spawn {task : Task} : Within σ runId (fun _ => True) (perform (.spawn task)) :=
  within_perform (e := .spawn task) trivial

/-- The ids a request would give its continuation belong to its run. -/
def Scope.Owns (σ : Scope) (runId : String) (kind : ContinuationKind) (now : Option String)
    (id : String → String) : Prop :=
  ∀ t, now = none ∨ now = some t → σ.ownerOf (id t) = runId ∧ σ.kind (id t) kind

theorem within_resumeRun {now : Option String}
    (h : σ.Owns runId .resume now (resumeContinuationId P runId)) :
    Within σ runId (fun _ => True) (resumeRun P runId now) := by
  refine within_bind within_nowOr fun t ht => ?_
  obtain ⟨hid, hkind⟩ := h t ht
  refine within_bind within_getRunExecution fun found _ => ?_
  cases found with
  | none => exact within_done trivial
  | some record =>
      refine within_bind (within_recordRunContinuation hid rfl hkind) fun _ _ => ?_
      refine within_bind (within_handOver hid rfl hkind within_spawn) fun _ _ => ?_
      exact within_accepted

theorem within_retryRunNode {nodeId replayMode : String} {now : Option String}
    (h : ∀ mode, σ.Owns runId .retry now (retryContinuationId P runId nodeId mode)) :
    Within σ runId (fun _ => True) (retryRunNode P runId nodeId replayMode now) := by
  unfold retryRunNode
  cases hmode : apiReplayMode replayMode with
  | error message => exact Prog.obeys_fail
  | ok mode =>
      refine within_bind within_nowOr fun t ht => ?_
      refine within_bind within_getRunExecution fun found _ => ?_
      cases found with
      | none => exact within_done trivial
      | some record =>
          refine within_bind within_parsePlanfile fun plan _ => ?_
          cases hnode : plan.node? nodeId with
          | none => exact within_done trivial
          | some node =>
              have hnodeId : node.id = nodeId := by
                have hfound := List.find?_some hnode
                simpa using hfound
              obtain ⟨hid, hkind⟩ := h mode t ht
              rw [← hnodeId] at hid hkind
              dsimp only
              split
              · refine within_bind (within_perform rfl) fun attempts _ => ?_
                refine within_bind (within_perform rfl) fun counted _ => ?_
                refine within_bind (within_perform rfl) fun _ _ => ?_
                refine within_bind (within_recordRunContinuation hid rfl hkind) fun _ _ => ?_
                refine within_bind (within_handOver hid rfl hkind within_spawn) fun _ _ => ?_
                exact within_accepted
              · exact within_done trivial

theorem within_cancelRun {now : Option String}
    (h : σ.Owns runId .cancel now (cancelContinuationId P runId)) :
    Within σ runId (fun _ => True) (cancelRun P runId now) := by
  refine within_bind within_nowOr fun t ht => ?_
  obtain ⟨hid, hkind⟩ := h t ht
  refine within_bind within_getRunExecution fun found hfound => ?_
  cases found with
  | none => exact within_done trivial
  | some record =>
      have hrecord := hfound record rfl
      refine within_bind (within_recordRunExecution
        ⟨hrecord.runId, hrecord.planId, hrecord.planfile⟩) fun _ _ => ?_
      refine within_bind (within_recordRunContinuation hid rfl hkind) fun _ _ => ?_
      refine within_bind (within_perform ⟨rfl, hrecord.planId⟩) fun _ _ => ?_
      refine within_bind (within_handOver hid rfl hkind ?_) fun _ _ => within_accepted
      exact within_bind (within_executeRunCancellation hid) fun _ _ => within_done trivial

/-! ### Creating runs -/

/-- Asking for a plan calls nothing: it is the plan, or it is refused. -/
theorem requestedPlan_cases (P : Platform) (planfile : Planfile) (live : Option Bool) (now : String) :
    (∃ plan, requestedPlan P planfile live now = .done plan) ∨
      ∃ message, requestedPlan P planfile live now = .fail message := by
  unfold requestedPlan liveExecutionPlan parsePlanfile
  dsimp only
  split
  · simp only [Prog.bind_eq, Prog.pure_eq, Prog.done_bind]
    split
    · simp only [Prog.done_bind]
      split
      · split
        · exact Or.inl ⟨_, rfl⟩
        · exact Or.inr ⟨_, rfl⟩
      · exact Or.inl ⟨_, rfl⟩
    · exact Or.inr ⟨_, rfl⟩
  · exact Or.inr ⟨_, rfl⟩

/-- A plan asked for once is not changed by asking for it again. -/
theorem requestedPlan_again {planfile plan again : Planfile} {live : Option Bool} {now : String}
    (hlive : live ≠ some true) (h : requestedPlan P planfile live now = .done plan)
    (h' : requestedPlan P plan live now = .done again) : again = plan := by
  unfold requestedPlan parsePlanfile at h h'
  simp only [if_neg hlive, Prog.bind_eq, Prog.pure_eq] at h h'
  split at h
  · simp only [Prog.done_bind] at h
    split at h
    · cases h
      split at h'
      · simp only [Prog.done_bind] at h'
        split at h'
        · cases h'
          rfl
        · cases h'
      · cases h'
    · cases h
  · cases h

theorem within_recordCanonicalRun {plan : Planfile} {outputDir : Option String} {now : String}
    (h : σ.planfile runId plan) :
    Within σ runId (fun record => σ.Record runId record)
      (recordCanonicalRun runId plan outputDir now) := by
  have hrecord : σ.Record runId (canonicalRun runId plan outputDir now) :=
    ⟨rfl, σ.planfile_planId _ _ h, h⟩
  refine Prog.Obeys.mono (within_recordRunExecution hrecord) (fun _ h => h) (fun _ _ h => h) ?_
  intro recorded hrec
  exact hrec ▸ hrecord

theorem within_startRun {record : RunExecutionRecord} (h : σ.Record runId record) :
    Within σ runId (fun _ => True) (startRun record) := by
  refine within_bind within_trySubmit fun submitted _ => ?_
  cases submitted with
  | some id =>
      refine within_bind within_clock fun startedAt _ => ?_
      refine within_bind within_clock fun updatedAt _ => ?_
      exact within_bind (within_recordRunExecution ⟨h.runId, h.planId, h.planfile⟩) fun _ _ =>
        within_done trivial
  | none => exact within_spawn

/-- Recording a plan and the run it belongs to. -/
theorem within_recordInitial {plan : Planfile} {now : String} {record : Program RunExecutionRecord}
    (h : σ.planfile runId plan) (hrecord : Within σ runId (fun _ => True) record) :
    Within σ runId (fun _ => True) (do
      let recorded ← perform (.recordPlanState (initialPlanState P plan now))
      let _ ← record
      perform (.appendRunEvent (createRunEvent runId plan.planId now .runCreated))
      pure recorded) := by
  have hp := σ.planfile_planId _ _ h
  have hstate : (initialPlanState P plan now).planId = σ.planOf runId := hp
  refine within_bind (within_record hstate) fun _ _ => ?_
  refine within_bind hrecord fun _ _ => ?_
  exact within_bind (within_perform ⟨rfl, hp⟩) fun _ _ => within_done trivial

theorem within_createRunState {plan : Planfile} {input : ApplyPlanfileInput} {now : String}
    (h : σ.planfile runId plan) (hrequested : requestedPlan P input.planfile input.live now = .done plan) :
    Within σ runId (fun _ => True) (createRunState P plan input runId now) := by
  have hp := σ.planfile_planId _ _ h
  unfold createRunState
  split
  · refine within_bind (Q := fun _ => True) ?_ fun state _ => ?_
    · unfold prepareRunState
      dsimp only
      split
      · have hstate : (initialPlanState P plan now).planId = σ.planOf runId := hp
        refine within_bind (within_record hstate) fun _ _ => ?_
        exact within_bind (within_perform ⟨rfl, hp⟩) fun _ _ => within_done trivial
      · exact Prog.obeys_fail
    · refine within_bind (within_recordCanonicalRun h) fun record hrecord => ?_
      exact within_bind (within_startRun hrecord) fun _ _ => within_done trivial
  · rename_i hlive
    show Within σ runId (fun _ => True) ((requestedPlan P plan input.live now).bind _)
    rcases requestedPlan_cases P plan input.live now with ⟨again, hagain⟩ | ⟨message, hfail⟩
    · rw [hagain, Prog.done_bind]
      have hsame := requestedPlan_again hlive hrequested hagain
      rw [if_neg hlive, hsame]
      unfold recordPlannedRun
      dsimp only
      split
      · exact within_recordInitial h (within_weaken (within_recordCanonicalRun h))
      · exact Prog.obeys_fail
    · rw [hfail]
      exact Prog.obeys_fail

/-- What the request may be for: the run id it ends up with, and a plan of that run. -/
def Scope.Creates (σ : Scope) (P : Platform) (runId : String) (input : ApplyPlanfileInput) : Prop :=
  ∀ t plan, input.now = none ∨ input.now = some t →
    requestedPlan P input.planfile input.live t = .done plan →
    input.runId.getD (runIdForPlan P plan t) = runId ∧ σ.planfile runId plan

/-- **Creating a run stays within it.** -/
theorem within_createRunFromPlanfile {input : ApplyPlanfileInput} (h : σ.Creates P runId input) :
    Within σ runId (fun _ => True) (createRunFromPlanfile P input) := by
  refine within_bind within_nowOr fun t ht => ?_
  rcases requestedPlan_cases P input.planfile input.live t with ⟨plan, hplan⟩ | ⟨message, hfail⟩
  · obtain ⟨hrun, hfile⟩ := h t plan ht hplan
    show Within σ runId (fun _ => True) ((requestedPlan P input.planfile input.live t).bind _)
    rw [hplan, Prog.done_bind]
    dsimp only
    rw [hrun]
    refine within_bind (within_createRunState hfile hplan) fun state _ => ?_
    refine within_bind (within_buildRunSnapshot ?_) fun snapshot _ => ?_
    · intro other hother
      cases hother
      exact σ.planfile_planId _ _ hfile
    · cases snapshot with
      | none => exact Prog.obeys_fail
      | some snapshot => exact within_done trivial
  · show Within σ runId (fun _ => True) ((requestedPlan P input.planfile input.live t).bind _)
    rw [hfail]
    exact Prog.obeys_fail

/-! ### Operations -/

/-- What can be asked of a run: the requests, and the work that they leave to others. -/
inductive Operation where
  | create (input : ApplyPlanfileInput)
  | execute
  | resume (now : Option String)
  | retry (nodeId replayMode : String) (now : Option String)
  | cancel (now : Option String)
  | continuation (id : String)
  | cancellation (id : String)

/-- Run a program for what it does. -/
def discard {α : Type} (p : Program α) : Program Unit := p.bind fun _ => .done ()

theorem exec_discard {α : Type} (p : Program α) :
    Prog.exec (handle P env) (discard p) w =
      ⟨(Prog.exec (handle P env) p w).outcome.map fun _ => (),
        (Prog.exec (handle P env) p w).state, (Prog.exec (handle P env) p w).trace⟩ := by
  unfold discard
  cases hout : (Prog.exec (handle P env) p w).outcome with
  | error m =>
      rw [Prog.exec_bind_error _ _ hout]
      rfl
  | ok a =>
      rw [Prog.exec_bind_ok _ _ hout]
      simp [Except.map]

/-- The operation, on the run `runId`. -/
def Operation.program (P : Platform) (runId : String) : Operation → Program Unit
  | .create input => discard (createRunFromPlanfile P input)
  | .execute => discard (executeStoredRun P runId)
  | .resume now => discard (resumeRun P runId now)
  | .retry nodeId replayMode now => discard (retryRunNode P runId nodeId replayMode now)
  | .cancel now => discard (cancelRun P runId now)
  | .continuation id => discard (executeRunContinuation P id)
  | .cancellation id => discard (executeRunCancellation P id)

/-- The operation is about the run, by the ids it uses. -/
def Operation.On (σ : Scope) (P : Platform) (runId : String) : Operation → Prop
  | .create input => σ.Creates P runId input
  | .execute => True
  | .resume now => σ.Owns runId .resume now (resumeContinuationId P runId)
  | .retry nodeId _ now => ∀ mode, σ.Owns runId .retry now (retryContinuationId P runId nodeId mode)
  | .cancel now => σ.Owns runId .cancel now (cancelContinuationId P runId)
  | .continuation id | .cancellation id => σ.ownerOf id = runId

/-- **Every operation on a run stays within it.** -/
theorem within_operation {op : Operation} (h : op.On σ P runId) :
    Within σ runId (fun _ => True) (op.program P runId) := by
  have hdiscard : ∀ {α : Type} {p : Program α}, Within σ runId (fun _ => True) p →
      Within σ runId (fun _ => True) (discard p) := by
    intro α p hp
    exact within_bind hp fun _ _ => within_done trivial
  cases op with
  | create input => exact hdiscard (within_createRunFromPlanfile h)
  | execute => exact hdiscard within_executeStoredRun
  | resume now => exact hdiscard (within_resumeRun h)
  | retry nodeId replayMode now => exact hdiscard (within_retryRunNode h)
  | cancel now => exact hdiscard (within_cancelRun h)
  | continuation id => exact hdiscard (within_executeRunContinuation h)
  | cancellation id => exact hdiscard (within_executeRunCancellation h)

end OpenLagrange
