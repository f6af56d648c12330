/-
The events of a capability step.

The hooks answer here and the clock shows datetimes; what is left to go wrong is inside
the step.  A step ends in `finish`, which emits the terminal event last.  Before that
the result is parsed, and the only part of it that may not parse is the list of
artifacts: an executor can record one whose id is the empty text.

`recordings` is that list as the executor alone determines it.  Interpreting the executor
within the step comes to the same, so `Answerable` can be stated without running the step.
-/
import OpenLagrange.Proofs.StepGate
import OpenLagrange.Proofs.Runner
import OpenLagrange.Util.Text

namespace OpenLagrange

/-- The hooks answer, and the clock shows datetimes. -/
structure StepEnv.Steady (S : StepPlatform) (env : StepEnv) : Prop where
  answers : ∀ tick, env.fault tick = none
  dates : ∀ tick, S.isDatetime (S.toISOString (env.dateNow tick)) = true

namespace CapabilityStep

variable {S : StepPlatform} {o : CapabilityStepRunnerOptions} {env : StepEnv} {input : StepInput}
  {runId now : String} {α β : Type}

/-! ### Events the schema accepts -/

/-- What an event says has the lengths and formats that are asked for. -/
def StepEvent.Sound (isDatetime : String → Bool) : StepEvent → Prop
  | .started | .approvalRequested => True
  | .completed refs => refs.all nonempty = true
  | .failed errors => errors.all (·.refined isDatetime) = true
  | .policyEvaluated decision => decision ≠ ""
  | .artifactCreated artifactId => artifactId ≠ ""
  | .modelCallCompleted artifactId role model => artifactId ≠ "" ∧ role ≠ "" ∧ model ≠ ""

theorem attemptId_ne_empty : attemptId input ≠ "" := by
  unfold attemptId
  split
  · rename_i id hid
    intro hempty
    have hstart := (Option.filter_eq_some_iff.mp hid).2
    rw [hempty] at hstart
    exact absurd hstart (by decide)
  · exact append_ne_empty (append_ne_empty (append_ne_empty (append_ne_empty (by decide) _) _) _) _

/-- The texts of a parsed input that an event repeats. -/
theorem refined_texts {isDatetime : String → Bool} (h : input.refined isDatetime = true) :
    input.planId ≠ "" ∧ input.nodeId ≠ "" ∧ input.capabilityRef ≠ "" ∧
      input.delegationContext.principalId ≠ "" ∧ input.delegationContext.delegateId ≠ "" := by
  simp only [StepInput.refined, DelegationContext.refined, Bool.and_eq_true, nonempty_iff] at h
  tauto

theorem eventBody_refined {isDatetime : String → Bool} {event : StepEvent}
    (hinput : input.refined isDatetime = true) (hevent : StepEvent.Sound isDatetime event) :
    (eventBody input event).refined isDatetime = true := by
  obtain ⟨-, hnode, href, -, -⟩ := refined_texts hinput
  have hattempt : attemptId input ≠ "" := attemptId_ne_empty
  have happroval : input.planId ++ ":" ++ input.nodeId ++ ":approval" ≠ "" := by
    intro hempty
    have hlist := congrArg String.toList hempty
    simp at hlist
  cases event <;>
    simp_all [StepEvent.Sound, eventBody, RunEventBody.refined, NodeBase.refined]

theorem listener_ne_empty (h : listener o = some runId) : runId ≠ "" := by
  unfold listener at h
  split at h
  · simpa using (Option.filter_eq_some_iff.mp h).2
  · cases h

/-- An event that the schema accepts reaches the sink, if there is one. -/
theorem emitRunEvent_told (hsteady : env.Steady S) (hinput : input.refined S.isDatetime = true)
    {event : StepEvent} {timestamp : String} (htime : S.isDatetime timestamp = true)
    (hevent : StepEvent.Sound S.isDatetime event) {s : Nat} :
    Prog.Shows (stepHandle env) told (emitRunEvent S o input event timestamp) s
      fun out _ seen => out = .ok () ∧
        (∀ runId, listener o = some runId → seen = [eventBody input event]) := by
  unfold emitRunEvent
  cases hlistener : listener o with
  | none =>
      refine Prog.shows_done ⟨rfl, ?_⟩
      intro runId h
      cases h
  | some runId =>
      have hrefined : (createRunEvent runId input.planId timestamp (eventBody input event)).refined
          S.isDatetime = true :=
        createRunEvent_refined (listener_ne_empty hlistener) (refined_texts hinput).1 htime
          (eventBody_refined hinput hevent)
      dsimp only
      rw [if_pos hrefined]
      refine Prog.shows_perform ⟨?_, fun _ _ => rfl⟩
      simp [stepHandle, hsteady.answers s]

/-- A plain part emits no terminal event, and ends as it runs. -/
theorem Plain.shows {p : StepProgram α} (hp : Plain p) {s : Nat} :
    Prog.Shows (stepHandle env) told p s fun out _ seen =>
      (∀ e ∈ seen, e.isTerminal = false) ∧ out = (Prog.exec (stepHandle env) p s).outcome := by
  refine ⟨?_, rfl⟩
  have hkeeps : Prog.Keeps (stepHandle env) (fun call => call.isMark = false ∧
      ∀ event, call.event = some event → event.body.isTerminal = false)
      (fun _ _ => True) (fun _ : Nat => True) :=
    ⟨fun _ _ _ _ => trivial, fun _ _ _ _ _ _ => trivial⟩
  have htrace := (Prog.Obeys.exec hkeeps hp (s := s) trivial).2.1
  intro e he
  obtain ⟨c, hc, hevent⟩ := List.mem_filterMap.mp he
  obtain ⟨event, hsome, rfl⟩ := Option.map_eq_some_iff.mp hevent
  exact (htrace c hc).2.2 event hsome

/-! ### Parts that return -/

/-- Where the hooks answer every call is answered. -/
theorem answers_call (hsteady : env.Steady S) (call : StepCall) :
    Prog.Answers (stepHandle env) (stepCall call) := by
  intro s
  rw [Prog.exec_perform]
  cases call <;> simp [stepHandle, hsteady.answers s]

theorem answers_emitRunEvent (hsteady : env.Steady S) (hinput : input.refined S.isDatetime = true)
    {event : StepEvent} {timestamp : String} (htime : S.isDatetime timestamp = true)
    (hevent : StepEvent.Sound S.isDatetime event) :
    Prog.Answers (stepHandle env) (emitRunEvent S o input event timestamp) :=
  fun _ => ⟨(), (emitRunEvent_told hsteady hinput htime hevent).1⟩

/-- The present instant is a datetime. -/
theorem instant_shows {f : String → StepProgram α} {O : Type} {observe : Nat × StepCall → Option O}
    {post : Except String α → Nat → List O → Prop} {s : Nat} (hsteady : env.Steady S)
    (hclock : ∀ t, observe (t, .dateNow) = none)
    (h : ∀ timestamp s', S.isDatetime timestamp = true →
      Prog.Shows (stepHandle env) observe (f timestamp) s' post) :
    Prog.Shows (stepHandle env) observe ((instant S).bind f) s post := by
  refine Prog.shows_bind (Prog.shows_bind (Prog.shows_perform ?_))
  rw [hclock]
  exact Prog.shows_done (h _ _ (hsteady.dates s))

/-- What follows the present instant answers if it does at every datetime. -/
theorem answers_at_instant (hsteady : env.Steady S) {f : String → StepProgram α}
    (h : ∀ timestamp, S.isDatetime timestamp = true → Prog.Answers (stepHandle env) (f timestamp)) :
    Prog.Answers (stepHandle env) ((instant S).bind f) := by
  intro s
  have hshows : Prog.Shows (stepHandle env) told ((instant S).bind f) s
      fun out _ _ => ∃ a, out = .ok a :=
    instant_shows hsteady (fun _ => rfl) fun timestamp s' htime => h timestamp htime s'
  exact hshows

theorem answers_announceArtifacts (hsteady : env.Steady S)
    (hinput : input.refined S.isDatetime = true) (ids : List String) :
    Prog.Answers (stepHandle env) (announceArtifacts S o input ids) := by
  induction ids with
  | nil => exact Prog.answers_done
  | cons id rest ih =>
      refine Prog.answers_bind (answers_at_instant hsteady fun timestamp htime => ?_) fun _ => ih
      split
      · exact Prog.answers_done
      · rename_i hid
        exact answers_emitRunEvent hsteady hinput htime hid

theorem modelCallArtifactRef_ne_empty {artifact : Value} {id : String}
    (h : modelCallArtifactRef artifact = some id) : id ≠ "" := by
  unfold modelCallArtifactRef at h
  split at h
  · rename_i direct hdirect
    cases h
    simpa using (Option.filter_eq_some_iff.mp hdirect).2
  · split at h
    · simpa using (Option.filter_eq_some_iff.mp h).2
    · cases h

theorem answers_announceModelCall (hsteady : env.Steady S)
    (hinput : input.refined S.isDatetime = true) {artifact : Value} :
    Prog.Answers (stepHandle env) (announceModelCall S o input artifact) := by
  unfold announceModelCall
  split
  · exact Prog.answers_done
  · rename_i id hid
    refine answers_at_instant hsteady fun timestamp htime => ?_
    exact answers_emitRunEvent hsteady hinput htime
      ⟨modelCallArtifactRef_ne_empty hid, by decide, by decide⟩

theorem answers_optionally {given : Bool} {hook : StepProgram Unit} (h : Prog.Answers (stepHandle env) hook) :
    Prog.Answers (stepHandle env) (optionally given hook) := by
  unfold optionally
  split
  · exact h
  · exact Prog.answers_done

theorem answers_recordArtifact (hsteady : env.Steady S)
    (hinput : input.refined S.isDatetime = true) {descriptor : CapabilityDescriptor}
    {artifact : Value} :
    Prog.Answers (stepHandle env) (recordArtifact S o input descriptor artifact) := by
  refine Prog.answers_bind (answers_optionally (answers_call hsteady _)) fun _ => ?_
  refine Prog.answers_bind (answers_announceArtifacts hsteady hinput _) fun _ => ?_
  exact answers_announceModelCall hsteady hinput

/-! ### What an executor records -/

/-- A context that only notes the ids of what is recorded. -/
def noteRefs : Prog.Handler ContextCall (fun _ => Unit) (List String) := fun call refs =>
  match call with
  | .recordArtifact artifact => (.ok (), refs ++ artifactRefs artifact)
  | .recordObservation _ | .recordStatus _ => (.ok (), refs)

/-- The ids of the artifacts that an executor records. -/
def recordings (executor : Executor) : List String := (Prog.exec noteRefs executor []).state

/-- Where the hooks answer, the context serves a call as `noteRefs` does. -/
theorem serveContext_outcome (hsteady : env.Steady S) (hinput : input.refined S.isDatetime = true)
    {descriptor : CapabilityDescriptor} (call : ContextCall) (refs : List String) (s : Nat) :
    (Prog.exec (stepHandle env) (serveContext S o input descriptor call refs) s).outcome
      = .ok (noteRefs call refs) := by
  have hserve : ∀ {hook : StepProgram Unit} {kept : List String},
      Prog.Answers (stepHandle env) hook →
      (Prog.exec (stepHandle env)
        (hook.attempt.bind fun answer => .done (answer, kept)) s).outcome = .ok (.ok (), kept) := by
    intro hook kept hook_answers
    obtain ⟨⟨⟩, hran⟩ := hook_answers s
    have hattempt : (Prog.exec (stepHandle env) hook.attempt s).outcome = .ok (.ok ()) := by
      rw [Prog.exec_attempt, hran]
    rw [Prog.exec_bind_ok _ _ hattempt]
    rfl
  cases call with
  | recordArtifact artifact => exact hserve (answers_recordArtifact hsteady hinput)
  | recordObservation item => exact hserve (answers_optionally (answers_call hsteady _))
  | recordStatus status => exact hserve (answers_optionally (answers_call hsteady _))

/-- The executor within the step records what it records alone. -/
theorem runExecutor_outcome (hsteady : env.Steady S) (hinput : input.refined S.isDatetime = true)
    {descriptor : CapabilityDescriptor} {executor : Executor} (s : Nat) :
    ∃ ended, (Prog.exec (stepHandle env) (runExecutor S o input descriptor executor) s).outcome
      = .ok (ended, recordings executor) := by
  have hinner : (Prog.exec (stepHandle env)
      (Prog.interpret (serveContext S o input descriptor) executor []) s).outcome
        = .ok ((Prog.exec noteRefs executor []).outcome, recordings executor) :=
    Prog.exec_interpret (fun call refs s' => serveContext_outcome hsteady hinput call refs s') _ _ _
  unfold runExecutor
  rw [Prog.bind_eq, Prog.exec_bind_ok _ _ hinner]
  cases (Prog.exec noteRefs executor []).outcome with
  | ok a => exact ⟨a, rfl⟩
  | error m => exact ⟨_, rfl⟩

/-- What the registry hands back: the executor's recordings if it was called, and none
otherwise. -/
theorem executeCapability_told (hsteady : env.Steady S)
    (hinput : input.refined S.isDatetime = true) {descriptor : CapabilityDescriptor}
    {context : PackExecutionContext} {data : Value}
    (hfound : ((packs S o).registry.resolveCapability descriptor.capabilityId).isSome)
    (hkey : isBlank context.idempotencyKey = false) {s : Nat} :
    Prog.Shows (stepHandle env) told (executeCapability S o input descriptor context data) s
      fun out _ seen => (∀ e ∈ seen, e.isTerminal = false) ∧
        ∃ result refs, out = .ok (result, refs) ∧ result.artifacts = [] ∧
          match ((packs S o).definition descriptor.capabilityId).inputSchema data with
          | .error _ => refs = []
          | .ok parsed => refs = recordings
              (((packs S o).definition descriptor.capabilityId).execute context parsed) := by
  refine Prog.shows_bind (Prog.shows_perform ?_)
  have hmark : (told (s, .executeCapability descriptor.capabilityId data)).toList = [] := rfl
  simp only [stepHandle, hmark, List.nil_append]
  obtain ⟨found, hresolved⟩ := Option.isSome_iff_exists.mp hfound
  have hid : found.capabilityId = descriptor.capabilityId := resolveCapability_id hresolved
  rw [hresolved]
  dsimp only
  rw [hid, if_neg (by simp [hkey])]
  unfold executeDefinition
  cases hparsed : ((packs S o).definition descriptor.capabilityId).inputSchema data with
  | error message => exact Prog.shows_done ⟨by simp, _, _, rfl, rfl, rfl⟩
  | ok parsed =>
      refine Prog.shows_bind (Prog.shows_perform ?_)
      have hmark' : (told (s + 1, .execute descriptor.capabilityId parsed)).toList = [] := rfl
      simp only [stepHandle, hmark', List.nil_append]
      refine Prog.shows_bind (plain_runExecutor.shows.mono ?_)
      rintro out s' seen ⟨hseen, hout⟩
      obtain ⟨ended, hended⟩ := runExecutor_outcome hsteady hinput (s + 1 + 1)
      have hout' := hout.trans hended
      subst hout'
      cases ended with
      | error error =>
          refine Prog.shows_done ⟨?_, _, _, rfl, rfl, rfl⟩
          simpa using hseen
      | ok raw =>
          dsimp only
          cases ((packs S o).definition descriptor.capabilityId).outputSchema raw with
          | error message =>
              refine Prog.shows_done ⟨?_, _, _, rfl, rfl, rfl⟩
              simpa using hseen
          | ok output =>
              refine Prog.shows_done ⟨?_, _, _, rfl, rfl, rfl⟩
              simpa using hseen

/-! ### The end of a step -/

/-- One terminal event was emitted, as the last event, and it agrees with the result. -/
def Concluded (out : Except String StepResult) (seen : List RunEventBody) : Prop :=
  ∃ result before last, out = .ok result ∧ seen = before ++ [last] ∧
    (∀ e ∈ before, e.isTerminal = false) ∧ last.isTerminal = true ∧
    (last.isFailure = true ↔ result.status = .failed)

/-- The step concludes where `p` holds, and throws where it does not. -/
def Ends (p : Prop) (out : Except String StepResult) (seen : List RunEventBody) : Prop :=
  (p → Concluded out seen) ∧ (¬p → ∃ message, out = .error message)

theorem Concluded.after {out : Except String StepResult} {before seen : List RunEventBody}
    (hbefore : ∀ e ∈ before, e.isTerminal = false) (h : Concluded out seen) :
    Concluded out (before ++ seen) := by
  obtain ⟨result, before', last, hout, rfl, hbefore', hlast, hagrees⟩ := h
  refine ⟨result, before ++ before', last, hout, by simp, ?_, hlast, hagrees⟩
  intro e he
  rcases List.mem_append.mp he with he | he
  · exact hbefore e he
  · exact hbefore' e he

theorem Ends.after {p : Prop} {out : Except String StepResult} {before seen : List RunEventBody}
    (hbefore : ∀ e ∈ before, e.isTerminal = false) (h : Ends p out seen) :
    Ends p out (before ++ seen) :=
  ⟨fun hp => (h.1 hp).after hbefore, h.2⟩

/-- A plain part that returns changes nothing about how the step ends. -/
theorem Plain.ends {p : Prop} {q : StepProgram α} {f : α → StepProgram StepResult} {s : Nat}
    (hq : Plain q) (hanswers : Prog.Answers (stepHandle env) q)
    (hf : ∀ a s', Prog.Shows (stepHandle env) told (f a) s' fun out _ seen => Ends p out seen) :
    Prog.Shows (stepHandle env) told (q.bind f) s fun out _ seen => Ends p out seen := by
  refine Prog.shows_bind (hq.shows.mono ?_)
  rintro out s' seen ⟨hseen, hout⟩
  obtain ⟨a, ha⟩ := hanswers s
  rw [ha] at hout
  subst hout
  exact (hf a s').mono fun _ _ _ h => h.after hseen

/-- What a way out tells parses, but for the artifacts. -/
structure StepEnd.Sound (isDatetime : String → Bool) (ending : StepEnd) : Prop where
  report : ending.policyReport.all (·.refined isDatetime) = true
  observations : ending.observations.all (·.refined isDatetime) = true
  errors : ending.structuredErrors.all (·.refined isDatetime) = true

/-- The artifacts of a result parse exactly if none has the empty id. -/
theorem distinct_nonempty {refs : List String} :
    (distinct refs).all nonempty = true ↔ "" ∉ refs := by
  rw [List.all_eq_true]
  constructor
  · intro h hmem
    exact absurd (h "" (mem_distinct.mpr hmem)) (by decide)
  · intro h id hid
    rw [nonempty_iff]
    rintro rfl
    exact h (mem_distinct.mp hid)

theorem terminalEvent_sound {isDatetime : String → Bool} {result : StepResult}
    (h : result.structuredErrors.all (·.refined isDatetime) = true) :
    StepEvent.Sound isDatetime (terminalEvent result) := by
  unfold terminalEvent
  split
  · exact h
  · refine List.all_eq_true.mpr fun id hid => ?_
    rw [nonempty_iff]
    simpa using (List.mem_filter.mp hid).2

/-- The terminal event is one, and tells a failure exactly if the result is one. -/
theorem terminalEvent_agrees {result : StepResult} :
    (eventBody input (terminalEvent result)).isTerminal = true ∧
      ((eventBody input (terminalEvent result)).isFailure = true ↔ result.status = .failed) := by
  unfold terminalEvent
  split
  · rename_i hfailed
    exact ⟨rfl, fun _ => hfailed, fun _ => rfl⟩
  · rename_i hfailed
    refine ⟨rfl, ?_⟩
    simp [eventBody, RunEventBody.isFailure, hfailed]

theorem plain_recordPlanState {result : StepResult} : Plain (recordPlanState o input result now) := by
  unfold recordPlanState
  split
  · exact plain_call rfl rfl
  · exact plain_done

theorem answers_recordPlanState (hsteady : env.Steady S) {result : StepResult} :
    Prog.Answers (stepHandle env) (recordPlanState o input result now) := by
  unfold recordPlanState
  split
  · exact answers_call hsteady _
  · exact Prog.answers_done

theorem plain_announceApproval {result : StepResult} : Plain (announceApproval S o input result) := by
  unfold announceApproval
  split
  · exact plain_emitRunEvent rfl
  · exact plain_done

theorem answers_announceApproval (hsteady : env.Steady S)
    (hinput : input.refined S.isDatetime = true) {result : StepResult}
    (hcompleted : S.isDatetime result.completedAt = true) :
    Prog.Answers (stepHandle env) (announceApproval S o input result) := by
  unfold announceApproval
  split
  · exact answers_emitRunEvent hsteady hinput hcompleted trivial
  · exact Prog.answers_done

/-- A result that parses is published, the terminal event last. -/
theorem publish_told (hsteady : env.Steady S) (hinput : input.refined S.isDatetime = true)
    (hlistener : listener o = some runId) {result : StepResult}
    (hresult : result.refined S.isDatetime = true) {s : Nat} :
    Prog.Shows (stepHandle env) told (publish S o input now result) s
      fun out _ seen => Ends True out seen := by
  have hparts := hresult
  simp only [StepResult.refined, Bool.and_eq_true] at hparts
  obtain ⟨⟨⟨-, herrors⟩, -⟩, hcompleted⟩ := hparts
  refine plain_recordPlanState.ends (answers_recordPlanState hsteady) fun _ s₁ => ?_
  refine plain_announceApproval.ends (answers_announceApproval hsteady hinput hcompleted)
    fun _ s₂ => ?_
  refine Prog.shows_bind ((emitRunEvent_told hsteady hinput hcompleted
    (terminalEvent_sound herrors)).mono ?_)
  rintro out s₃ seen ⟨rfl, hseen⟩
  rw [hseen runId hlistener]
  refine Prog.shows_done ⟨fun _ => ?_, fun h => absurd trivial h⟩
  exact ⟨result, [], _, rfl, rfl, by simp, terminalEvent_agrees⟩

/-- **The end of a step.**  `finish` concludes unless an artifact has the empty id. -/
theorem finish_told (hsteady : env.Steady S) (hinput : input.refined S.isDatetime = true)
    (hlistener : listener o = some runId) {started : Nat} {ending : StepEnd}
    (hstarted : S.isDatetime (S.toISOString started) = true)
    (hsound : StepEnd.Sound S.isDatetime ending) {s : Nat} :
    Prog.Shows (stepHandle env) told (finish S o input started now ending) s
      fun out _ seen => Ends ("" ∉ ending.outputArtifactRefs) out seen := by
  refine (plain_call rfl rfl).ends (answers_call hsteady _) fun ended s₁ => ?_
  refine instant_shows hsteady (fun _ => rfl) fun completedAt s₂ hcompleted => ?_
  have hrefined : (stepResult S input started ended completedAt ending).refined S.isDatetime = true
      ↔ "" ∉ ending.outputArtifactRefs := by
    rw [← distinct_nonempty]
    simp only [StepResult.refined, stepResult, hsound.report, hsound.observations, hsound.errors,
      hstarted, hcompleted, Bool.and_true]
  dsimp only
  split
  · rename_i hparses
    refine (publish_told hsteady hinput hlistener hparses).mono fun out s₃ seen h => ?_
    exact ⟨fun _ => h.1 trivial, fun hnot => absurd (hrefined.mp hparses) hnot⟩
  · rename_i hrefused
    refine Prog.shows_fail ⟨fun hnamed => absurd (hrefined.mpr hnamed) hrefused, fun _ => ?_⟩
    exact ⟨_, rfl⟩

/-! ### The ways out -/

/-- A way out with one error parses at a datetime. -/
theorem single_sound {isDatetime : String → Bool} {intentId : Option String}
    {report : Option PolicyDecisionReport} {status : CapabilityStepStatus}
    {code message summary : String} {observed : ObservationStatus} {refs : List String}
    (hnow : isDatetime now = true) (hcode : code ∈ structuredErrorCodes)
    (hreport : report.all (·.refined isDatetime) = true) :
    StepEnd.Sound isDatetime
      (single S input now intentId report status code message observed summary refs) where
  report := hreport
  observations := by
    have hid : ∀ hash : String, "observation_" ++ hash ≠ "" := append_ne_empty (by decide)
    simp [single, Observation.refined, observation, hnow, hid]
  errors := by simp [single, StructuredError.refined, hcode, hnow]

/-- At an instant that is no datetime no result parses. -/
theorem single_refused {started : Nat} {intentId : Option String}
    {report : Option PolicyDecisionReport} {status : CapabilityStepStatus}
    {code message summary : String} {observed : ObservationStatus} {refs : List String} {s : Nat}
    (hsteady : env.Steady S) (hnow : S.isDatetime now = false) :
    ∃ m, (Prog.exec (stepHandle env) (finish S o input started now
      (single S input now intentId report status code message observed summary refs)) s).outcome
        = .error m := by
  have hshows : Prog.Shows (stepHandle env) told (finish S o input started now
      (single S input now intentId report status code message observed summary refs)) s
      fun out _ _ => ∃ m, out = .error m := by
    refine Prog.shows_bind (Prog.shows_perform ?_)
    refine instant_shows hsteady (fun _ => rfl) fun completedAt s₂ _ => ?_
    have hrefused : (stepResult S input started (env.dateNow s) completedAt
        (single S input now intentId report status code message observed summary refs)).refined
          S.isDatetime = false := by
      simp [StepResult.refined, stepResult, single, StructuredError.refined, hnow]
    dsimp only
    rw [if_neg (by simp [hrefused])]
    exact Prog.shows_fail ⟨_, rfl⟩
  exact hshows

theorem normalizeErrorCode_mem (code : String) : normalizeErrorCode code ∈ structuredErrorCodes := by
  have hallowed : ∀ code ∈ allowedErrorCodes, code ∈ structuredErrorCodes := by decide
  unfold normalizeErrorCode
  split
  · exact hallowed _ ‹_›
  · decide

theorem reported_sound {isDatetime : String → Bool} {descriptor : CapabilityDescriptor}
    {report : PolicyDecisionReport} {result : CapabilityExecutionResult} {refs : List String}
    (hnow : isDatetime now = true) (hreport : report.refined isDatetime = true) :
    StepEnd.Sound isDatetime (reported S o input descriptor now report result refs) := by
  have hid : ∀ hash : String, "observation_" ++ hash ≠ "" := append_ne_empty (by decide)
  unfold reported
  dsimp only
  split
  · exact single_sound hnow (by decide) (by simpa using hreport)
  · refine ⟨by simpa using hreport, by simp [Observation.refined, observation, hnow, hid], ?_⟩
    simp [StructuredError.refined, normalizedError, normalizeErrorCode_mem, hnow]

theorem reported_refs {descriptor : CapabilityDescriptor} {report : PolicyDecisionReport}
    {result : CapabilityExecutionResult} {refs : List String} (h : result.artifacts = []) :
    (reported S o input descriptor now report result refs).outputArtifactRefs = refs := by
  unfold reported
  dsimp only
  split <;> simp [single, h]

theorem policyReport_refined {descriptor : CapabilityDescriptor}
    (hinput : input.refined S.isDatetime = true) (hdescriptor : descriptor.refined = true)
    (hnow : S.isDatetime now = true) :
    (evaluatePolicyWithReport S.dateParse (policyInput S o input descriptor now)).2.refined
      S.isDatetime = true := by
  have hreport : ∃ result rules scopes approvals,
      (evaluatePolicyWithReport S.dateParse (policyInput S o input descriptor now)).2
        = (policyInput S o input descriptor now).report result rules scopes approvals :=
    evaluatePolicyWithReport_report
  obtain ⟨result, rules, scopes, approvals, hreport⟩ := hreport
  obtain ⟨-, -, -, hprincipal, hdelegate⟩ := refined_texts hinput
  have hpack : descriptor.packId ≠ "" := by
    simp only [CapabilityDescriptor.refined, Bool.and_eq_true, nonempty_iff] at hdescriptor
    exact hdescriptor.1.1.2
  have href : descriptor.packId ++ "." ++ descriptor.name ≠ "" :=
    append_ne_empty (append_ne_empty hpack _) _
  have hkind : ∀ kind : SideEffectKind, kind.text ≠ "" := by
    intro kind
    cases kind <;> decide
  rw [hreport]
  simp [PolicyDecisionReport.refined, PolicyGateInput.report, policyInput,
    PolicyGateInput.capabilityRef, sdkDescriptorToPolicyCapability, hprincipal, hdelegate, hpack,
    href, hkind, hnow]

/-! ### The whole step -/

variable (S o input) in
/-- Every artifact that the executor records, should it be called, has an id. -/
def Named (now : String) : Prop :=
  ∀ descriptor data parsed, Admitted S o input now descriptor data →
    ((packs S o).definition descriptor.capabilityId).inputSchema data = .ok parsed →
    "" ∉ recordings (work S o input descriptor now parsed)

theorem named_of_stopped (h : ∀ descriptor data, ¬Admitted S o input now descriptor data) :
    Named S o input now :=
  fun descriptor data _ hadmitted => absurd hadmitted (h descriptor data)

theorem Ends.of_iff {p q : Prop} {out : Except String StepResult} {seen : List RunEventBody}
    (h : Ends p out seen) (hpq : p ↔ q) : Ends q out seen :=
  ⟨fun hq => h.1 (hpq.mpr hq), fun hq => h.2 fun hp => hq (hpq.mp hp)⟩

section Steady

variable (hsteady : env.Steady S) (hinput : input.refined S.isDatetime = true)
  (hlistener : listener o = some runId) (hnow : S.isDatetime now = true) {started : Nat}
  (hstarted : S.isDatetime (S.toISOString started) = true)

include hsteady hinput hlistener hnow hstarted

/-- A way out before the executor concludes. -/
theorem single_told {intentId : Option String} {report : Option PolicyDecisionReport}
    {status : CapabilityStepStatus} {code message summary : String} {observed : ObservationStatus}
    {s : Nat} (hcode : code ∈ structuredErrorCodes)
    (hreport : report.all (·.refined S.isDatetime) = true)
    (hstopped : ∀ descriptor data, ¬Admitted S o input now descriptor data) :
    Prog.Shows (stepHandle env) told (finish S o input started now
        (single S input now intentId report status code message observed summary [])) s
      fun out _ seen => Ends (Named S o input now) out seen := by
  have hsound : StepEnd.Sound S.isDatetime
      (single S input now intentId report status code message observed summary []) :=
    single_sound hnow hcode hreport
  refine (finish_told hsteady hinput hlistener hstarted hsound).mono fun out s' seen h => ?_
  exact h.of_iff ⟨fun _ => named_of_stopped hstopped, fun _ => by simp [single]⟩

/-- The part of a step behind the schema concludes if what is recorded has ids. -/
theorem afterGate_told {descriptor : CapabilityDescriptor} {data : Value} {s : Nat}
    (hresolves : resolveCapabilityForStep (packs S o).registry S.localeCompare input.capabilityRef
      = some descriptor)
    (hdigest : descriptor.capabilityDigest = input.capabilityDigest)
    (hschema : ((packs S o).definition descriptor.capabilityId).inputSchema input.input = .ok data) :
    Prog.Shows (stepHandle env) told (afterGate S o input started now descriptor data) s
      fun out _ seen => Ends (Named S o input now) out seen := by
  have hmem : descriptor ∈ (packs S o).registry.capabilities := resolveCapabilityForStep_mem hresolves
  have hdescriptor : descriptor.refined = true := (packs S o).refined descriptor hmem
  have hreport := policyReport_refined (o := o) hinput hdescriptor hnow
  -- Whatever is admitted here is this capability, and the gate allowed it.
  have honly : ∀ descriptor' data', Admitted S o input now descriptor' data' →
      descriptor' = descriptor := by
    intro descriptor' data' hadmitted
    have hsame := hadmitted.resolves
    rw [hresolves] at hsame
    exact (Option.some.inj hsame).symm
  have hstop : (evaluatePolicy S.dateParse (policyInput S o input descriptor now)).outcome ≠ .allow →
      ∀ descriptor' data', ¬Admitted S o input now descriptor' data' := by
    intro hpolicy descriptor' data' hadmitted
    have hsame := honly descriptor' data' hadmitted
    subst hsame
    exact hpolicy hadmitted.allowed
  have hout : ∀ {status : CapabilityStepStatus} {code message summary : String}
      {observed : ObservationStatus} {s : Nat}, code ∈ structuredErrorCodes →
      (∀ descriptor' data', ¬Admitted S o input now descriptor' data') →
      Prog.Shows (stepHandle env) told (finish S o input started now (single S input now
          (some (intentFromStep input descriptor).intentId)
          (some (evaluatePolicyWithReport S.dateParse (policyInput S o input descriptor now)).2)
          status code message observed summary [])) s
        fun out _ seen => Ends (Named S o input now) out seen :=
    fun hcode hstopped => single_told hsteady hinput hlistener hnow hstarted hcode
      (by simpa using hreport) hstopped
  unfold afterGate
  dsimp only
  split
  · rename_i hdeny
    exact hout (by decide) (hstop (by rw [evaluatePolicy, hdeny]; decide))
  · rename_i hyield
    exact hout (by decide) (hstop (by rw [evaluatePolicy, hyield]; decide))
  · rename_i happroval
    exact hout (by decide) (hstop (by rw [evaluatePolicy, happroval]; decide))
  · rename_i hallow
    split
    · rename_i hmock
      exact hout (by decide) fun _ _ hadmitted => hmock.2 (hadmitted.mockInTests hmock.1)
    · rename_i hmock
      split
      · rename_i hdry
        exact hout (by decide) fun _ _ hadmitted => hadmitted.notDry hdry
      · rename_i hdry
        have hkey : isBlank input.idempotencyKey = false :=
          (evaluatePolicy_allow.mp hallow).2.2.2.2.1
        have hid : descriptor.capabilityId ≠ "" := by
          simp only [CapabilityDescriptor.refined, Bool.and_eq_true, nonempty_iff] at hdescriptor
          exact hdescriptor.1.1.1
        refine Prog.shows_bind ((executeCapability_told hsteady hinput
          (resolveCapability_isSome hmem hid) hkey).mono ?_)
        rintro out s₁ seen ⟨hseen, result, refs, rfl, hartifacts, hrefs⟩
        have hsound : StepEnd.Sound S.isDatetime (reported S o input descriptor now
            (evaluatePolicyWithReport S.dateParse (policyInput S o input descriptor now)).2
            result refs) := reported_sound hnow hreport
        refine (finish_told hsteady hinput hlistener hstarted hsound).mono fun out s₂ seen' h => ?_
        refine (h.of_iff ?_).after hseen
        rw [reported_refs hartifacts]
        have hadmitted : Admitted S o input now descriptor data :=
          ⟨hinput, hresolves, hdigest, hschema, hallow, hdry, fun hmode => by
            by_contra htest
            exact hmock ⟨hmode, htest⟩⟩
        constructor
        · intro hnamed descriptor' data' parsed hadmitted' hagain
          have hsame := honly descriptor' data' hadmitted'
          subst hsame
          have hdata : data' = data := by
            have hschema' := hadmitted'.schema
            rw [hschema] at hschema'
            exact (Except.ok.inj hschema').symm
          subst hdata
          rw [hagain] at hrefs
          rw [hrefs] at hnamed
          exact hnamed
        · intro hnamed
          cases hagain : ((packs S o).definition descriptor.capabilityId).inputSchema data with
          | error message =>
              rw [hagain] at hrefs
              rw [hrefs]
              exact List.not_mem_nil
          | ok parsed =>
              rw [hagain] at hrefs
              rw [hrefs]
              exact hnamed descriptor data parsed hadmitted hagain

/-- The part of a step behind the digest. -/
theorem judgeStep_told {descriptor : CapabilityDescriptor} {s : Nat}
    (hresolves : resolveCapabilityForStep (packs S o).registry S.localeCompare input.capabilityRef
      = some descriptor)
    (hdigest : descriptor.capabilityDigest = input.capabilityDigest) :
    Prog.Shows (stepHandle env) told (judgeStep S o input started now descriptor) s
      fun out _ seen => Ends (Named S o input now) out seen := by
  refine (plain_emitRunEvent rfl).ends (answers_emitRunEvent hsteady hinput hnow trivial)
    fun _ s₁ => ?_
  split
  · rename_i message hrefused
    refine single_told hsteady hinput hlistener hnow hstarted (by decide) rfl ?_
    intro descriptor' data' hadmitted
    have hsame := hadmitted.resolves
    rw [hresolves] at hsame
    obtain rfl := Option.some.inj hsame
    have hschema := hadmitted.schema
    rw [hrefused] at hschema
    cases hschema
  · rename_i data hschema
    have hdecision : ∀ outcome : PolicyOutcome, outcome.text ≠ "" := by
      intro outcome
      cases outcome <;> decide
    refine (plain_emitRunEvent rfl).ends
      (answers_emitRunEvent hsteady hinput hnow (hdecision _)) fun _ s₂ => ?_
    exact afterGate_told hsteady hinput hlistener hnow hstarted hresolves hdigest hschema

end Steady

variable (S o env input) in
/-- A step is answerable: its input parses, the instant it runs at is a datetime, and every
artifact that its executor records has an id. -/
structure Answerable (s : Nat) : Prop where
  wellFormed : input.refined S.isDatetime = true
  present : S.isDatetime (presentAt S o env s) = true
  named : Named S o input (presentAt S o env s)

/-- At an instant that is no datetime a step does not conclude. -/
theorem runCapabilityStep_undated (hsteady : env.Steady S)
    (hinput : input.refined S.isDatetime = true) (hlistener : listener o = some runId) {s : Nat}
    (hnow : S.isDatetime (presentAt S o env s) = false) :
    Prog.Shows (stepHandle env) told (runCapabilityStep S o input) s
      fun out _ _ => ∃ m, out = .error m := by
  refine Prog.shows_bind (Prog.shows_perform ?_)
  simp only [stepHandle]
  rw [if_pos hinput]
  refine now_shows (fun _ => rfl) fun s' => ?_
  split
  · exact single_refused hsteady hnow
  · rename_i descriptor hresolves
    split
    · exact single_refused hsteady hnow
    · unfold judgeStep emitRunEvent
      rw [hlistener]
      dsimp only
      rw [if_neg (by simp [RunEvent.refined, createRunEvent, hnow])]
      exact Prog.shows_fail ⟨_, rfl⟩

/-- **The events of a step.**  Where the hooks answer, a step that is listened to concludes
with one terminal event exactly if it is answerable. -/
theorem runCapabilityStep_concludes (hsteady : env.Steady S) (hlistener : listener o = some runId)
    {s : Nat} :
    Prog.Shows (stepHandle env) told (runCapabilityStep S o input) s
      fun out _ seen => Ends (Answerable S o env input s) out seen := by
  by_cases hinput : input.refined S.isDatetime = true
  · by_cases hnow : S.isDatetime (presentAt S o env s) = true
    · refine Prog.shows_bind (Prog.shows_perform ?_)
      simp only [stepHandle]
      rw [if_pos hinput]
      refine now_shows (fun _ => rfl) fun s' => ?_
      have hiff : Named S o input (presentAt S o env s) ↔ Answerable S o env input s :=
        ⟨fun h => ⟨hinput, hnow, h⟩, fun h => h.named⟩
      -- it is enough that the step ends as its name says
      have hends : ∀ p, Prog.Shows (stepHandle env) told p s'
          (fun out _ seen => Ends (Named S o input (presentAt S o env s)) out seen) →
          Prog.Shows (stepHandle env) told p s'
            (fun out _ seen => Ends (Answerable S o env input s) out seen) :=
        fun p hp => hp.mono fun out s'' seen h => h.of_iff hiff
      refine hends _ ?_
      split
      · rename_i hresolves
        refine single_told hsteady hinput hlistener hnow (hsteady.dates s) (by decide) rfl ?_
        intro descriptor data hadmitted
        rw [hadmitted.resolves] at hresolves
        cases hresolves
      · rename_i descriptor hresolves
        split
        · rename_i hdigest
          refine single_told hsteady hinput hlistener hnow (hsteady.dates s) (by decide) rfl ?_
          intro descriptor' data hadmitted
          have hsame := hadmitted.resolves
          rw [hresolves] at hsame
          obtain rfl := Option.some.inj hsame
          exact hdigest hadmitted.digest
        · rename_i hdigest
          exact judgeStep_told hsteady hinput hlistener hnow (hsteady.dates s) hresolves
            (by simpa using hdigest)
    · refine (runCapabilityStep_undated hsteady hinput hlistener (by simpa using hnow)).mono ?_
      intro out s' seen h
      exact ⟨fun hanswerable => absurd hanswerable.present hnow, fun _ => h⟩
  · refine Prog.shows_bind (Prog.shows_perform ?_)
    simp only [stepHandle]
    rw [if_neg hinput]
    exact Prog.shows_fail
      ⟨fun hanswerable => absurd hanswerable.wellFormed hinput, fun _ => ⟨_, rfl⟩⟩

/-! ### The execution gate -/

variable (S o env input) in
/-- Executing is gated, and a step that is listened to concludes with one terminal event. -/
structure Guarded (s : Nat) : Prop where
  gated : Gated S o env input s
  concluded : (listener o).isSome → Concluded (stepRun S o env input s).outcome
    ((stepRun S o env input s).trace.filterMap told)

/-- **The execution gate.**  Executing is gated however the hooks behave; and where they
answer, the step is guarded exactly if it is answerable, should anybody listen. -/
theorem runCapabilityStep_guarded (S : StepPlatform) (o : CapabilityStepRunnerOptions)
    (input : StepInput) (s : Nat) :
    (∀ env, Gated S o env input s) ∧
      ∀ env : StepEnv, env.Steady S →
        (Guarded S o env input s ↔ ((listener o).isSome → Answerable S o env input s)) := by
  refine ⟨fun env => runCapabilityStep_gated S o env input s, fun env hsteady => ?_⟩
  constructor
  · intro hguarded hlistens
    obtain ⟨runId, hlistener⟩ := Option.isSome_iff_exists.mp hlistens
    have hends : Ends (Answerable S o env input s) (stepRun S o env input s).outcome
        ((stepRun S o env input s).trace.filterMap told) :=
      runCapabilityStep_concludes hsteady hlistener
    by_contra hnot
    obtain ⟨message, hthrow⟩ := hends.2 hnot
    obtain ⟨result, before, last, hresult, -⟩ := hguarded.concluded hlistens
    rw [hthrow] at hresult
    cases hresult
  · intro hanswerable
    refine ⟨runCapabilityStep_gated S o env input s, fun hlistens => ?_⟩
    obtain ⟨runId, hlistener⟩ := Option.isSome_iff_exists.mp hlistens
    exact (runCapabilityStep_concludes hsteady hlistener).1 (hanswerable hlistens)

/-! ### A sample step -/

def sampleDescriptor : CapabilityDescriptor where
  capabilityId := "test.echo"
  packId := "test"
  name := "echo"
  description := "Echo the input and record an artifact."
  inputSchema := .null
  outputSchema := .null
  riskLevel := .read
  requiresApproval := false
  scopes := ["test:read"]
  capabilityDigest := sampleDigest

/-- An executor that records an artifact of the given id and echoes its input. -/
def sampleExecutor (artifactId : String) (data : Value) : Executor :=
  .call (.recordArtifact (.obj [("artifact_id", .str artifactId)])) fun _ => .done (.ok data)

def samplePacks (artifactId : String) : RegisteredPacks where
  registry := ⟨[sampleDescriptor]⟩
  definition := fun _ =>
    { sideEffectKind := .none
      idempotencyMode := .recommended
      timeoutMs := 1000
      inputSchema := .ok
      outputSchema := .ok
      execute := fun _ data => sampleExecutor artifactId data }
  refined := by decide

def sampleSteps (artifactId : String) : StepPlatform where
  toPlatform := samplePlatform
  toISOString := fun _ => "2026-01-01T00:00:00.000Z"
  dateParse := fun _ => none
  nodeEnv := none
  packRegistry := samplePacks artifactId
  zodError := fun schema => schema ++ " refuses the value."

def sampleStepOptions : CapabilityStepRunnerOptions where
  registry := none
  now := none
  scopedTask := none
  bounds := none
  endpointAttemptsUsed := none
  runtimeConfig := none
  planState := none
  planStateStore := false
  recordArtifact := false
  recordObservation := false
  recordStatus := false
  emitRunEvent := true
  runId := some "run"

def sampleContext (allowedCapabilities allowedScopes : List String) : DelegationContext where
  principalId := "human"
  principalType := "human"
  delegateId := "runtime"
  delegateType := "runtime"
  projectId := "project"
  workspaceId := "workspace"
  allowedScopes
  deniedScopes := []
  allowedCapabilities
  maxRiskLevel := .read
  approvalRequiredFor := []
  expiresAt := "2026-01-01T01:00:00.000Z"
  traceId := "trace"
  parentRunId := "run"
  taskRunId := none

def sampleStep (context : DelegationContext) : StepInput where
  stepId := none
  planId := "plan"
  nodeId := "node"
  capabilityRef := "test.echo"
  capabilityDigest := sampleDigest
  input := .str "text"
  delegationContext := context
  idempotencyKey := "key"
  inputArtifactRefs := []
  executionMode := none
  dryRun := false
  traceId := none

/-- The clock shows one moment and the hooks answer. -/
def sampleStepEnv : StepEnv where
  dateNow := fun _ => 0
  fault := fun _ => none

theorem sampleStepEnv_steady (artifactId : String) :
    sampleStepEnv.Steady (sampleSteps artifactId) where
  answers := fun _ => rfl
  dates := fun _ => rfl

/-- The gate of the sample lets it through, whatever the delegation allows. -/
theorem sampleStep_admitted (artifactId : String) (capabilities scopes : List String) :
    Admitted (sampleSteps artifactId) sampleStepOptions
      (sampleStep (sampleContext capabilities scopes)) "2026-01-01T00:00:00.000Z" sampleDescriptor
      (.str "text") where
  wellFormed := by
    have hdigest : isSha256Hex sampleDigest = true := by decide
    simp [StepInput.refined, DelegationContext.refined, sampleStep, sampleContext, sampleSteps,
      samplePlatform, hdigest]
  resolves := rfl
  digest := rfl
  schema := rfl
  allowed := by
    rw [evaluatePolicy_allow]
    have hkey : isBlank "key" = false := by decide
    refine ⟨rfl, rfl, ?_, ?_, hkey, rfl, rfl⟩
    · simp [PolicyGateInput.capabilityAllowed, policyInput, sampleStepOptions, scopedTaskFromStep,
        sdkDescriptorToPolicyCapability]
    · rfl
  notDry := fun h => by cases h
  mockInTests := fun h => by cases h

/-- Where the recorded artifact has an id, the sample is answerable and so it is guarded. -/
theorem sampleStep_guarded :
    sampleStepEnv.Steady (sampleSteps "artifact") ∧
      Guarded (sampleSteps "artifact") sampleStepOptions sampleStepEnv
        (sampleStep (sampleContext ["echo"] ["test:read"])) 0 := by
  refine ⟨sampleStepEnv_steady _, ?_⟩
  refine ((runCapabilityStep_guarded (sampleSteps "artifact") sampleStepOptions
    (sampleStep (sampleContext ["echo"] ["test:read"])) 0).2 sampleStepEnv
    (sampleStepEnv_steady _)).mpr fun _ => ⟨(sampleStep_admitted "artifact" _ _).wellFormed, rfl, ?_⟩
  intro descriptor data parsed hadmitted hagain
  have hrecords : ∀ value, "" ∉ recordings (sampleExecutor "artifact" value) := by
    intro value
    simp [recordings, sampleExecutor, Prog.exec, noteRefs, artifactRefs, recordField,
      Value.property, textOf, distinct, Value.inherited, Value.inheritedNames]
  exact hrecords parsed

/-- **An artifact without an id silences a step.**  The executor of the sample records an
artifact whose id is the empty text, and no terminal event reaches the sink. -/
theorem sampleStep_silent :
    ¬Guarded (sampleSteps "") sampleStepOptions sampleStepEnv
      (sampleStep (sampleContext ["echo"] ["test:read"])) 0 := by
  intro hguarded
  have hlistener : listener sampleStepOptions = some "run" := rfl
  have hends : Ends
      (Answerable (sampleSteps "") sampleStepOptions sampleStepEnv
        (sampleStep (sampleContext ["echo"] ["test:read"])) 0) _ _ :=
    runCapabilityStep_concludes (sampleStepEnv_steady "") hlistener
  obtain ⟨message, hthrow⟩ := hends.2 fun hanswerable =>
    hanswerable.named sampleDescriptor (.str "text") (.str "text") (sampleStep_admitted "" _ _) rfl
      (by
        show "" ∈ recordings (sampleExecutor "" (.str "text"))
        simp [recordings, sampleExecutor, Prog.exec, noteRefs, artifactRefs, recordField,
          Value.property, textOf, distinct, Value.inherited, Value.inheritedNames])
  obtain ⟨result, before, last, hresult, -⟩ := hguarded.concluded rfl
  have hsame : (stepRun (sampleSteps "") sampleStepOptions sampleStepEnv
      (sampleStep (sampleContext ["echo"] ["test:read"])) 0).outcome = .error message := hthrow
  rw [hsame] at hresult
  cases hresult

end CapabilityStep

end OpenLagrange
