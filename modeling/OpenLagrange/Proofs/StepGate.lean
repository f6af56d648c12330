/-
The gate of a capability step.

Two things are seen of a step: the marks, which tell when the registry was entered and
the executor called, and the events that reach the sink.

`Marked` lists what the marks of a step can be: none, the registry alone, or the
registry and then the executor, the last two only behind the whole gate.  It holds
however the hooks behave, since a throw only ends the step earlier.

The events are told for hooks that answer.  Every way out of a step ends in `finish`,
whose last act is the terminal event, unless the schema refuses the result; it refuses
exactly where an artifact without an id was recorded.
-/
import OpenLagrange.Runtime.CapabilityStepRunner

namespace OpenLagrange

/-! ### What is seen -/

/-- The two calls that mark a moment of the execution. -/
def StepCall.isMark : StepCall → Bool
  | .executeCapability _ _ | .execute _ _ => true
  | _ => false

/-- The call that enters the registry. -/
def StepCall.entersRegistry : StepCall → Bool
  | .executeCapability _ _ => true
  | _ => false

/-- The event a call hands to the sink. -/
def StepCall.event : StepCall → Option RunEvent
  | .emitRunEvent event => some event
  | _ => none

def RunEventBody.isTerminal : RunEventBody → Bool
  | .capabilityCompleted _ _ _ | .capabilityFailed _ _ _ => true
  | _ => false

def RunEventBody.isFailure : RunEventBody → Bool
  | .capabilityFailed _ _ _ => true
  | _ => false

namespace CapabilityStep

def marks (c : Nat × StepCall) : Option StepCall := if c.2.isMark then some c.2 else none

def told (c : Nat × StepCall) : Option RunEventBody := c.2.event.map (·.body)

variable {S : StepPlatform} {o : CapabilityStepRunnerOptions} {env : StepEnv} {input : StepInput}
  {α β : Type}

/-! ### Parts that leave no mark -/

/-- The program makes no mark, and what it returns satisfies `Q`. -/
def Unmarked (p : StepProgram α) (Q : α → Prop) : Prop :=
  Prog.Obeys (fun call => call.isMark = false) (fun _ _ => True) Q p

/-- The program makes no mark and emits no terminal event. -/
def Plain (p : StepProgram α) : Prop :=
  Prog.Obeys (fun call => call.isMark = false ∧
    ∀ event, call.event = some event → event.body.isTerminal = false)
    (fun _ _ => True) (fun _ => True) p

theorem plain_done {a : α} : Plain (.done a) := trivial

theorem plain_bind {p : StepProgram α} {f : α → StepProgram β} (hp : Plain p)
    (hf : ∀ a, Plain (f a)) : Plain (p.bind f) :=
  Prog.obeys_bind hp fun a _ => hf a

theorem plain_call {call : StepCall} (hmark : call.isMark = false) (hevent : call.event = none) :
    Plain (stepCall call) := by
  refine Prog.obeys_perform ⟨hmark, ?_⟩ fun _ _ => trivial
  intro event he
  rw [hevent] at he
  cases he

theorem plain_attempt {p : StepProgram α} (hp : Plain p) : Plain p.attempt :=
  (Prog.obeys_attempt hp).mono (fun _ h => h) (fun _ _ h => h) fun _ _ => trivial

theorem Plain.unmarked {p : StepProgram α} (hp : Plain p) : Unmarked p fun _ => True :=
  Prog.Obeys.mono hp (fun _ h => h.1) (fun _ _ h => h) fun _ h => h

theorem plain_instant : Plain (instant S) :=
  plain_bind (plain_call rfl rfl) fun _ => plain_done

theorem unmarked_call {call : StepCall} (hmark : call.isMark = false) :
    Unmarked (stepCall call) fun _ => True :=
  Prog.obeys_perform hmark fun _ _ => trivial

theorem unmarked_emitRunEvent {event : StepEvent} {timestamp : String} :
    Unmarked (emitRunEvent S o input event timestamp) fun _ => True := by
  unfold emitRunEvent
  split
  · exact Prog.obeys_done trivial
  · dsimp only
    split
    · exact unmarked_call rfl
    · exact Prog.obeys_fail

theorem plain_emitRunEvent {event : StepEvent} {timestamp : String}
    (h : (eventBody input event).isTerminal = false) :
    Plain (emitRunEvent S o input event timestamp) := by
  have hplain : ∀ runId, Plain (stepCall (.emitRunEvent
      (createRunEvent runId input.planId timestamp (eventBody input event)))) := by
    intro runId
    refine Prog.obeys_perform (And.intro rfl ?_) fun _ _ => trivial
    intro emitted he
    cases he
    exact h
  unfold emitRunEvent
  split
  · exact plain_done
  · dsimp only
    split
    · exact hplain _
    · exact Prog.obeys_fail

theorem plain_announceArtifact {id : String} : Plain (announceArtifact S o input id) := by
  refine plain_bind plain_instant fun timestamp => ?_
  split
  · exact plain_done
  · exact plain_emitRunEvent rfl

theorem plain_announceArtifacts (ids : List String) : Plain (announceArtifacts S o input ids) := by
  induction ids with
  | nil => exact plain_done
  | cons id rest ih => exact plain_bind plain_announceArtifact fun _ => ih

theorem plain_announceModelCall {artifact : Value} : Plain (announceModelCall S o input artifact) := by
  unfold announceModelCall
  split
  · exact plain_done
  · exact plain_bind plain_instant fun _ => plain_emitRunEvent rfl

theorem plain_optionally {given : Bool} {hook : StepProgram Unit} (h : Plain hook) :
    Plain (optionally given hook) := by
  unfold optionally
  split
  · exact h
  · exact plain_done

theorem plain_recordArtifact {descriptor : CapabilityDescriptor} {artifact : Value} :
    Plain (recordArtifact S o input descriptor artifact) := by
  refine plain_bind (plain_optionally (plain_call rfl rfl)) fun _ => ?_
  exact plain_bind (plain_announceArtifacts _) fun _ => plain_announceModelCall

theorem plain_serveContext {descriptor : CapabilityDescriptor} (call : ContextCall)
    (refs : List String) : Plain (serveContext S o input descriptor call refs) := by
  cases call with
  | recordArtifact artifact =>
      exact plain_bind (plain_attempt plain_recordArtifact) fun _ => plain_done
  | recordObservation item =>
      exact plain_bind (plain_attempt (plain_optionally (plain_call rfl rfl))) fun _ => plain_done
  | recordStatus status =>
      exact plain_bind (plain_attempt (plain_optionally (plain_call rfl rfl))) fun _ => plain_done

/-- Whatever the executor does with its context, it marks nothing and ends nothing. -/
theorem plain_runExecutor {descriptor : CapabilityDescriptor} {executor : Executor} :
    Plain (runExecutor S o input descriptor executor) := by
  refine plain_bind (Prog.obeys_interpret plain_serveContext executor []) fun ended => ?_
  obtain ⟨outcome, refs⟩ := ended
  cases outcome with
  | ok a => exact plain_done
  | error m => exact plain_done

/-- A throw of a hook reaches the executor; the step goes on with what comes of it. -/
theorem answers_runExecutor {descriptor : CapabilityDescriptor} {executor : Executor} :
    Prog.Answers (stepHandle env) (runExecutor S o input descriptor executor) := by
  have hserve : ∀ call refs, Prog.Answers (stepHandle env)
      (serveContext S o input descriptor call refs) := by
    intro call refs
    cases call <;> exact Prog.answers_bind (Prog.answers_attempt _) fun _ => Prog.answers_done
  refine Prog.answers_bind (Prog.answers_interpret hserve executor []) fun ended => ?_
  obtain ⟨outcome, refs⟩ := ended
  cases outcome with
  | ok a => exact Prog.answers_done
  | error m => exact Prog.answers_done

/-- Publishing marks nothing and returns what was published. -/
theorem unmarked_publish {now : String} {result : StepResult} :
    Unmarked (publish S o input now result) fun r => r = result := by
  have hrecord : Unmarked (recordPlanState o input result now) fun _ => True := by
    unfold recordPlanState
    split
    · exact unmarked_call rfl
    · exact Prog.obeys_done trivial
  have happroval : Unmarked (announceApproval S o input result) fun _ => True := by
    unfold announceApproval
    split
    · exact unmarked_emitRunEvent
    · exact Prog.obeys_done trivial
  refine Prog.obeys_bind hrecord fun _ _ => ?_
  refine Prog.obeys_bind happroval fun _ _ => ?_
  exact Prog.obeys_bind unmarked_emitRunEvent fun _ _ => Prog.obeys_done rfl

/-- The end of a step marks nothing and returns what the way out told it. -/
theorem unmarked_finish {started : Nat} {now : String} {ending : StepEnd} :
    Unmarked (finish S o input started now ending) fun r =>
      r.status = ending.status ∧ r.output = ending.output := by
  refine Prog.obeys_bind (Plain.unmarked (plain_call rfl rfl)) fun ended _ => ?_
  refine Prog.obeys_bind (Plain.unmarked plain_instant) fun completedAt _ => ?_
  dsimp only
  split
  · exact (unmarked_publish).mono (fun _ h => h) (fun _ _ h => h) fun r hr => by
      subst hr
      exact ⟨rfl, rfl⟩
  · exact Prog.obeys_fail

/-- An unmarked part shows no mark, and ends as it runs. -/
theorem Unmarked.shows {p : StepProgram α} {Q : α → Prop} (hp : Unmarked p Q) {s : Nat} :
    Prog.Shows (stepHandle env) marks p s fun out s' seen =>
      (seen = [] ∧ ∀ a, out = .ok a → Q a) ∧ out = (Prog.exec (stepHandle env) p s).outcome ∧
        s' = (Prog.exec (stepHandle env) p s).state := by
  have hquiet : Prog.Quiet (stepHandle env) marks (fun call => call.isMark = false)
      (fun _ _ => True) (fun _ : Nat => True) :=
    { state := fun _ _ _ _ => trivial
      answer := fun _ _ _ _ _ _ => trivial
      unseen := by
        intro call s hcall _
        simp [marks, hcall] }
  obtain ⟨hseen, -, hQ⟩ := Prog.Obeys.shows hquiet hp (s := s) trivial
  exact ⟨⟨hseen, hQ⟩, rfl, rfl⟩

/-! ### The gate -/

variable (S o input) in
/-- Everything the step asks before it enters the registry. -/
structure Admitted (now : String) (descriptor : CapabilityDescriptor) (data : Value) : Prop where
  wellFormed : input.refined S.isDatetime = true
  resolves : resolveCapabilityForStep (packs S o).registry S.localeCompare input.capabilityRef
    = some descriptor
  digest : descriptor.capabilityDigest = input.capabilityDigest
  schema : ((packs S o).definition descriptor.capabilityId).inputSchema input.input = .ok data
  allowed : (evaluatePolicy S.dateParse (policyInput S o input descriptor now)).outcome = .allow
  notDry : executionModeFromDryRun input ≠ .dryRun
  mockInTests : executionModeFromDryRun input = .mock → S.nodeEnv = some "test"

variable (S o input) in
/-- What the executor of the capability is at work on. -/
def work (descriptor : CapabilityDescriptor) (now : String) (parsed : Value) : Executor :=
  ((packs S o).definition descriptor.capabilityId).execute
    (executionContext S o input descriptor
      (evaluatePolicy S.dateParse (policyInput S o input descriptor now))) parsed

variable (S o env input) in
/-- At some moment the executor reported a value whose validation is `output`. -/
def Reported (descriptor : CapabilityDescriptor) (executor : Executor) (output : Value) : Prop :=
  ∃ tick raw refs,
    (Prog.exec (stepHandle env) (runExecutor S o input descriptor executor) tick).outcome
        = .ok (.ok raw, refs) ∧
      ((packs S o).definition descriptor.capabilityId).outputSchema raw = .ok output ∧
      ∃ validated,
        validatedOutput ((packs S o).definition descriptor.capabilityId) output = .ok validated

variable (S o env input) in
/-- What the marks of a step can be. -/
inductive Marked (now : String) (out : Except String StepResult) : List StepCall → Prop
  | stopped (h : ∀ r, out = .ok r → r.status ≠ .success) : Marked now out []
  | asked (descriptor : CapabilityDescriptor) (data : Value)
      (admitted : Admitted S o input now descriptor data)
      (h : ∀ r, out = .ok r → r.status ≠ .success) :
      Marked now out [.executeCapability descriptor.capabilityId data]
  | executed (descriptor : CapabilityDescriptor) (data parsed : Value)
      (admitted : Admitted S o input now descriptor data)
      (again : ((packs S o).definition descriptor.capabilityId).inputSchema data = .ok parsed)
      (h : ∀ r, out = .ok r → r.status = .success →
        Reported S o env input descriptor (work S o input descriptor now parsed) r.output) :
      Marked now out
        [.executeCapability descriptor.capabilityId data, .execute descriptor.capabilityId parsed]

/-- The definition found in the registry is the one of the descriptor. -/
theorem resolveCapability_id {registry : PackRegistry} {id : String}
    {found : CapabilityDescriptor} (h : registry.resolveCapability id = some found) :
    found.capabilityId = id := by
  unfold PackRegistry.resolveCapability at h
  split at h
  · cases h
  · simpa using List.find?_some h

/-- A way out that does not tell of success makes no mark. -/
theorem finish_marked {started : Nat} {now : String} {ending : StepEnd} {s : Nat} {now' : String}
    (h : ending.status ≠ .success) :
    Prog.Shows (stepHandle env) marks (finish S o input started now ending) s fun out _ seen =>
      Marked S o env input now' out seen := by
  refine unmarked_finish.shows.mono ?_
  rintro out s' seen ⟨⟨rfl, hout⟩, -, -⟩
  refine .stopped fun r hr => ?_
  rw [(hout r hr).1]
  exact h

/-- The way out with one error, if that is not success. -/
theorem single_marked {started : Nat} {now : String} {s : Nat} {now' : String}
    {intentId : Option String} {report : Option PolicyDecisionReport}
    {status : CapabilityStepStatus} {code message summary : String} {observed : ObservationStatus}
    {refs : List String} (h : status ≠ .success) :
    Prog.Shows (stepHandle env) marks (finish S o input started now
        (single S input now intentId report status code message observed summary refs)) s
      fun out _ seen => Marked S o env input now' out seen :=
  finish_marked h

/-- An unmarked part in front changes nothing about the marks. -/
theorem Unmarked.marked {p : StepProgram α} {f : α → StepProgram StepResult} {Q : α → Prop}
    {s : Nat} {now : String} (hp : Unmarked p Q)
    (hf : ∀ a s', Prog.Shows (stepHandle env) marks (f a) s' fun out _ seen =>
      Marked S o env input now out seen) :
    Prog.Shows (stepHandle env) marks (p.bind f) s fun out _ seen =>
      Marked S o env input now out seen := by
  refine Prog.shows_bind (hp.shows.mono ?_)
  rintro (m | a) s' seen ⟨⟨rfl, -⟩, -, -⟩
  · exact .stopped fun r hr => by cases hr
  · exact hf a s'

/-- The executor's part of a step: it is called if its schema accepts the input once more. -/
theorem executeDefinition_marks {descriptor : CapabilityDescriptor}
    {definition : CapabilityDefinition} {context : PackExecutionContext} {data : Value} {s : Nat} :
    Prog.Shows (stepHandle env) marks
      (executeDefinition S o input descriptor definition context data) s
      fun out _ seen => ∃ result refs, out = .ok (result, refs) ∧
        ((seen = [] ∧ result.status = .failed) ∨
          ∃ parsed, definition.inputSchema data = .ok parsed ∧
            seen = [.execute descriptor.capabilityId parsed] ∧
            (result.status = .success → ∃ tick raw refs',
              (Prog.exec (stepHandle env) (runExecutor S o input descriptor
                (definition.execute context parsed)) tick).outcome = .ok (.ok raw, refs') ∧
              definition.outputSchema raw = .ok result.output)) := by
  unfold executeDefinition
  cases hparsed : definition.inputSchema data with
  | error message => exact Prog.shows_done ⟨_, _, rfl, Or.inl ⟨rfl, rfl⟩⟩
  | ok parsed =>
      refine Prog.shows_bind (Prog.shows_perform ?_)
      refine Prog.shows_bind (plain_runExecutor.unmarked.shows.mono ?_)
      rintro out s' seen ⟨⟨rfl, -⟩, hout, -⟩
      have hanswer : ∃ a, (Prog.exec (stepHandle env) (runExecutor S o input descriptor
          (definition.execute context parsed)) (s + 1)).outcome = .ok a := answers_runExecutor _
      obtain ⟨⟨outcome, refs⟩, hran⟩ := hanswer
      have hout' : out = .ok (outcome, refs) := hout.trans hran
      subst hout'
      cases outcome with
      | error error =>
          exact Prog.shows_done ⟨_, _, rfl, Or.inr ⟨parsed, rfl, rfl, fun h => by cases h⟩⟩
      | ok raw =>
          dsimp only
          cases hvalid : definition.outputSchema raw with
          | error message =>
              exact Prog.shows_done ⟨_, _, rfl, Or.inr ⟨parsed, rfl, rfl, fun h => by cases h⟩⟩
          | ok output =>
              refine Prog.shows_done ⟨_, _, rfl, Or.inr ⟨parsed, rfl, rfl, fun _ => ?_⟩⟩
              exact ⟨s + 1, raw, refs, hran, hvalid⟩

/-- The registry's part of a step, behind the gate. -/
theorem executeCapability_marks {descriptor : CapabilityDescriptor} {now : String} {data : Value}
    {s : Nat} :
    Prog.Shows (stepHandle env) marks
      (executeCapability S o input descriptor (executionContext S o input descriptor
        (evaluatePolicy S.dateParse (policyInput S o input descriptor now))) data) s
      fun out _ seen => ∃ result refs, out = .ok (result, refs) ∧
        ((seen = [.executeCapability descriptor.capabilityId data] ∧ result.status = .failed) ∨
          ∃ parsed,
            ((packs S o).definition descriptor.capabilityId).inputSchema data = .ok parsed ∧
            seen = [.executeCapability descriptor.capabilityId data,
              .execute descriptor.capabilityId parsed] ∧
            (result.status = .success → ∃ tick raw refs',
              (Prog.exec (stepHandle env) (runExecutor S o input descriptor
                (work S o input descriptor now parsed)) tick).outcome = .ok (.ok raw, refs') ∧
              ((packs S o).definition descriptor.capabilityId).outputSchema raw
                = .ok result.output)) := by
  refine Prog.shows_bind (Prog.shows_perform ?_)
  have hmark : (marks (s, .executeCapability descriptor.capabilityId data)).toList
      = [.executeCapability descriptor.capabilityId data] := rfl
  simp only [stepHandle, hmark]
  cases hfound : (packs S o).registry.resolveCapability descriptor.capabilityId with
  | none => exact Prog.shows_done ⟨_, _, rfl, Or.inl ⟨rfl, rfl⟩⟩
  | some found =>
      have hid : found.capabilityId = descriptor.capabilityId := resolveCapability_id hfound
      dsimp only
      rw [hid]
      split
      · exact Prog.shows_done ⟨_, _, rfl, Or.inl ⟨rfl, rfl⟩⟩
      · refine executeDefinition_marks.mono ?_
        rintro out s' seen ⟨result, refs, rfl, ⟨rfl, hfailed⟩ | ⟨parsed, hparsed, rfl, hran⟩⟩
        · exact ⟨result, refs, rfl, Or.inl ⟨rfl, hfailed⟩⟩
        · exact ⟨result, refs, rfl, Or.inr ⟨parsed, hparsed, rfl, hran⟩⟩

/-- The end after the capability returned tells of success only if it did. -/
theorem reported_success {descriptor : CapabilityDescriptor} {now : String}
    {report : PolicyDecisionReport} {result : CapabilityExecutionResult} {refs : List String}
    (h : (reported S o input descriptor now report result refs).status = .success) :
    result.status = .success ∧
      (reported S o input descriptor now report result refs).output = result.output ∧
      ∃ validated, validatedOutput ((packs S o).definition descriptor.capabilityId) result.output
        = .ok validated := by
  unfold reported at h ⊢
  dsimp only at h ⊢
  split at h
  · cases h
  · rename_i validated hvalid
    exact ⟨h, rfl, validated, hvalid⟩

/-- The part of a step behind the schema. -/
theorem afterGate_marked {started : Nat} {now : String} {descriptor : CapabilityDescriptor}
    {data : Value} {s : Nat} (hwell : input.refined S.isDatetime = true)
    (hresolves : resolveCapabilityForStep (packs S o).registry S.localeCompare input.capabilityRef
      = some descriptor)
    (hdigest : descriptor.capabilityDigest = input.capabilityDigest)
    (hschema : ((packs S o).definition descriptor.capabilityId).inputSchema input.input = .ok data) :
    Prog.Shows (stepHandle env) marks (afterGate S o input started now descriptor data) s
      fun out _ seen => Marked S o env input now out seen := by
  unfold afterGate
  dsimp only
  split
  · exact single_marked (by decide)
  · exact single_marked (by decide)
  · exact single_marked (by decide)
  · rename_i hallow
    split
    · exact single_marked (by decide)
    · rename_i hmock
      split
      · exact single_marked (by decide)
      · rename_i hdry
        have hadmitted : Admitted S o input now descriptor data :=
          ⟨hwell, hresolves, hdigest, hschema, hallow, hdry, fun hmode => by
            by_contra htest
            exact hmock ⟨hmode, htest⟩⟩
        refine Prog.shows_bind (executeCapability_marks.mono ?_)
        rintro out s' seen ⟨result, refs, rfl, hseen⟩
        refine unmarked_finish.shows.mono ?_
        rintro out s'' seen' ⟨⟨rfl, hout⟩, -, -⟩
        rw [List.append_nil]
        rcases hseen with ⟨rfl, hfailed⟩ | ⟨parsed, hparsed, rfl, hran⟩
        · refine .asked _ _ hadmitted fun r hr hsuccess => ?_
          rw [(hout r hr).1] at hsuccess
          rw [(reported_success hsuccess).1] at hfailed
          cases hfailed
        · refine .executed _ _ _ hadmitted hparsed fun r hr hsuccess => ?_
          rw [(hout r hr).1] at hsuccess
          obtain ⟨hstatus, houtput, hvalid⟩ := reported_success hsuccess
          obtain ⟨tick, raw, refs', hraw, hraw'⟩ := hran hstatus
          rw [(hout r hr).2, houtput]
          exact ⟨tick, raw, refs', hraw, hraw', hvalid⟩

variable (S o env) in
/-- The instant the step takes for the present: the one given, or its second look at the clock. -/
def presentAt (s : Nat) : String := o.now.getD (S.toISOString (env.dateNow (s + 1)))

theorem now_shows {O : Type} {observe : Nat × StepCall → Option O} {f : String → StepProgram α}
    {post : Except String α → Nat → List O → Prop} {s : Nat}
    (hclock : ∀ t, observe (t, .dateNow) = none)
    (h : ∀ s', Prog.Shows (stepHandle env) observe (f (presentAt S o env s)) s' post) :
    Prog.Shows (stepHandle env) observe ((now S o).bind f) (s + 1) post := by
  unfold now
  unfold presentAt at h
  cases hnow : o.now with
  | some now =>
      rw [hnow] at h
      exact h (s + 1)
  | none =>
      rw [hnow] at h
      refine Prog.shows_bind (Prog.shows_bind (Prog.shows_perform ?_))
      rw [hclock]
      exact Prog.shows_done (h (s + 2))

/-- **The marks of a step.**  Whatever the hooks do, the registry is entered at most once
and only behind the whole gate. -/
theorem runCapabilityStep_marked {s : Nat} :
    Prog.Shows (stepHandle env) marks (runCapabilityStep S o input) s fun out _ seen =>
      Marked S o env input (presentAt S o env s) out seen := by
  refine Prog.shows_bind (Prog.shows_perform ?_)
  have hclock : ∀ t, marks (t, .dateNow) = none := fun _ => rfl
  rw [hclock]
  simp only [stepHandle]
  split
  · rename_i hwell
    refine now_shows hclock fun s' => ?_
    split
    · exact single_marked (by decide)
    · rename_i descriptor hresolves
      split
      · exact single_marked (by decide)
      · rename_i hdigest
        refine (plain_emitRunEvent rfl).unmarked.marked fun _ s'' => ?_
        split
        · exact single_marked (by decide)
        · rename_i data hschema
          refine (plain_emitRunEvent rfl).unmarked.marked fun _ s₃ => ?_
          exact afterGate_marked hwell hresolves (by simpa using hdigest) hschema
  · exact Prog.shows_fail (.stopped fun r hr => by cases hr)

/-! ### What the marks say of a run -/

variable (S o env input) in
/-- The run of a step from a moment. -/
def stepRun (s : Nat) : Prog.Exec Nat StepCall StepResult :=
  Prog.exec (stepHandle env) (runCapabilityStep S o input) s

variable (S o env input) in
/-- Executing is gated: the registry is entered at most once and only behind the gate, and a
step that tells of success had its executor called and report an output that validates. -/
structure Gated (s : Nat) : Prop where
  once : (stepRun S o env input s).trace.countP (fun c => c.2.entersRegistry) ≤ 1
  admitted : ∀ c ∈ (stepRun S o env input s).trace, c.2.entersRegistry = true →
    ∃ descriptor data, c.2 = .executeCapability descriptor.capabilityId data ∧
      Admitted S o input (presentAt S o env s) descriptor data
  earned : ∀ result, (stepRun S o env input s).outcome = .ok result → result.status = .success →
    ∃ descriptor data parsed, Admitted S o input (presentAt S o env s) descriptor data ∧
      (∃ tick, (tick, .execute descriptor.capabilityId parsed)
        ∈ (stepRun S o env input s).trace) ∧
      Reported S o env input descriptor
        (work S o input descriptor (presentAt S o env s) parsed) result.output

theorem isMark_of_entersRegistry {call : StepCall} (h : call.entersRegistry = true) :
    call.isMark = true := by
  cases call <;> first | rfl | cases h

/-- The marks are the marked calls of the trace. -/
theorem mem_marks {trace : List (Nat × StepCall)} {call : StepCall} :
    call ∈ trace.filterMap marks ↔ call.isMark = true ∧ ∃ tick, (tick, call) ∈ trace := by
  rw [List.mem_filterMap]
  constructor
  · rintro ⟨⟨tick, c⟩, hmem, hmark⟩
    simp only [marks] at hmark
    split at hmark
    · cases hmark
      exact ⟨‹_›, tick, hmem⟩
    · cases hmark
  · rintro ⟨hmark, tick, hmem⟩
    exact ⟨(tick, call), hmem, by simp [marks, hmark]⟩

theorem countP_entersRegistry (trace : List (Nat × StepCall)) :
    trace.countP (fun c => c.2.entersRegistry)
      = (trace.filterMap marks).countP StepCall.entersRegistry := by
  rw [List.countP_filterMap]
  refine List.countP_congr fun c _ => ?_
  obtain ⟨tick, call⟩ := c
  cases call <;> simp [marks, StepCall.isMark, StepCall.entersRegistry]

/-- **Executing is gated**, however the hooks behave. -/
theorem runCapabilityStep_gated (S : StepPlatform) (o : CapabilityStepRunnerOptions)
    (env : StepEnv) (input : StepInput) (s : Nat) : Gated S o env input s := by
  have hmarked : Marked S o env input (presentAt S o env s) (stepRun S o env input s).outcome
      ((stepRun S o env input s).trace.filterMap marks) := runCapabilityStep_marked
  have henters : ∀ c ∈ (stepRun S o env input s).trace, c.2.entersRegistry = true →
      c.2 ∈ (stepRun S o env input s).trace.filterMap marks := by
    intro c hc henter
    exact mem_marks.mpr ⟨isMark_of_entersRegistry henter, c.1, hc⟩
  generalize hseen : (stepRun S o env input s).trace.filterMap marks = seen at hmarked henters
  have hcount : (stepRun S o env input s).trace.countP (fun c => c.2.entersRegistry)
      = seen.countP StepCall.entersRegistry := by rw [countP_entersRegistry, hseen]
  cases hmarked with
  | stopped h =>
      refine ⟨by rw [hcount]; decide, ?_, ?_⟩
      · intro c hc henter
        cases henters c hc henter
      · intro result hresult hsuccess
        exact absurd hsuccess (h result hresult)
  | asked descriptor data hadmitted h =>
      refine ⟨hcount.trans_le (Nat.le_refl 1), ?_, ?_⟩
      · intro c hc henter
        exact ⟨_, _, List.mem_singleton.mp (henters c hc henter), hadmitted⟩
      · intro result hresult hsuccess
        exact absurd hsuccess (h result hresult)
  | executed descriptor data parsed hadmitted hparsed h =>
      refine ⟨hcount.trans_le (Nat.le_refl 1), ?_, ?_⟩
      · intro c hc henter
        rcases List.mem_cons.mp (henters c hc henter) with heq | hrest
        · exact ⟨_, _, heq, hadmitted⟩
        · have heq := List.mem_singleton.mp hrest
          rw [heq] at henter
          cases henter
      · intro result hresult hsuccess
        refine ⟨_, _, _, hadmitted, ?_, h result hresult hsuccess⟩
        have hmem : StepCall.execute descriptor.capabilityId parsed ∈ (stepRun S o env input s).trace.filterMap marks := by
          rw [hseen]
          exact List.mem_cons_of_mem _ List.mem_cons_self
        exact (mem_marks.mp hmem).2

end CapabilityStep

end OpenLagrange
