/-
What the task reconciler and the continuation execute.

What becomes of an intent is decided by its validation, by the gate, and by what its
children answer; `fate` reads it off in that order.  One iteration of the loop is shown to
carry its intent to its fate, and the loop to carry every intent it reaches to its own.
The list of executed intents and that of skipped ones together are as long as the number of
intents that were taken up, so the budget the gate sees is the position of the intent, and
the gate lets no position through that lies beyond the budget.

Nothing is assumed of the children: the handler is any handler, over any state.
-/
import OpenLagrange.Workflows.TaskContinuation

namespace OpenLagrange

variable {S : Type} (h : Prog.Handler TaskCall TaskCall.Answer S)

/-! ### What is seen of a run -/

def ExecuteMcpIntentOutput.isOk : ExecuteMcpIntentOutput → Bool
  | .ok _ _ => true
  | .error _ => false

/-- Whether an execution returned ok; one that throws returned nothing. -/
def returnedOk : Except String ExecuteMcpIntentOutput → Bool
  | .ok output => output.isOk
  | .error _ => false

/-- The execution a call is, with whether it returned ok. -/
def execution : S × TaskCall → Option (ExecuteMcpIntentInput × Bool)
  | (s, .executeMcpIntent input) =>
      some (input, returnedOk (h (.executeMcpIntent input) s).1)
  | _ => none

/-- The executions of a run, in order. -/
def executions (trace : List (S × TaskCall)) : List (ExecuteMcpIntentInput × Bool) :=
  trace.filterMap (execution h)

/-- The executions that returned ok. -/
def okExecutions (trace : List (S × TaskCall)) : List ExecuteMcpIntentInput :=
  ((executions h trace).filter (·.2)).map (·.1)

/-- The run made this call, and got this answer. -/
def Answered (trace : List (S × TaskCall)) (call : TaskCall) (answer : call.Answer) : Prop :=
  ∃ s, (s, call) ∈ trace ∧ (h call s).1 = .ok answer

/-! ### Fates -/

/-- What can become of an intent. -/
inductive Fate where
  | invalid | denied | yielded | awaiting | failed
  | executed (critic : CriticOutcome)
  /-- A child threw. -/
  | lost
  deriving DecidableEq

namespace Fate

/-- The loop goes on with the next intent. -/
def goesOn : Fate → Bool
  | .invalid | .denied | .failed | .executed .pass => true
  | _ => false

def isExecuted : Fate → Bool
  | .executed _ => true
  | _ => false

end Fate

namespace TaskSetting

variable (sha256 : String → String) (dateParse : String → Option Int) (t : TaskSetting)

/-- The intent validates, and the gate allows it after `used` attempts. -/
def Allowed (used : Nat) (intent : ExecutionIntent) : Prop :=
  ∃ capability,
    validateIntentForSnapshot intent t.capabilitySnapshot t.taskId t.now = .ok capability ∧
      (evaluatePolicy dateParse (t.policyInput capability intent used)).outcome = .allow

/-- The critic's answer to an output. -/
def criticized (result : Value) (s : S) : Fate × S :=
  match h (.runCritic t.input.scopedTask result) s with
  | (.error _, s') => (.lost, s')
  | (.ok critic, s') => (.executed critic.outcome, s')

/-- The endpoint's answer, and the critic's. -/
def executed (intent : ExecutionIntent) (s : S) : Fate × S :=
  match h (.executeMcpIntent (t.executeInput intent)) s with
  | (.error _, s') => (.lost, s')
  | (.ok (.error _), s') => (.failed, s')
  | (.ok (.ok _ result), s') => t.criticized h result s'

/-- The approval is asked for and the context is left. -/
def asked (intent : ExecutionIntent) (s : S) : Fate × S :=
  match h (.createApprovalRequest (t.approvalRequest sha256 intent)) s with
  | (.error _, s') => (.lost, s')
  | (.ok _, s') =>
      match h (.recordContinuationContext (t.continuationContext sha256 intent)) s' with
      | (.error _, s'') => (.lost, s'')
      | (.ok _, s'') => (.awaiting, s'')

/-- What becomes of an intent that is taken up in `s` after `used` others, and the state
it leaves. -/
def fate (used : Nat) (s : S) (intent : ExecutionIntent) : Fate × S :=
  match validateIntentForSnapshot intent t.capabilitySnapshot t.taskId t.now with
  | .error _ => (.invalid, s)
  | .ok capability =>
      match (evaluatePolicy dateParse (t.policyInput capability intent used)).outcome with
      | .deny => (.denied, s)
      | .yield => (.yielded, s)
      | .requiresApproval => t.asked h sha256 intent s
      | .allow => t.executed h intent s

/-- What becomes of the intents, up to the one that ends the loop. -/
def fates : List ExecutionIntent → Nat → S → List (ExecutionIntent × Fate)
  | [], _, _ => []
  | intent :: rest, used, s =>
      let (f, s') := t.fate h sha256 dateParse used s intent
      (intent, f) :: if f.goesOn then fates rest (used + 1) s' else []

end TaskSetting

/-! ### One iteration -/

/-- An intent that met its fate is entered in one of the two lists. -/
structure Entered (intent : ExecutionIntent) (f : Fate) (state : TaskState)
    (executed skipped : List ExecutionIntent) : Prop where
  executed : executed = state.executed ++ if f.isExecuted then [intent] else []
  skipped : skipped = state.skipped ++ if f.isExecuted then [] else [intent]

/-- What an iteration comes to: the intent goes where its fate says, and is executed only
where it is allowed. -/
structure Iterated (sha256 : String → String) (dateParse : String → Option Int) (t : TaskSetting)
    (intent : ExecutionIntent) (state : TaskState) (f : Fate) (out : Except String Iteration)
    (seen : List (ExecuteMcpIntentInput × Bool)) : Prop where
  single : seen.length ≤ 1
  allowed : ∀ e ∈ seen, e.1 = t.executeInput intent ∧
    t.Allowed dateParse (state.executed.length + state.skipped.length) intent
  next : ∀ state', out = .ok (.next state') →
    f.goesOn = true ∧ Entered intent f state state'.executed state'.skipped
  finished : ∀ result, out = .ok (.finished result) →
    f.goesOn = false ∧ Entered intent f state result.executedIntents result.skippedIntents ∧
      result.taskRunId = t.input.taskRunId ∧
      result.approvalRequest
        = if f = .awaiting then some (t.approvalRequest sha256 intent) else none
  ok : (∃ iteration, out = .ok iteration) →
    (seen.filter (·.2)).map (·.1) = if f.isExecuted then [t.executeInput intent] else []

namespace TaskSetting

open Prog

variable {h} {sha256 : String → String} {dateParse : String → Option Int} {t : TaskSetting}
  {intent : ExecutionIntent} {state : TaskState} {s : S}

/-- The critic's part: the execution is behind it. -/
theorem criticize_iterated {result : Value} {state' : TaskState}
    (hentered : ∀ critic, Entered intent (.executed critic) state state'.executed state'.skipped)
    {seen : List (ExecuteMcpIntentInput × Bool)} (hseen : seen = [(t.executeInput intent, true)])
    (hallowed : t.Allowed dateParse (state.executed.length + state.skipped.length) intent) :
    Shows h (execution h) (t.criticize sha256 intent result state') s fun out s' seen' =>
      Iterated sha256 dateParse t intent state (t.criticized h result s).1 out (seen ++ seen') ∧
        s' = (t.criticized h result s).2 := by
  subst hseen
  have hall : ∀ e ∈ [(t.executeInput intent, true)] ++ ([] : List (ExecuteMcpIntentInput × Bool)),
      e.1 = t.executeInput intent ∧
        t.Allowed dateParse (state.executed.length + state.skipped.length) intent := by
    intro e he
    simp only [List.append_nil, List.mem_singleton] at he
    exact ⟨by rw [he], hallowed⟩
  unfold criticize
  refine shows_bind (shows_perform ?_)
  unfold criticized
  cases hcritic : h (.runCritic t.input.scopedTask result) s with
  | mk answer s₁ =>
      cases answer with
      | error m =>
          refine ⟨⟨le_refl 1, hall, ?_, ?_, ?_⟩, rfl⟩
          · intro state'' hout
            cases hout
          · intro result' hout
            cases hout
          · rintro ⟨iteration, hout⟩
            cases hout
      | ok critic =>
          obtain ⟨outcome, summary⟩ := critic
          cases outcome with
          | pass =>
              refine shows_done ⟨⟨le_refl 1, hall, ?_, ?_, ?_⟩, rfl⟩
              · intro state'' hout
                cases hout
                exact ⟨rfl, hentered _⟩
              · intro result' hout
                cases hout
              · intro _
                rfl
          | revise =>
              refine shows_done ⟨⟨le_refl 1, hall, ?_, ?_, ?_⟩, rfl⟩
              · intro state'' hout
                cases hout
              · intro result' hout
                cases hout
                exact ⟨rfl, hentered _, rfl, rfl⟩
              · intro _
                rfl
          | yield =>
              refine shows_done ⟨⟨le_refl 1, hall, ?_, ?_, ?_⟩, rfl⟩
              · intro state'' hout
                cases hout
              · intro result' hout
                cases hout
                exact ⟨rfl, hentered _, rfl, rfl⟩
              · intro _
                rfl

/-- The endpoint's part. -/
theorem executeIntent_iterated
    (hallowed : t.Allowed dateParse (state.executed.length + state.skipped.length) intent) :
    Shows h (execution h) (t.executeIntent sha256 intent state) s fun out s' seen =>
      Iterated sha256 dateParse t intent state (t.executed h intent s).1 out seen ∧
        s' = (t.executed h intent s).2 := by
  have hall : ∀ flag : Bool, ∀ e ∈ [(t.executeInput intent, flag)],
      e.1 = t.executeInput intent ∧
        t.Allowed dateParse (state.executed.length + state.skipped.length) intent := by
    intro flag e he
    rw [List.mem_singleton] at he
    exact ⟨by rw [he], hallowed⟩
  unfold executeIntent
  refine shows_bind (shows_perform ?_)
  have hseen : execution h (s, .executeMcpIntent (t.executeInput intent))
      = some (t.executeInput intent,
          returnedOk (h (.executeMcpIntent (t.executeInput intent)) s).1) := rfl
  rw [hseen]
  unfold executed
  cases houtput : h (.executeMcpIntent (t.executeInput intent)) s with
  | mk answer s₁ =>
      cases answer with
      | error m =>
          refine ⟨⟨le_refl 1, hall _, ?_, ?_, ?_⟩, rfl⟩
          · intro state' hout
            cases hout
          · intro result hout
            cases hout
          · rintro ⟨iteration, hout⟩
            cases hout
      | ok output =>
          cases output with
          | error message =>
              refine shows_done ⟨⟨le_refl 1, hall _, ?_, ?_, ?_⟩, rfl⟩
              · intro state' hout
                cases hout
                exact ⟨rfl, ⟨(List.append_nil _).symm, rfl⟩⟩
              · intro result hout
                cases hout
              · intro _
                rfl
          | ok message result =>
              refine criticize_iterated ?_ rfl hallowed
              intro critic
              exact ⟨rfl, (List.append_nil _).symm⟩

/-- The part of an intent that the gate does not let through. -/
theorem refuse_iterated {policy : PolicyGateResult} (hpolicy : policy.outcome ≠ .allow) :
    Shows h (execution h) (t.refuse sha256 intent policy state) s fun out s' seen =>
      Iterated sha256 dateParse t intent state
          (match policy.outcome with
            | .deny => (.denied, s)
            | .yield => (.yielded, s)
            | .requiresApproval => t.asked h sha256 intent s
            | .allow => t.executed h intent s : Fate × S).1 out seen ∧
        s' = (match policy.outcome with
            | .deny => (.denied, s)
            | .yield => (.yielded, s)
            | .requiresApproval => t.asked h sha256 intent s
            | .allow => t.executed h intent s : Fate × S).2 := by
  obtain ⟨outcome, reason⟩ := policy
  have hnone : ∀ e ∈ ([] : List (ExecuteMcpIntentInput × Bool)), e.1 = t.executeInput intent ∧
      t.Allowed dateParse (state.executed.length + state.skipped.length) intent := by
    intro e he
    cases he
  unfold refuse
  cases outcome with
  | allow => exact absurd rfl hpolicy
  | deny =>
      refine shows_done ⟨⟨Nat.zero_le 1, hnone, ?_, ?_, ?_⟩, rfl⟩
      · intro state' hout
        cases hout
        exact ⟨rfl, ⟨(List.append_nil _).symm, rfl⟩⟩
      · intro result hout
        cases hout
      · intro _
        rfl
  | yield =>
      refine shows_done ⟨⟨Nat.zero_le 1, hnone, ?_, ?_, ?_⟩, rfl⟩
      · intro state' hout
        cases hout
      · intro result hout
        cases hout
        exact ⟨rfl, ⟨(List.append_nil _).symm, rfl⟩, rfl, rfl⟩
      · intro _
        rfl
  | requiresApproval =>
      simp only [asked]
      refine shows_bind (shows_perform ?_)
      cases hrequest : h (.createApprovalRequest (t.approvalRequest sha256 intent)) s with
      | mk answer s₁ =>
          cases answer with
          | error m =>
              refine ⟨⟨Nat.zero_le 1, hnone, ?_, ?_, ?_⟩, rfl⟩
              · intro state' hout
                cases hout
              · intro result hout
                cases hout
              · rintro ⟨iteration, hout⟩
                cases hout
          | ok answered =>
              dsimp only
              refine shows_bind (shows_perform ?_)
              cases hcontext :
                  h (.recordContinuationContext (t.continuationContext sha256 intent)) s₁ with
              | mk answer' s₂ =>
                  cases answer' with
                  | error m =>
                      refine ⟨⟨Nat.zero_le 1, hnone, ?_, ?_, ?_⟩, rfl⟩
                      · intro state' hout
                        cases hout
                      · intro result hout
                        cases hout
                      · rintro ⟨iteration, hout⟩
                        cases hout
                  | ok recorded =>
                      refine shows_done ⟨⟨Nat.zero_le 1, hnone, ?_, ?_, ?_⟩, rfl⟩
                      · intro state' hout
                        cases hout
                      · intro result hout
                        cases hout
                        exact ⟨rfl, ⟨(List.append_nil _).symm, rfl⟩, rfl, rfl⟩
                      · intro _
                        rfl

/-- **One iteration carries its intent to its fate.** -/
theorem reconcileIntent_iterated :
    Shows h (execution h) (t.reconcileIntent sha256 dateParse intent state) s fun out s' seen =>
      Iterated sha256 dateParse t intent state
          (t.fate h sha256 dateParse (state.executed.length + state.skipped.length) s intent).1
          out seen ∧
        s' = (t.fate h sha256 dateParse (state.executed.length + state.skipped.length) s intent).2 := by
  unfold reconcileIntent fate
  cases hvalid : validateIntentForSnapshot intent t.capabilitySnapshot t.taskId t.now with
  | error e =>
      refine shows_done ⟨⟨Nat.zero_le 1, ?_, ?_, ?_, ?_⟩, rfl⟩
      · intro e he
        cases he
      · intro state' hout
        cases hout
        exact ⟨rfl, ⟨(List.append_nil _).symm, rfl⟩⟩
      · intro result hout
        cases hout
      · intro _
        rfl
  | ok capability =>
      simp only
      split_ifs with hpolicy
      · exact refuse_iterated hpolicy
      · rw [not_not] at hpolicy
        rw [hpolicy]
        exact executeIntent_iterated ⟨capability, hvalid, hpolicy⟩

end TaskSetting

/-! ### The loop -/

namespace TaskSetting

variable (sha256 : String → String) (dateParse : String → Option Int) (t : TaskSetting)

/-- The state the loop leaves. -/
def settled : List ExecutionIntent → Nat → S → S
  | [], _, s => s
  | intent :: rest, used, s =>
      let (f, s') := t.fate h sha256 dateParse used s intent
      if f.goesOn then settled rest (used + 1) s' else s'

/-- The gate lets an intent through only while the budget lasts. -/
theorem Allowed.used_lt {dateParse : String → Option Int} {t : TaskSetting} {used : Nat}
    {intent : ExecutionIntent} (hallowed : t.Allowed dateParse used intent) :
    used < t.input.bounds.maxTotalEndpointAttempts := by
  obtain ⟨capability, -, houtcome⟩ := hallowed
  have hbudget := (evaluatePolicy_allow.mp houtcome).1
  exact not_le.mp (of_decide_eq_false hbudget)

end TaskSetting

/-- The intents that were executed, and those that were not, by their fates. -/
def executedOf (fates : List (ExecutionIntent × Fate)) : List ExecutionIntent :=
  (fates.filter (·.2.isExecuted)).map (·.1)

def skippedOf (fates : List (ExecutionIntent × Fate)) : List ExecutionIntent :=
  (fates.filter fun entry => !entry.2.isExecuted).map (·.1)

/-- The request of the intent that waits, when the loop ended with one. -/
def requestOf (sha256 : String → String) (t : TaskSetting)
    (fates : List (ExecutionIntent × Fate)) : Option ApprovalRequest :=
  (fates.find? (·.2 = .awaiting)).map fun entry => t.approvalRequest sha256 entry.1

/-- What the loop comes to. -/
structure Reconciled (sha256 : String → String) (dateParse : String → Option Int) (t : TaskSetting)
    (intents : List ExecutionIntent) (state : TaskState) (fates : List (ExecutionIntent × Fate))
    (out : Except String TaskReconciliationResult) (seen : List (ExecuteMcpIntentInput × Bool)) :
    Prop where
  bound : seen.length ≤ min intents.length
    (t.input.bounds.maxTotalEndpointAttempts - (state.executed.length + state.skipped.length))
  allowed : ∀ e ∈ seen, ∃ position intent, intents[position]? = some intent ∧
    e.1 = t.executeInput intent ∧
    t.Allowed dateParse (state.executed.length + state.skipped.length + position) intent
  lists : ∀ result, out = .ok result →
    result.executedIntents = state.executed ++ executedOf fates ∧
      result.skippedIntents = state.skipped ++ skippedOf fates ∧
      result.taskRunId = t.input.taskRunId ∧
      result.approvalRequest = requestOf sha256 t fates ∧
      (seen.filter (·.2)).map (·.1) = (executedOf fates).map t.executeInput

section Loop

variable {sha256 : String → String} {dateParse : String → Option Int} {t : TaskSetting}

/-- The iterations after one that goes on add to what it did. -/
theorem Reconciled.cons {intent : ExecutionIntent} {rest : List ExecutionIntent}
    {state state' : TaskState} {f : Fate} {fs : List (ExecutionIntent × Fate)}
    {out : Except String TaskReconciliationResult}
    {seen seen' : List (ExecuteMcpIntentInput × Bool)}
    (hone : Iterated sha256 dateParse t intent state f (.ok (.next state')) seen)
    (hrest : Reconciled sha256 dateParse t rest state' fs out seen') :
    Reconciled sha256 dateParse t (intent :: rest) state ((intent, f) :: fs) out (seen ++ seen') := by
  obtain ⟨hgoes, hentered⟩ := hone.next state' rfl
  have hused : state'.executed.length + state'.skipped.length
      = state.executed.length + state.skipped.length + 1 := by
    rw [hentered.executed, hentered.skipped]
    cases f.isExecuted <;> simp <;> omega
  have hbudget : seen.length = 0 ∨
      state.executed.length + state.skipped.length < t.input.bounds.maxTotalEndpointAttempts := by
    cases seen with
    | nil => exact Or.inl rfl
    | cons e es => exact Or.inr (hone.allowed e List.mem_cons_self).2.used_lt
  refine ⟨?_, ?_, ?_⟩
  · have hsingle := hone.single
    have hbound := hrest.bound
    rw [hused] at hbound
    simp only [List.length_append, List.length_cons] at hbound ⊢
    omega
  · intro e he
    rcases List.mem_append.mp he with he | he
    · exact ⟨0, intent, rfl, (hone.allowed e he).1, (hone.allowed e he).2⟩
    · obtain ⟨position, intent', hposition, hinput, hallowed⟩ := hrest.allowed e he
      refine ⟨position + 1, intent', hposition, hinput, ?_⟩
      rw [hused, Nat.add_assoc, Nat.add_comm 1] at hallowed
      exact hallowed
  · intro result hout
    obtain ⟨hexecuted, hskipped, hrun, hrequest, hok⟩ := hrest.lists result hout
    have hawaiting : f ≠ .awaiting := by
      intro hf
      rw [hf] at hgoes
      cases hgoes
    refine ⟨?_, ?_, hrun, ?_, ?_⟩
    · rw [hexecuted, hentered.executed]
      cases hf : f.isExecuted <;> simp [executedOf, hf]
    · rw [hskipped, hentered.skipped]
      cases hf : f.isExecuted <;> simp [skippedOf, hf]
    · rw [hrequest]
      simp [requestOf, hawaiting]
    · rw [List.filter_append, List.map_append, hone.ok ⟨_, rfl⟩, hok]
      cases hf : f.isExecuted <;> simp [executedOf, hf]

/-- What one iteration executes is within bounds for the whole loop. -/
theorem Iterated.within {intent : ExecutionIntent} {rest : List ExecutionIntent}
    {state : TaskState} {f : Fate} {out : Except String Iteration}
    {seen : List (ExecuteMcpIntentInput × Bool)}
    (hone : Iterated sha256 dateParse t intent state f out seen) :
    seen.length ≤ min (intent :: rest).length
        (t.input.bounds.maxTotalEndpointAttempts - (state.executed.length + state.skipped.length)) ∧
      ∀ e ∈ seen, ∃ position intent', (intent :: rest)[position]? = some intent' ∧
        e.1 = t.executeInput intent' ∧
        t.Allowed dateParse (state.executed.length + state.skipped.length + position) intent' := by
  have hbudget : seen.length = 0 ∨
      state.executed.length + state.skipped.length < t.input.bounds.maxTotalEndpointAttempts := by
    cases seen with
    | nil => exact Or.inl rfl
    | cons e es => exact Or.inr (hone.allowed e List.mem_cons_self).2.used_lt
  refine ⟨?_, ?_⟩
  · have hsingle := hone.single
    simp only [List.length_cons]
    omega
  · intro e he
    exact ⟨0, intent, rfl, (hone.allowed e he).1, (hone.allowed e he).2⟩

/-- An iteration that ends the loop is the last. -/
theorem Reconciled.single {intent : ExecutionIntent} {rest : List ExecutionIntent}
    {state : TaskState} {f : Fate} {result : TaskReconciliationResult}
    {seen : List (ExecuteMcpIntentInput × Bool)}
    (hone : Iterated sha256 dateParse t intent state f (.ok (.finished result)) seen) :
    Reconciled sha256 dateParse t (intent :: rest) state [(intent, f)] (.ok result) seen := by
  obtain ⟨hgoes, hentered, hrun, hrequest⟩ := hone.finished result rfl
  obtain ⟨hbound, hallowed⟩ := hone.within
  refine ⟨hbound, hallowed, ?_⟩
  · intro result' hout
    cases hout
    refine ⟨?_, ?_, hrun, ?_, ?_⟩
    · rw [hentered.executed]
      cases hf : f.isExecuted <;> simp [executedOf, hf]
    · rw [hentered.skipped]
      cases hf : f.isExecuted <;> simp [skippedOf, hf]
    · rw [hrequest]
      by_cases hf : f = .awaiting
      · simp [requestOf, hf]
      · simp [requestOf, hf]
    · rw [hone.ok ⟨_, rfl⟩]
      cases hf : f.isExecuted <;> simp [executedOf, hf]

end Loop

namespace TaskSetting

open Prog

variable {h} {sha256 : String → String} {dateParse : String → Option Int} {t : TaskSetting}

/-- **The loop carries every intent it reaches to its fate.** -/
theorem reconcileIntents_reconciled (intents : List ExecutionIntent) (state : TaskState) (s : S) :
    Shows h (execution h) (t.reconcileIntents sha256 dateParse intents state) s fun out s' seen =>
      Reconciled sha256 dateParse t intents state
          (t.fates h sha256 dateParse intents (state.executed.length + state.skipped.length) s)
          out seen ∧
        ∀ result, out = .ok result → s' = t.settled h sha256 dateParse intents
          (state.executed.length + state.skipped.length) s := by
  induction intents generalizing state s with
  | nil =>
      refine shows_done ⟨⟨Nat.zero_le _, ?_, ?_⟩, ?_⟩
      · intro e he
        cases he
      · intro result hout
        cases hout
        unfold conclude
        split_ifs <;> simp [result, taskResult, executedOf, skippedOf, requestOf, fates]
      · intro result _
        rfl
  | cons intent rest ih =>
      unfold reconcileIntents
      refine shows_bind (reconcileIntent_iterated.mono ?_)
      rintro out s' seen ⟨hone, rfl⟩
      simp only [fates, settled]
      cases out with
      | error m =>
          obtain ⟨hbound, hallowed⟩ := hone.within
          refine ⟨⟨hbound, hallowed, ?_⟩, ?_⟩
          · intro result hout
            cases hout
          · intro result hout
            cases hout
      | ok iteration =>
          cases iteration with
          | finished result =>
              have hgoes := (hone.finished result rfl).1
              refine shows_done ?_
              simp only [hgoes, List.append_nil]
              refine ⟨Reconciled.single hone, ?_⟩
              intro result' _
              rfl
          | next state' =>
              obtain ⟨hgoes, hentered⟩ := hone.next state' rfl
              have hused : state'.executed.length + state'.skipped.length
                  = state.executed.length + state.skipped.length + 1 := by
                rw [hentered.executed, hentered.skipped]
                split <;> simp <;> omega
              refine (ih state' _).mono ?_
              rintro out' s'' seen' ⟨hrest, hsettled⟩
              rw [hused] at hrest hsettled
              simp only [hgoes, if_true]
              exact ⟨Reconciled.cons hone hrest, hsettled⟩

/-- The artifact's checks execute nothing, and leave the number of intents within bounds. -/
theorem reconcileArtifact_executions (s : S) :
    Shows h (execution h) (t.reconcileArtifact sha256 dateParse) s fun _ _ seen =>
      seen.length ≤ min t.input.bounds.maxExecutionIntentsPerTask
          t.input.bounds.maxTotalEndpointAttempts ∧
        ∀ e ∈ seen, ∃ position intent, t.artifact.executionIntents[position]? = some intent ∧
          e.1 = t.executeInput intent ∧ t.Allowed dateParse position intent := by
  have hnone : ∀ result : TaskReconciliationResult,
      Shows h (execution h) (.done result) s fun _ _ seen =>
        seen.length ≤ min t.input.bounds.maxExecutionIntentsPerTask
            t.input.bounds.maxTotalEndpointAttempts ∧
          ∀ e ∈ seen, ∃ position intent, t.artifact.executionIntents[position]? = some intent ∧
            e.1 = t.executeInput intent ∧ t.Allowed dateParse position intent := by
    intro result
    refine shows_done ⟨Nat.zero_le _, ?_⟩
    intro e he
    cases he
  unfold reconcileArtifact
  split_ifs with hsnapshot hempty hmany
  · exact hnone _
  · exact hnone _
  · exact hnone _
  · refine (reconcileIntents_reconciled t.artifact.executionIntents .empty s).mono ?_
    rintro out s' seen ⟨hloop, -⟩
    have hbound := hloop.bound
    have hallowed := hloop.allowed
    simp only [TaskState.empty, List.length_nil, Nat.add_zero, Nat.zero_add, Nat.sub_zero]
      at hbound hallowed
    refine ⟨?_, hallowed⟩
    omega

end TaskSetting

/-! ### The reconciler and the continuation -/

section Safety

variable {h} {sha256 : String → String} {dateParse : String → Option Int}

/-- The reconciler executes only what its loop over the artifact's intents executes. -/
theorem taskReconciler_executions (now : String) (rawInput : Except String TaskReconcilerInput)
    (s : S) :
    (∀ e ∈ executions h (Prog.exec h (taskReconciler sha256 dateParse now rawInput) s).trace,
      ∃ t : TaskSetting, rawInput = .ok t.input ∧ t.now = now ∧
        Answered h (Prog.exec h (taskReconciler sha256 dateParse now rawInput) s).trace
          (.discoverCapabilities t.input.delegation.workspaceId t.input.scopedTask
            t.input.delegation t.input.bounds.maxRiskWithoutApproval now) t.capabilitySnapshot ∧
        Answered h (Prog.exec h (taskReconciler sha256 dateParse now rawInput) s).trace
          (.generateTaskArtifact t.input.scopedTask t.input.delegation t.capabilitySnapshot)
          (.ok t.artifact) ∧
        ∃ position intent, t.artifact.executionIntents[position]? = some intent ∧
          e.1 = t.executeInput intent ∧ t.Allowed dateParse position intent) ∧
      ∀ input, rawInput = .ok input →
        (executions h (Prog.exec h (taskReconciler sha256 dateParse now rawInput) s).trace).length
          ≤ min input.bounds.maxExecutionIntentsPerTask input.bounds.maxTotalEndpointAttempts := by
  cases rawInput with
  | error message =>
      refine ⟨?_, ?_⟩
      · intro e he
        cases he
      · intro input hinput
        cases hinput
  | ok input =>
      simp only [taskReconciler, Prog.bind_eq]
      rcases hstatus : h (.recordStatus (input.startStatus now)) s with ⟨m | answer, s₁⟩
      · rw [Prog.exec_perform_bind_error h _ hstatus]
        refine ⟨?_, fun _ _ => Nat.zero_le _⟩
        intro e he
        cases he
      rw [Prog.exec_perform_bind_ok h _ hstatus]
      rcases hdiscover : h (.discoverCapabilities input.delegation.workspaceId input.scopedTask
          input.delegation input.bounds.maxRiskWithoutApproval now) s₁ with ⟨m | snapshot, s₂⟩
      · rw [Prog.exec_perform_bind_error h _ hdiscover]
        refine ⟨?_, fun _ _ => Nat.zero_le _⟩
        intro e he
        cases he
      rw [Prog.exec_perform_bind_ok h _ hdiscover]
      rcases hgenerate : h (.generateTaskArtifact input.scopedTask input.delegation snapshot) s₂
        with ⟨m | parsed, s₃⟩
      · rw [Prog.exec_perform_bind_error h _ hgenerate]
        refine ⟨?_, fun _ _ => Nat.zero_le _⟩
        intro e he
        cases he
      rw [Prog.exec_perform_bind_ok h _ hgenerate]
      cases parsed with
      | error message =>
          refine ⟨?_, fun _ _ => Nat.zero_le _⟩
          intro e he
          cases he
      | ok artifact =>
          have hloop := @TaskSetting.reconcileArtifact_executions S h sha256 dateParse
            ⟨input, now, snapshot, artifact⟩ s₃
          obtain ⟨hbound, hallowed⟩ := hloop
          refine ⟨?_, ?_⟩
          · intro e he
            obtain ⟨position, intent, hposition, hinput, hallow⟩ := hallowed e he
            refine ⟨⟨input, now, snapshot, artifact⟩, rfl, rfl, ?_, ?_, position, intent,
              hposition, hinput, hallow⟩
            · exact ⟨s₁, by simp, by rw [hdiscover]⟩
            · exact ⟨s₂, by simp, by rw [hgenerate]⟩
          · intro input' hinput
            cases hinput
            exact hbound

/-- The intent of the context still validates, and the gate neither denies it nor yields. -/
def ApprovalContinuationContext.Acceptable (dateParse : String → Option Int)
    (context : ApprovalContinuationContext) (now : String) : Prop :=
  ∃ capability,
    validateIntentForSnapshot context.intent context.capabilitySnapshot context.scopedTask.taskId now
        = .ok capability ∧
      (evaluatePolicy dateParse (context.policyInput capability now)).outcome ≠ .deny ∧
      (evaluatePolicy dateParse (context.policyInput capability now)).outcome ≠ .yield

/-- Recording a result executes nothing. -/
theorem recordAndReturn_executions (result : TaskReconciliationResult) (now : String) (s : S) :
    Prog.Shows h (execution h) (recordAndReturn result now) s fun out _ seen =>
      seen = [] ∧ ∀ result', out = .ok result' → result' = result := by
  unfold recordAndReturn
  refine Prog.shows_bind (Prog.shows_perform ?_)
  split
  · rename_i a hanswer
    refine Prog.shows_done ⟨rfl, ?_⟩
    intro result' hout
    cases hout
    rfl
  · refine ⟨rfl, ?_⟩
    intro result' hout
    cases hout

/-- An approved intent is executed once at most. -/
theorem executeIntent_executions (context : ApprovalContinuationContext) (now : String) (s : S) :
    Prog.Shows h (execution h) (context.executeIntent sha256 now) s fun _ _ seen =>
      seen.map (·.1) = [context.executeInput] := by
  unfold ApprovalContinuationContext.executeIntent
  refine Prog.shows_bind (Prog.shows_perform ?_)
  split
  · rename_i output houtput
    cases output with
    | error message =>
        refine (recordAndReturn_executions _ now _).mono ?_
        rintro out s' seen ⟨rfl, -⟩
        rfl
    | ok message result =>
        refine Prog.shows_bind (Prog.shows_perform ?_)
        split
        · split
          · refine (recordAndReturn_executions _ now _).mono ?_
            rintro out s' seen ⟨rfl, -⟩
            rfl
          · refine (recordAndReturn_executions _ now _).mono ?_
            rintro out s' seen ⟨rfl, -⟩
            rfl
        · rfl
  · rfl

/-- With a decision at hand, only an approved and acceptable intent is executed. -/
theorem continueWith_executions (context : ApprovalContinuationContext)
    (input : ApprovalContinuationInput) (decision : ApprovalDecision) (now : String) (s : S) :
    Prog.Shows h (execution h) (context.continueWith sha256 dateParse input decision now) s
      fun _ _ seen => seen = [] ∨ seen.map (·.1) = [context.executeInput] ∧
        decision.decision = .approved ∧ context.Acceptable dateParse now := by
  have hstop : ∀ status error finalMessage,
      Prog.Shows h (execution h) (context.stop sha256 status error finalMessage now) s
        fun _ _ seen => seen = [] ∨ seen.map (·.1) = [context.executeInput] ∧
          decision.decision = .approved ∧ context.Acceptable dateParse now := by
    intro status error finalMessage
    refine (recordAndReturn_executions _ now s).mono ?_
    rintro out s' seen ⟨hseen, -⟩
    exact Or.inl hseen
  unfold ApprovalContinuationContext.continueWith
  split_ifs with hinput hdecision
  · exact hstop _ _ _
  · exact hstop _ _ _
  · rw [not_not] at hdecision
    split
    · exact hstop _ _ _
    · rename_i capability hvalid
      dsimp only
      split
      · exact hstop _ _ _
      · exact hstop _ _ _
      · rename_i hyield hdeny
        refine (executeIntent_executions context now s).mono ?_
        intro out s' seen hseen
        exact Or.inr ⟨hseen, hdecision, capability, hvalid, hdeny, hyield⟩

/-- **What may be executed.**  Whatever the children answer: the reconciler executes only
intents of the artifact it was answered with that validate against the snapshot it was
answered with and that the gate allows, as many as both bounds let it at most; the
continuation executes once at most, and only the intent of the context it loaded, whose
loaded decision is an approval, which still validates and which the gate neither denies nor
yields on. -/
theorem task_executions (now later : String) (rawInput : Except String TaskReconcilerInput)
    (input : ApprovalContinuationInput) (s : S) :
    let reconciled := (Prog.exec h (taskReconciler sha256 dateParse now rawInput) s).trace
    let continued := (Prog.exec h (taskContinuation sha256 dateParse later input) s).trace
    (∀ e ∈ executions h reconciled, ∃ t : TaskSetting, rawInput = .ok t.input ∧ t.now = now ∧
        Answered h reconciled (.discoverCapabilities t.input.delegation.workspaceId
          t.input.scopedTask t.input.delegation t.input.bounds.maxRiskWithoutApproval now)
          t.capabilitySnapshot ∧
        Answered h reconciled (.generateTaskArtifact t.input.scopedTask t.input.delegation
          t.capabilitySnapshot) (.ok t.artifact) ∧
        ∃ position intent, t.artifact.executionIntents[position]? = some intent ∧
          e.1 = t.executeInput intent ∧ t.Allowed dateParse position intent) ∧
      (∀ given, rawInput = .ok given → (executions h reconciled).length
        ≤ min given.bounds.maxExecutionIntentsPerTask given.bounds.maxTotalEndpointAttempts) ∧
      (executions h continued).length ≤ 1 ∧
      ∀ e ∈ executions h continued, ∃ context decision,
        Answered h continued (.loadApprovalContinuation input) ⟨some decision, some context⟩ ∧
          e.1 = context.executeInput ∧ decision.decision = .approved ∧
          context.Acceptable dateParse later := by
  obtain ⟨hallowed, hbound⟩ := @taskReconciler_executions S h sha256 dateParse now rawInput s
  refine ⟨hallowed, hbound, ?_⟩
  simp only [taskContinuation, Prog.bind_eq]
  rcases hload : h (.loadApprovalContinuation input) s with ⟨m | loaded, s₁⟩
  · rw [Prog.exec_perform_bind_error h _ hload]
    refine ⟨Nat.zero_le 1, ?_⟩
    intro e he
    cases he
  rw [Prog.exec_perform_bind_ok h _ hload]
  obtain ⟨decision | decision, context | context⟩ := loaded
  · refine ⟨Nat.zero_le 1, ?_⟩
    intro e he
    cases he
  · refine ⟨Nat.zero_le 1, ?_⟩
    intro e he
    cases he
  · refine ⟨Nat.zero_le 1, ?_⟩
    intro e he
    cases he
  · have hcontinue := @continueWith_executions S h sha256 dateParse context input decision later s₁
    have hseen : ∀ seen : List (ExecuteMcpIntentInput × Bool),
        (seen = [] ∨ seen.map (·.1) = [context.executeInput] ∧ decision.decision = .approved ∧
          context.Acceptable dateParse later) →
        seen.length ≤ 1 ∧ ∀ e ∈ seen, e.1 = context.executeInput ∧
          decision.decision = .approved ∧ context.Acceptable dateParse later := by
      rintro seen (rfl | ⟨hone, happroved, hacceptable⟩)
      · exact ⟨Nat.zero_le 1, fun e he => nomatch he⟩
      · have hlength := congrArg List.length hone
        rw [List.length_map] at hlength
        refine ⟨hlength.le, ?_⟩
        intro e he
        have hmem : e.1 ∈ seen.map (·.1) := List.mem_map_of_mem he
        rw [hone, List.mem_singleton] at hmem
        exact ⟨hmem, happroved, hacceptable⟩
    obtain ⟨hsingle, hexecuted⟩ := hseen _ hcontinue
    refine ⟨hsingle, ?_⟩
    intro e he
    obtain ⟨hinput, happroved, hacceptable⟩ := hexecuted e he
    refine ⟨context, decision, ?_, hinput, happroved, hacceptable⟩
    exact ⟨s, List.mem_cons_self, by rw [hload]⟩

end Safety

end OpenLagrange
