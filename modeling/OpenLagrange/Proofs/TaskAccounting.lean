/-
What the results of a task account for.

Over the reconciler's result and the continuation's, every intent of the artifact should be
listed once, as executed where its execution returned ok and as skipped otherwise.  Two
things break this.  The loop ends early on a question for approval, a yield of the gate, and
a critic that does not pass, and it does not list the intents it has not reached.  And the
continuation lists its intent as skipped when the critic does not pass, although the
execution has returned ok; the reconciler lists it as executed before it asks the critic.

The accounts are shown to be right exactly where neither happens.
-/
import OpenLagrange.Proofs.TaskExecution

namespace OpenLagrange

/-! ### What the accounts are -/

/-- The execution is of this intent. -/
structure ExecuteMcpIntentInput.Executes (input : ExecuteMcpIntentInput)
    (intent : ExecutionIntent) : Prop where
  intentId : input.intentId = intent.intentId
  endpointId : input.endpointId = intent.endpointId
  capabilityName : input.capabilityName = intent.capabilityName
  arguments : input.arguments = intent.arguments
  idempotencyKey : input.idempotencyKey = intent.idempotencyKey

/-- What the reconciler and the continuation list as executed. -/
def togetherExecuted (result : TaskReconciliationResult)
    (continued : Option TaskReconciliationResult) : List ExecutionIntent :=
  result.executedIntents ++ continued.elim [] (·.executedIntents)

/-- What they list as skipped.  The intent that waits is the last the reconciler skips; once
it is continued, the continuation's result stands for it. -/
def togetherSkipped (result : TaskReconciliationResult) :
    Option TaskReconciliationResult → List ExecutionIntent
  | none => result.skippedIntents
  | some continued => result.skippedIntents.dropLast ++ continued.skippedIntents

/-- Every intent is listed once, and those listed as executed are, in order, those whose
execution returned ok. -/
structure Accounted (intents executed skipped : List ExecutionIntent)
    (ok : List ExecuteMcpIntentInput) : Prop where
  once : (executed ++ skipped).Perm intents
  executed : List.Forall₂ ExecuteMcpIntentInput.Executes ok executed

/-! ### When they are right -/

namespace TaskSetting

variable (sha256 : String → String) (dateParse : String → Option Int) (env : TaskEnv)
  (t : TaskSetting)

/-- The intent waits in `w`, and its continuation will execute it and see the critic object. -/
structure Mislaid (later : String) (intent : ExecutionIntent) (w : TaskWorld) : Prop where
  approved : (env.decide w.tick
    ((t.approvalRequest sha256 intent).requested env.tokenHash)).decision = .approved
  acceptable : (t.continuationContext sha256 intent).Acceptable dateParse later
  ok : (env.endpoint (w.tick + 1)).isOk = true
  objected : (env.critic (w.tick + 2)).outcome ≠ .pass

/-- An intent that ends the loop is the last one, and is not mislaid if it waits. -/
def Accountable (later : String) : List ExecutionIntent → Nat → TaskWorld → Prop
  | [], _, _ => True
  | intent :: rest, used, w =>
      let (f, w') := t.fate (taskHandle env) sha256 dateParse used w intent
      if f.goesOn then Accountable later rest (used + 1) w'
      else rest = [] ∧ (f = .awaiting → ¬ t.Mislaid sha256 dateParse env later intent w')

/-- The artifact has no intents, or it is taken up and its intents are accountable. -/
def ArtifactAccountable (later : String) (w : TaskWorld) : Prop :=
  t.artifact.executionIntents = [] ∨
    t.artifact.capabilitySnapshotId = t.capabilitySnapshot.snapshotId ∧
      t.artifact.executionIntents.length ≤ t.input.bounds.maxExecutionIntentsPerTask ∧
      t.Accountable sha256 dateParse env later t.artifact.executionIntents 0 w

end TaskSetting

/-! ### Fates and lists -/

theorem executedOf_append_skippedOf (fates : List (ExecutionIntent × Fate)) :
    (executedOf fates ++ skippedOf fates).Perm (fates.map (·.1)) := by
  unfold executedOf skippedOf
  rw [← List.map_append]
  exact (List.filter_append_perm _ fates).map _

/-- The loop ended with an intent that waits. -/
structure EndsWaiting (sha256 : String → String) (env : TaskEnv) (t : TaskSetting)
    (fates : List (ExecutionIntent × Fate)) (before : List (ExecutionIntent × Fate))
    (intent : ExecutionIntent) (w : TaskWorld) : Prop where
  last : fates = before ++ [(intent, .awaiting)]
  context : w.contexts (t.approvalRequest sha256 intent).approvalRequestId
    = some (t.continuationContext sha256 intent)
  decision : w.decisions (t.approvalRequest sha256 intent).approvalRequestId
    = some ((t.approvalRequest sha256 intent).requested env.tokenHash)
  request : requestOf sha256 t fates = some (t.approvalRequest sha256 intent)

namespace TaskSetting

variable {sha256 : String → String} {dateParse : String → Option Int} {env : TaskEnv}
  {t : TaskSetting}

/-- The loop takes the intents up from the first on. -/
theorem fates_prefix (intents : List ExecutionIntent) (used : Nat) (w : TaskWorld) :
    (t.fates (taskHandle env) sha256 dateParse intents used w).map (·.1) <+: intents := by
  induction intents generalizing used w with
  | nil => exact List.nil_prefix
  | cons intent rest ih =>
      simp only [fates, List.map_cons]
      rw [List.cons_prefix_cons]
      refine ⟨rfl, ?_⟩
      split_ifs
      · exact ih _ _
      · exact List.nil_prefix

/-- An intent that waits has left its request and its context. -/
theorem fate_awaiting {used : Nat} {w w' : TaskWorld} {intent : ExecutionIntent}
    (hfate : t.fate (taskHandle env) sha256 dateParse used w intent = (.awaiting, w')) :
    w'.contexts (t.approvalRequest sha256 intent).approvalRequestId
        = some (t.continuationContext sha256 intent) ∧
      w'.decisions (t.approvalRequest sha256 intent).approvalRequestId
        = some ((t.approvalRequest sha256 intent).requested env.tokenHash) := by
  unfold fate at hfate
  split at hfate
  · cases hfate
  · split at hfate
    · cases hfate
    · cases hfate
    · unfold asked taskHandle at hfate
      cases hfirst : env.throws w.tick with
      | some m =>
          rw [hfirst] at hfate
          cases hfate
      | none =>
          rw [hfirst] at hfate
          simp only [serveTask] at hfate
          split at hfate
          · cases hfate
          · rename_i answer w'' hrecord
            split at hrecord
            · cases hrecord
            · cases hrecord
              cases hfate
              refine ⟨?_, ?_⟩
              · simp [TaskWorld.next, TaskWorld.setContext, continuationContext]
              · simp [TaskWorld.next, TaskWorld.setContext, TaskWorld.setDecision,
                  ApprovalRequest.requested]
    · unfold executed criticized at hfate
      split at hfate
      · cases hfate
      · cases hfate
      · split at hfate
        · cases hfate
        · cases hfate

/-- **The loop's end.**  Either no intent waits, and the intents are accountable exactly if
all were taken up; or the last one taken up waits, and it must not be mislaid either. -/
theorem accountable_iff (later : String) (intents : List ExecutionIntent) (used : Nat)
    (w : TaskWorld) :
    let fates := t.fates (taskHandle env) sha256 dateParse intents used w
    let w' := t.settled (taskHandle env) sha256 dateParse intents used w
    (requestOf sha256 t fates = none ∧
        (t.Accountable sha256 dateParse env later intents used w
          ↔ fates.length = intents.length)) ∨
      ∃ before intent, EndsWaiting sha256 env t fates before intent w' ∧
        (t.Accountable sha256 dateParse env later intents used w
          ↔ fates.length = intents.length ∧ ¬ t.Mislaid sha256 dateParse env later intent w') := by
  induction intents generalizing used w with
  | nil => exact Or.inl ⟨rfl, ⟨fun _ => rfl, fun _ => trivial⟩⟩
  | cons intent rest ih =>
      simp only [fates, settled, Accountable]
      rcases hfate : t.fate (taskHandle env) sha256 dateParse used w intent with ⟨f, w₁⟩
      simp only
      by_cases hgoes : f.goesOn = true
      · have hwaits : f ≠ .awaiting := by
          intro hf
          rw [hf] at hgoes
          cases hgoes
        simp only [hgoes, if_true, List.length_cons, Nat.add_right_cancel_iff]
        rcases ih (used + 1) w₁ with ⟨hnone, hiff⟩ | ⟨before, last, hends, hiff⟩
        · refine Or.inl ⟨?_, hiff⟩
          simpa [requestOf, hwaits] using hnone
        · refine Or.inr ⟨(intent, f) :: before, last, ⟨?_, hends.context, hends.decision, ?_⟩, hiff⟩
          · rw [hends.last]
            rfl
          · simpa [requestOf, hwaits] using hends.request
      · simp only [hgoes, Bool.false_eq_true, if_false]
        by_cases hwaits : f = .awaiting
        · subst hwaits
          obtain ⟨hcontext, hdecision⟩ := fate_awaiting hfate
          refine Or.inr ⟨[], intent, ⟨rfl, hcontext, hdecision, ?_⟩, ?_⟩
          · simp [requestOf]
          · simp
        · refine Or.inl ⟨?_, ?_⟩
          · simp [requestOf, hwaits]
          · simp [hwaits]

/-! ### The continuation -/

open Prog

/-- What the continuation of an intent comes to: executed, skipped, or mislaid. -/
structure Continued (sha256 : String → String) (dateParse : String → Option Int) (env : TaskEnv)
    (t : TaskSetting) (later : String) (intent : ExecutionIntent) (w : TaskWorld)
    (result : TaskReconciliationResult) (ok : List ExecuteMcpIntentInput) : Prop where
  listed : result.executedIntents = [intent] ∧ result.skippedIntents = [] ∨
    result.executedIntents = [] ∧ result.skippedIntents = [intent]
  mislaid : t.Mislaid sha256 dateParse env later intent w →
    result.executedIntents = [] ∧ ok = [(t.continuationContext sha256 intent).executeInput]
  matching : ¬ t.Mislaid sha256 dateParse env later intent w →
    ok = result.executedIntents.map fun _ => (t.continuationContext sha256 intent).executeInput

/-- What recording a result shows, with the result it returns. -/
theorem recordAndReturn_shows {h : Handler TaskCall TaskCall.Answer TaskWorld}
    {result : TaskReconciliationResult} {now : String} {w : TaskWorld}
    {post : Except String TaskReconciliationResult → TaskWorld →
      List (ExecuteMcpIntentInput × Bool) → Prop}
    (herror : ∀ m w', post (.error m) w' []) (hok : ∀ w', post (.ok result) w' []) :
    Shows h (execution h) (recordAndReturn result now) w post := by
  refine (recordAndReturn_executions result now w).mono ?_
  rintro (m | result') w' seen ⟨rfl, hresult⟩
  · exact herror m w'
  · rw [hresult result' rfl]
    exact hok w'

variable {later : String} {intent : ExecutionIntent}

/-- The approved intent is executed: the continuation lists it by what the critic says. -/
theorem executeIntent_continued {w : TaskWorld}
    (happroved : (env.decide w.tick
      ((t.approvalRequest sha256 intent).requested env.tokenHash)).decision = .approved)
    (hacceptable : (t.continuationContext sha256 intent).Acceptable dateParse later)
    {w₁ : TaskWorld} (htick : w₁.tick = w.tick + 1) :
    Shows (taskHandle env) (execution (taskHandle env))
      ((t.continuationContext sha256 intent).executeIntent sha256 later) w₁
      fun out _ seen => ∀ result, out = .ok result →
        Continued sha256 dateParse env t later intent w result ((seen.filter (·.2)).map (·.1)) := by
  unfold ApprovalContinuationContext.executeIntent
  refine shows_bind (shows_perform ?_)
  simp only [execution, taskHandle]
  cases hthrows : env.throws w₁.tick with
  | some m =>
      intro result hout
      cases hout
  | none =>
      simp only [serveTask, returnedOk]
      cases hendpoint : env.endpoint w₁.tick with
      | error message =>
          refine recordAndReturn_shows ?_ ?_
          · intro m w' result hout
            cases hout
          · intro w' result hout
            cases hout
            refine ⟨Or.inr ⟨rfl, rfl⟩, ?_, fun _ => rfl⟩
            intro hmislaid
            have hok := hmislaid.ok
            rw [← htick, hendpoint] at hok
            cases hok
      | ok message output =>
          unfold ApprovalContinuationContext.criticize
          refine shows_bind (shows_perform ?_)
          cases hthrows' : env.throws w₁.next.tick with
          | some m =>
              simp only [taskHandle, hthrows', execution]
              intro result hout
              cases hout
          | none =>
              have hok : (env.endpoint (w.tick + 1)).isOk = true := by
                rw [← htick, hendpoint]
                rfl
              have hcritic : env.critic w₁.next.tick = env.critic (w.tick + 2) := by
                rw [← Nat.add_assoc w.tick 1 1, ← htick]
                rfl
              simp only [taskHandle, hthrows', execution, serveTask, hcritic]
              split
              · rename_i hobjected
                refine recordAndReturn_shows ?_ ?_
                · intro m w' result hout
                  cases hout
                · intro w' result hout
                  cases hout
                  refine ⟨Or.inr ⟨rfl, rfl⟩, fun _ => ⟨rfl, rfl⟩, ?_⟩
                  intro hmatching
                  exact absurd ⟨happroved, hacceptable, hok, hobjected⟩ hmatching
              · rename_i hpassed
                refine recordAndReturn_shows ?_ ?_
                · intro m w' result hout
                  cases hout
                · intro w' result hout
                  cases hout
                  refine ⟨Or.inl ⟨rfl, rfl⟩, ?_, fun _ => rfl⟩
                  intro hmislaid
                  exact absurd hmislaid.objected hpassed

/-- **The continuation of an intent that waits.** -/
theorem taskContinuation_continued {fs before : List (ExecutionIntent × Fate)} {w : TaskWorld}
    (hends : EndsWaiting sha256 env t fs before intent w) :
    Shows (taskHandle env) (execution (taskHandle env)) (taskContinuation sha256 dateParse later
        ⟨(t.approvalRequest sha256 intent).approvalRequestId, t.input.taskRunId⟩) w
      fun out _ seen => ∀ result, out = .ok result →
        Continued sha256 dateParse env t later intent w result ((seen.filter (·.2)).map (·.1)) := by
  unfold taskContinuation
  refine shows_bind (shows_perform ?_)
  simp only [execution, taskHandle]
  cases hthrows : env.throws w.tick with
  | some m =>
      intro result hout
      cases hout
  | none =>
      simp only [serveTask, hends.context, hends.decision, Option.map_some]
      have hstop : ∀ status error finalMessage,
          status ≠ .completed → ¬ t.Mislaid sha256 dateParse env later intent w →
          Shows (taskHandle env) (execution (taskHandle env))
            ((t.continuationContext sha256 intent).stop sha256 status error finalMessage later) w.next
            fun out _ seen => ∀ result, out = .ok result →
              Continued sha256 dateParse env t later intent w result
                ((seen.filter (·.2)).map (·.1)) := by
        intro status error finalMessage hstatus hmislaid
        refine recordAndReturn_shows ?_ ?_
        · intro m w' result hout
          cases hout
        · intro w' result hout
          cases hout
          refine ⟨Or.inr ?_, fun hm => absurd hm hmislaid, ?_⟩
          · simp [resultFromContext, hstatus, continuationContext]
          · intro _
            simp [resultFromContext, hstatus]
      unfold ApprovalContinuationContext.continueWith
      split_ifs with hinput hdecision
      · simp [continuationContext, approvalRequest] at hinput
      · refine hstop _ _ _ (by decide) ?_
        intro hmislaid
        exact hdecision hmislaid.approved
      · rw [not_not] at hdecision
        split
        · rename_i e hinvalid
          refine hstop _ _ _ (by decide) ?_
          intro hmislaid
          obtain ⟨capability, hvalid, -⟩ := hmislaid.acceptable
          rw [hinvalid] at hvalid
          cases hvalid
        · rename_i capability hvalid
          dsimp only
          split
          · rename_i hyield
            refine hstop _ _ _ (by decide) ?_
            intro hmislaid
            obtain ⟨capability', hvalid', -, hyield'⟩ := hmislaid.acceptable
            rw [hvalid] at hvalid'
            cases hvalid'
            exact hyield' hyield
          · rename_i hdeny
            refine hstop _ _ _ (by decide) ?_
            intro hmislaid
            obtain ⟨capability', hvalid', hdeny', -⟩ := hmislaid.acceptable
            rw [hvalid] at hvalid'
            cases hvalid'
            exact hdeny' hdeny
          · rename_i hyield hdeny
            exact executeIntent_continued hdecision ⟨capability, hvalid, hdeny, hyield⟩ rfl

/-! ### The reconciler -/

variable (sha256 dateParse env t) in
/-- The reconciler's result: the artifact was refused as a whole, or the loop made it. -/
inductive Ran (later : String) (w w' : TaskWorld) (result : TaskReconciliationResult)
    (ok : List ExecuteMcpIntentInput) : Prop where
  | refused (executed : result.executedIntents = []) (skipped : result.skippedIntents = [])
      (request : result.approvalRequest = none) (none : ok = [])
      (accountable : t.ArtifactAccountable sha256 dateParse env later w
        ↔ t.artifact.executionIntents = [])
  | looped (fs : List (ExecutionIntent × Fate))
      (fates : fs = t.fates (taskHandle env) sha256 dateParse t.artifact.executionIntents 0 w)
      (executed : result.executedIntents = executedOf fs)
      (skipped : result.skippedIntents = skippedOf fs)
      (run : result.taskRunId = t.input.taskRunId)
      (request : result.approvalRequest = requestOf sha256 t fs)
      (ok : ok = (executedOf fs).map t.executeInput)
      (settled : w' = t.settled (taskHandle env) sha256 dateParse t.artifact.executionIntents 0 w)
      (accountable : t.ArtifactAccountable sha256 dateParse env later w
        ↔ t.Accountable sha256 dateParse env later t.artifact.executionIntents 0 w)

theorem reconcileArtifact_ran (later : String) (w : TaskWorld) :
    Shows (taskHandle env) (execution (taskHandle env)) (t.reconcileArtifact sha256 dateParse) w
      fun out w' seen => ∀ result, out = .ok result →
        t.Ran sha256 dateParse env later w w' result ((seen.filter (·.2)).map (·.1)) := by
  have hrefused : ∀ status code message item finalMessage,
      (t.ArtifactAccountable sha256 dateParse env later w ↔ t.artifact.executionIntents = []) →
      Shows (taskHandle env) (execution (taskHandle env))
        (.done (t.refuseArtifact sha256 status code message item finalMessage)) w
        fun out w' seen => ∀ result, out = .ok result →
          t.Ran sha256 dateParse env later w w' result ((seen.filter (·.2)).map (·.1)) := by
    intro status code message item finalMessage haccountable
    refine shows_done ?_
    intro result hout
    cases hout
    exact .refused rfl rfl rfl rfl haccountable
  unfold reconcileArtifact
  split_ifs with hsnapshot hempty hmany
  · refine hrefused _ _ _ _ _ ⟨?_, Or.inl⟩
    rintro (hnone | ⟨hsame, -⟩)
    · exact hnone
    · exact absurd hsame hsnapshot
  · exact hrefused _ _ _ _ _ ⟨fun _ => List.length_eq_zero_iff.mp hempty, Or.inl⟩
  · refine hrefused _ _ _ _ _ ⟨?_, Or.inl⟩
    rintro (hnone | ⟨-, hfew, -⟩)
    · exact hnone
    · omega
  · refine (reconcileIntents_reconciled t.artifact.executionIntents .empty w).mono ?_
    rintro out w' seen ⟨hloop, hsettled⟩ result hout
    obtain ⟨hexecuted, hskipped, hrun, hrequest, hok⟩ := hloop.lists result hout
    refine .looped _ rfl hexecuted hskipped hrun hrequest hok (hsettled result hout) ⟨?_, ?_⟩
    · rintro (hnone | ⟨-, -, haccountable⟩)
      · exact absurd (by rw [hnone]; rfl) hempty
      · exact haccountable
    · intro haccountable
      exact Or.inr ⟨not_not.mp hsnapshot, by omega, haccountable⟩

end TaskSetting

/-! ### The task as a whole -/

section Whole

open Prog

variable {sha256 : String → String} {dateParse : String → Option Int} {env : TaskEnv}

theorem taskReconciler_ran (now later : String) {input : TaskReconcilerInput}
    {artifact : CognitiveArtifact} {w : TaskWorld} (hartifact : env.artifact (w.tick + 2) = .ok artifact) :
    Shows (taskHandle env) (execution (taskHandle env))
      (taskReconciler sha256 dateParse now (.ok input)) w
      fun out w' seen => ∀ result, out = .ok result →
        TaskSetting.Ran sha256 dateParse env ⟨input, now, env.snapshot (w.tick + 1), artifact⟩ later
          w.next.next.next w' result ((seen.filter (·.2)).map (·.1)) := by
  have hthrown : ∀ m w' seen, ∀ result, (Except.error m : Except String TaskReconciliationResult)
      = .ok result → TaskSetting.Ran sha256 dateParse env
        ⟨input, now, env.snapshot (w.tick + 1), artifact⟩ later w.next.next.next w' result seen := by
    intro m w' seen result hout
    cases hout
  unfold taskReconciler
  refine shows_bind (shows_perform ?_)
  cases hfirst : env.throws w.tick with
  | some m =>
      simp only [taskHandle, hfirst]
      exact hthrown _ _ _
  | none =>
      simp only [taskHandle, hfirst, serveTask]
      refine shows_bind (shows_perform ?_)
      cases hsecond : env.throws w.next.tick with
      | some m =>
          simp only [taskHandle, hsecond]
          exact hthrown _ _ _
      | none =>
          simp only [taskHandle, hsecond, serveTask]
          refine shows_bind (shows_perform ?_)
          cases hthird : env.throws w.next.next.tick with
          | some m =>
              simp only [taskHandle, hthird]
              exact hthrown _ _ _
          | none =>
              have hanswer : env.artifact w.next.next.tick = .ok artifact := hartifact
              simp only [taskHandle, hthird, serveTask, hanswer]
              exact TaskSetting.reconcileArtifact_ran later w.next.next.next

theorem executeInput_executes (t : TaskSetting) (intents : List ExecutionIntent) :
    List.Forall₂ ExecuteMcpIntentInput.Executes (intents.map t.executeInput) intents := by
  rw [List.forall₂_map_left_iff, List.forall₂_same]
  intro intent _
  exact ⟨rfl, rfl, rfl, rfl, rfl⟩

/-- The fates of the intents taken up account for all intents exactly if all are taken up. -/
theorem fates_perm_iff {intents : List ExecutionIntent} {fs : List (ExecutionIntent × Fate)}
    (hfront : fs.map (·.1) <+: intents) :
    (executedOf fs ++ skippedOf fs).Perm intents ↔ fs.length = intents.length := by
  have hperm := executedOf_append_skippedOf fs
  refine ⟨?_, ?_⟩
  · intro hall
    have hlength := (hperm.symm.trans hall).length_eq
    rwa [List.length_map] at hlength
  · intro hlength
    have hsame : fs.map (·.1) = intents :=
      hfront.eq_of_length (by rw [List.length_map, hlength])
    rw [← hsame]
    exact hperm

/-- With the continuation of the intent that waits, the accounts are right exactly if all
intents are taken up and this one is not mislaid. -/
theorem continued_accounted {t : TaskSetting} {later : String} {intents : List ExecutionIntent}
    {fs before : List (ExecutionIntent × Fate)} {intent : ExecutionIntent} {w : TaskWorld}
    {reconciled continued : TaskReconciliationResult} {ok : List ExecuteMcpIntentInput}
    (hends : EndsWaiting sha256 env t fs before intent w)
    (hfront : fs.map (·.1) <+: intents)
    (hexecuted : reconciled.executedIntents = executedOf fs)
    (hskipped : reconciled.skippedIntents = skippedOf fs)
    (hcontinued : TaskSetting.Continued sha256 dateParse env t later intent w continued ok) :
    Accounted intents (togetherExecuted reconciled (some continued))
        (togetherSkipped reconciled (some continued)) ((executedOf fs).map t.executeInput ++ ok) ↔
      fs.length = intents.length ∧ ¬ t.Mislaid sha256 dateParse env later intent w := by
  have hskippedOf : skippedOf fs = skippedOf before ++ [intent] := by
    rw [hends.last]
    simp [skippedOf, Fate.isExecuted]
  have honce : (togetherExecuted reconciled (some continued) ++
      togetherSkipped reconciled (some continued)).Perm (executedOf fs ++ skippedOf fs) := by
    simp only [togetherExecuted, togetherSkipped, hexecuted, hskipped, hskippedOf, Option.elim_some,
      List.dropLast_concat]
    rcases hcontinued.listed with ⟨he, hs⟩ | ⟨he, hs⟩
    · rw [he, hs, List.append_nil, List.append_assoc]
      exact List.Perm.append_left _ List.perm_append_comm
    · rw [he, hs, List.append_nil]
  refine ⟨?_, ?_⟩
  · intro haccounted
    refine ⟨(fates_perm_iff hfront).mp (honce.symm.trans haccounted.once), ?_⟩
    intro hmislaid
    obtain ⟨hnone, hone⟩ := hcontinued.mislaid hmislaid
    have hlength := haccounted.executed.length_eq
    rw [hone] at hlength
    simp [togetherExecuted, hexecuted, hnone] at hlength
  · rintro ⟨hlength, hmatching⟩
    refine ⟨honce.trans ((fates_perm_iff hfront).mpr hlength), ?_⟩
    rw [hcontinued.matching hmatching]
    simp only [togetherExecuted, hexecuted, Option.elim_some]
    refine List.rel_append (executeInput_executes t _) ?_
    rw [List.forall₂_map_left_iff, List.forall₂_same]
    intro intent' hintent'
    rcases hcontinued.listed with ⟨he, -⟩ | ⟨he, -⟩
    · rw [he, List.mem_singleton] at hintent'
      rw [hintent']
      exact ⟨rfl, rfl, rfl, rfl, rfl⟩
    · rw [he] at hintent'
      cases hintent'

/-- **The accounts of a task.**  For an artifact that is well formed, the results of the
reconciler and of the continuation list every intent once, as executed exactly where its
execution returned ok, if and only if the artifact is accountable: it has no intents; or its
snapshot is the one discovered, it keeps to the bound, only its last intent ends the loop,
and if that one waits for approval, its continuation does not execute it for a critic who
objects. -/
theorem runTask_accounted {now later : String} {input : TaskReconcilerInput}
    {artifact : CognitiveArtifact} {w : TaskWorld} {result : TaskReconciliationResult}
    {continued : Option TaskReconciliationResult}
    (hartifact : env.artifact (w.tick + 2) = .ok artifact)
    (hrun : (exec (taskHandle env) (runTask sha256 dateParse now later (.ok input)) w).outcome
      = .ok (result, continued)) :
    Accounted artifact.executionIntents (togetherExecuted result continued)
        (togetherSkipped result continued)
        (okExecutions (taskHandle env)
          (exec (taskHandle env) (runTask sha256 dateParse now later (.ok input)) w).trace) ↔
      TaskSetting.ArtifactAccountable sha256 dateParse env
        ⟨input, now, env.snapshot (w.tick + 1), artifact⟩ later w.next.next.next := by
  suffices hshows : Shows (taskHandle env) (execution (taskHandle env))
      (runTask sha256 dateParse now later (.ok input)) w
      fun out _ seen => out = .ok (result, continued) →
        (Accounted artifact.executionIntents (togetherExecuted result continued)
            (togetherSkipped result continued) ((seen.filter (·.2)).map (·.1)) ↔
          TaskSetting.ArtifactAccountable sha256 dateParse env
            ⟨input, now, env.snapshot (w.tick + 1), artifact⟩ later w.next.next.next) from
    hshows hrun
  unfold runTask
  refine shows_bind ((taskReconciler_ran now later hartifact).mono ?_)
  rintro (m | reconciled) w' seen hran
  · intro hout
    cases hout
  specialize hran reconciled rfl
  dsimp only
  cases hran with
  | refused hexecuted hskipped hrequest hnone haccountable =>
      rw [hrequest]
      refine shows_done ?_
      intro hout
      cases hout
      rw [haccountable, List.append_nil, hnone]
      refine ⟨?_, ?_⟩
      · intro haccounted
        have hperm := haccounted.once
        simp only [togetherExecuted, togetherSkipped, hexecuted, hskipped, Option.elim_none,
          List.append_nil] at hperm
        exact hperm.symm.eq_nil
      · intro hintents
        have hempty : artifact.executionIntents = [] := hintents
        refine ⟨?_, ?_⟩
        · simp [togetherExecuted, togetherSkipped, hexecuted, hskipped, hempty]
        · simp [togetherExecuted, hexecuted]
  | looped fs hfates hexecuted hskipped htask hrequest hok hsettled haccountable =>
      have hfront : fs.map (·.1) <+: artifact.executionIntents := by
        rw [hfates]
        exact TaskSetting.fates_prefix _ _ _
      have hend := @TaskSetting.accountable_iff sha256 dateParse env
        ⟨input, now, env.snapshot (w.tick + 1), artifact⟩ later artifact.executionIntents 0
        w.next.next.next
      rw [haccountable]
      simp only at hend hfates hsettled
      rw [← hfates, ← hsettled] at hend
      rcases hend with ⟨hnone, hiff⟩ | ⟨before, intent, hends, hiff⟩
      · rw [hrequest, hnone]
        refine shows_done ?_
        intro hout
        cases hout
        rw [hiff, List.append_nil, hok, ← fates_perm_iff hfront]
        refine ⟨?_, ?_⟩
        · intro haccounted
          have hperm := haccounted.once
          simp only [togetherExecuted, togetherSkipped, hexecuted, hskipped, Option.elim_none,
            List.append_nil] at hperm
          exact hperm
        · intro hperm
          refine ⟨?_, ?_⟩
          · simp only [togetherExecuted, togetherSkipped, hexecuted, hskipped, Option.elim_none,
              List.append_nil]
            exact hperm
          · simp only [togetherExecuted, hexecuted, Option.elim_none, List.append_nil]
            exact executeInput_executes _ _
      · rw [hrequest, hends.request]
        dsimp only
        rw [htask]
        refine shows_bind ((TaskSetting.taskContinuation_continued hends).mono ?_)
        rintro (m | last) w'' seen' hcontinued
        · intro hout
          cases hout
        refine shows_done ?_
        intro hout
        cases hout
        specialize hcontinued _ rfl
        rw [hiff, List.append_nil, List.filter_append, List.map_append, hok]
        exact continued_accounted hends hfront hexecuted hskipped hcontinued

end Whole

/-! ### A task whose second intent is lost -/

def sampleTaskDigest : String := String.ofList (List.replicate 64 'a')

def sampleIntent (intentId : String) : ExecutionIntent where
  intentId
  snapshotId := "caps_1"
  endpointId := "files"
  capabilityName := "write"
  capabilityDigest := sampleTaskDigest
  riskLevel := .write
  requiresApproval := false
  idempotencyKey := intentId
  arguments := []

/-- Writing needs an approval under the default bounds. -/
def sampleTask : TaskReconcilerInput where
  parentProjectId := "project"
  parentProjectRunId := "project_run"
  taskRunId := "task_run"
  scopedTask := ⟨"task", "Title", "Objective", [], ["write"], .write⟩
  delegationContext :=
    { principalId := "user", principalType := "human", delegateId := "reconciler",
      delegateType := "reconciler", projectId := "project", workspaceId := "workspace",
      allowedScopes := [], deniedScopes := [], allowedCapabilities := ["write"],
      maxRiskLevel := .write, approvalRequiredFor := [], expiresAt := "2030-01-01T00:00:00.000Z",
      traceId := "trace", parentRunId := "run", taskRunId := none }
  bounds := defaultExecutionBounds

/-- The children of a task whose artifact has the given intents: every request is approved,
every execution returns ok, and the critic passes everything. -/
def sampleTaskEnv (intentIds : List String) : TaskEnv where
  throws _ := none
  snapshot _ := ⟨"caps_1", "2026-01-01T00:00:00.000Z", sampleTaskDigest,
    [⟨"files", "write", "", .obj [], .obj [], .write, false, sampleTaskDigest⟩]⟩
  artifact _ := .ok ⟨"artifact", "caps_1", intentIds.map sampleIntent, none⟩
  endpoint _ := .ok "Capability execution succeeded" .null
  critic _ := ⟨.pass, ""⟩
  tokenHash _ := sampleTaskDigest
  decide _ decision := { decision with decision := .approved }

def sampleTaskRun (intentIds : List String) :=
  Prog.exec (taskHandle (sampleTaskEnv intentIds))
    (runTask (fun _ => sampleTaskDigest) (fun _ => none) "2026-01-01T00:00:00.000Z"
      "2026-01-02T00:00:00.000Z" (.ok sampleTask)) .empty

/-- The run returns, and lists as many intents as this. -/
def lists (n : Nat) : Except String (TaskReconciliationResult × Option TaskReconciliationResult) →
    Bool
  | .ok (result, continued) =>
      (togetherExecuted result continued ++ togetherSkipped result continued).length = n
  | .error _ => false

theorem sampleTaskRun_lists : lists 1 (sampleTaskRun ["intent_1"]).outcome = true := by
  decide +kernel

theorem sampleTaskRun_accounted : ∃ result continued,
    (sampleTaskRun ["intent_1"]).outcome = .ok (result, continued) ∧
      (Accounted [sampleIntent "intent_1"] (togetherExecuted result continued)
          (togetherSkipped result continued)
          (okExecutions (taskHandle (sampleTaskEnv ["intent_1"]))
            (sampleTaskRun ["intent_1"]).trace) ↔
        TaskSetting.ArtifactAccountable (fun _ => sampleTaskDigest) (fun _ => none)
          (sampleTaskEnv ["intent_1"])
          ⟨sampleTask, "2026-01-01T00:00:00.000Z", (sampleTaskEnv ["intent_1"]).snapshot 1,
            ⟨"artifact", "caps_1", [sampleIntent "intent_1"], none⟩⟩
          "2026-01-02T00:00:00.000Z" TaskWorld.empty.next.next.next) := by
  have hlists := sampleTaskRun_lists
  cases hrun : (sampleTaskRun ["intent_1"]).outcome with
  | error m =>
      rw [hrun] at hlists
      cases hlists
  | ok pair => exact ⟨pair.1, pair.2, rfl, runTask_accounted rfl hrun⟩

/-- The first of two intents is approved and executed; the second is in no list. -/
theorem sampleTaskRun_loses : ¬ ∀ (sha256 : String → String) (dateParse : String → Option Int)
    (env : TaskEnv) (now later : String) (input : TaskReconcilerInput)
    (artifact : CognitiveArtifact) (w : TaskWorld) (result : TaskReconciliationResult)
    (continued : Option TaskReconciliationResult),
    env.artifact (w.tick + 2) = .ok artifact →
    (Prog.exec (taskHandle env) (runTask sha256 dateParse now later (.ok input)) w).outcome
      = .ok (result, continued) →
    Accounted artifact.executionIntents (togetherExecuted result continued)
      (togetherSkipped result continued)
      (okExecutions (taskHandle env)
        (Prog.exec (taskHandle env) (runTask sha256 dateParse now later (.ok input)) w).trace) := by
  intro hall
  have hlists : lists 1 (sampleTaskRun ["intent_1", "intent_2"]).outcome = true := by
    decide +kernel
  cases hrun : (sampleTaskRun ["intent_1", "intent_2"]).outcome with
  | error m =>
      rw [hrun] at hlists
      cases hlists
  | ok pair =>
      obtain ⟨result, continued⟩ := pair
      have haccounted := hall _ _ _ _ _ _ _ _ result continued rfl hrun
      have hlength := haccounted.once.length_eq
      rw [hrun] at hlists
      rw [of_decide_eq_true hlists] at hlength
      cases hlength

end OpenLagrange
