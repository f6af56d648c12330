/-
The calls a session may cost.

The budget of a session is not kept: it is read off the history, which holds the revisions that
came of a call.  So a call is counted exactly if its revision gets into the session that is worked
with afterwards.  Where every call does, the history and the calls grow together and the check
before a call bounds both; a call that fails leaves nothing behind, and may be repeated for ever.

The number of revisions in one stabilisation is bounded by the turns of its loop, whatever
happens.
-/
import OpenLagrange.Lib.ProgCost
import OpenLagrange.Planning.PlanBuilderLoop
import OpenLagrange.Proofs.PlanCheck

namespace OpenLagrange.PlanBuilder

/-- The calls of a planner model: of one a caller brings, or of the provider's, tried twice. -/
def isModelCall : BuilderCall → Bool
  | .planner _ _ | .generateObject _ _ _ | .generateText _ _ _ => true
  | _ => false

/-- A revision that is asked for starts with one of these. -/
def isRevisionCall : BuilderCall → Bool
  | .planner _ _ | .generateObject _ _ _ => true
  | _ => false

variable {P : Platform} {config : PlanBuilderConfig} {session : PlanBuilderSession}

/-! ### One stabilisation -/

section Turns

/-- Every answer, and every throw. -/
abbrev Any (P : Platform) : (call : BuilderCall) → Except String (BuilderAnswer P call) → Prop :=
  fun _ _ => True

/-- The program asks for at most `n` revisions. -/
abbrev Asks {α : Type} (program : BuilderProgram P α) (n : Nat) : Prop :=
  Prog.Charges isRevisionCall (Any P) program fun _ k => k ≤ n

variable {α β : Type}

theorem asks_done {a : α} {n : Nat} : Asks (.done a : BuilderProgram P α) n :=
  Prog.charges_done (Nat.zero_le n)

theorem asks_fail {m : String} {n : Nat} : Asks (.fail m : BuilderProgram P α) n :=
  Prog.charges_fail (Nat.zero_le n)

theorem asks_await {call : BuilderCall} {n : Nat} (h : (if isRevisionCall call then 1 else 0) ≤ n) :
    Asks (await P call) n :=
  Prog.charges_perform fun _ _ => h

/-- A first part that asks for nothing. -/
theorem asks_after {p : BuilderProgram P α} {f : α → BuilderProgram P β} {n : Nat}
    (hp : Asks p 0) (hf : ∀ a, Asks (f a) n) : Asks (p.bind f) n := by
  have h := Prog.charges_bind_le hp hf
  rwa [Nat.zero_add] at h

/-- A last part that asks for nothing. -/
theorem asks_before {p : BuilderProgram P α} {f : α → BuilderProgram P β} {n : Nat}
    (hp : Asks p n) (hf : ∀ a, Asks (f a) 0) : Asks (p.bind f) n :=
  Prog.charges_bind_le hp hf

theorem asks_save : Asks (savePlanBuilderSession P session) 0 := by
  unfold savePlanBuilderSession
  split
  · exact asks_after (asks_await (Nat.le_refl 0)) fun _ => asks_done
  · exact asks_fail

theorem asks_updateSession (patch : PlanBuilderSession → PlanBuilderSession)
    (persist : Option Bool) : Asks (updateSession P session patch persist) 0 := by
  refine asks_after (asks_await (Nat.le_refl 0)) ?_
  intro now
  dsimp only
  split
  · split
    · exact asks_done
    · exact asks_save
  · exact asks_fail

theorem asks_lifecyclePlanfile {planfile : Planfile} {now : String} {update : LifecycleUpdate} :
    Asks (lifecyclePlanfile P planfile now update) 0 := by
  unfold lifecyclePlanfile
  dsimp only
  split
  · exact asks_done
  · exact asks_fail

theorem asks_simulatePlan (profile : Option RuntimeProfileForRequirements) (persist : Option Bool) :
    Asks (simulatePlan P config session profile persist) 0 := by
  unfold simulatePlan
  split <;> exact asks_updateSession _ _

theorem asks_validatePlan (persist : Option Bool) : Asks (validatePlan P session persist) 0 := by
  unfold validatePlan
  split
  · exact asks_updateSession _ _
  · refine asks_after (asks_await (Nat.le_refl 0)) fun now => ?_
    exact asks_after asks_lifecyclePlanfile fun planfile => asks_updateSession _ _

theorem asks_deterministicRepair (now : String) : Asks (deterministicRepair P session now) 0 := by
  unfold deterministicRepair
  split
  · exact asks_done
  · split
    · refine asks_after asks_lifecyclePlanfile fun planfile => ?_
      dsimp only
      split
      · exact asks_done
      · exact asks_fail
    · exact asks_done

theorem asks_executeModelRoleCall (route : ModelRouteConfig) (planfile : Planfile) (reason : String) :
    Asks (executeModelRoleCall P route planfile reason) 1 := by
  have htelemetry : Asks (await P (.persistTelemetry route)) 0 := asks_await (Nat.le_refl 0)
  refine asks_after (asks_await (Nat.le_refl 0)) ?_
  intro model
  split
  · refine Prog.charges_tryCatch_le (n := 1) (m := 0) ?_ ?_
    · refine asks_before (asks_await (Nat.le_refl 1)) fun object => ?_
      exact asks_before htelemetry fun _ => asks_done
    · intro caught
      refine Prog.charges_tryCatch_le (n := 0) (m := 0) ?_ ?_
      · refine asks_after (asks_await (Nat.le_refl 0)) fun object => ?_
        exact asks_before htelemetry fun _ => asks_done
      · exact fun fallback => asks_after htelemetry fun _ => asks_fail
  · exact asks_after htelemetry fun _ => asks_fail

theorem asks_plannedRevision (planfile : Planfile) (options : ReviseOptions) (now : String) :
    Asks (plannedRevision P session planfile options now) 1 := by
  unfold plannedRevision
  dsimp only
  split
  · refine asks_before (asks_executeModelRoleCall _ _ _) ?_
    rintro ⟨object, telemetry⟩
    dsimp only
    split
    · exact asks_done
    · exact asks_fail
  · exact asks_await (Nat.le_refl 1)

theorem asks_askPlanner (planfile : Planfile) (options : ReviseOptions) (now : String) :
    Asks (askPlanner P session planfile options now) 1 := by
  refine asks_before (asks_plannedRevision _ _ _) fun revision => ?_
  refine asks_after asks_lifecyclePlanfile fun planfile => ?_
  exact asks_after (asks_updateSession _ _) fun next => asks_validatePlan _

theorem asks_repairFirst (options : ReviseOptions) (now : String) :
    Asks (repairFirst P session options now) 0 := by
  unfold repairFirst
  split
  · exact asks_done
  · exact asks_deterministicRepair _

/-- A revision asks once. -/
theorem asks_revisePlan (options : ReviseOptions) : Asks (revisePlan P config session options) 1 := by
  have hyield : ∀ reason, Asks (updateSession P session (yielded reason) options.persist) 1 :=
    fun reason => (asks_updateSession _ _).mono fun _ _ h => Nat.le_succ_of_le h
  unfold revisePlan
  split
  · exact hyield _
  · refine asks_after (asks_await (Nat.le_refl 0)) fun now => ?_
    refine asks_after (asks_repairFirst _ _) fun deterministic => ?_
    split
    · refine asks_after (asks_updateSession _ _) fun next => ?_
      exact (asks_validatePlan _).mono fun _ _ h => Nat.le_succ_of_le h
    · split
      · exact hyield _
      · split
        · exact hyield _
        · exact Prog.charges_tryCatch_le (n := 1) (m := 0) (asks_askPlanner _ _ _)
            fun message => asks_updateSession _ _

theorem asks_stabilizeLoop (options : StabilizeOptions) (turns : Nat) :
    Asks (stabilizeLoop P config options turns session) turns := by
  induction turns generalizing session with
  | zero => exact asks_done
  | succ turns ih =>
      refine asks_after (asks_simulatePlan _ _) fun next => ?_
      refine asks_after (asks_validatePlan _) fun next => ?_
      split
      · exact asks_done
      · rw [Nat.add_comm turns 1]
        refine Prog.charges_bind_le (asks_revisePlan _) fun next => ?_
        split
        · exact asks_done
        · exact ih

theorem asks_concede : Asks (concede P session) 0 := by
  unfold concede
  split
  · exact asks_done
  · exact asks_updateSession _ _

/-- **A stabilisation asks for at most `max_revisions` revisions.** -/
theorem asks_stabilizePlan (options : StabilizeOptions) :
    Asks (stabilizePlan P config session options) (config.maxRevisions.getD 3) := by
  refine asks_before (asks_stabilizeLoop _ _) fun next => ?_
  refine asks_after asks_concede fun next => ?_
  split
  · exact asks_done
  · exact asks_save

/-- The program leaves a session whose history has at most `n` revisions more. -/
abbrev Adds (program : BuilderProgram P PlanBuilderSession) (history : List PlanRevision) (n : Nat) :
    Prop :=
  Prog.Obeys (fun _ => True) (fun _ _ => True)
    (fun next => next.revisionHistory.length ≤ history.length + n) program

/-- What a program that may end in any way can be said to return. -/
theorem obeys_any {p : BuilderProgram P α} :
    Prog.Obeys (fun _ => True) (fun _ _ => True) (fun _ => True) p := by
  induction p with
  | done a => trivial
  | fail m => trivial
  | call call k ih => exact ⟨trivial, fun a _ => ih (.ok a), fun m => ih (.error m)⟩

theorem adds_save {history : List PlanRevision} {n : Nat}
    (h : session.revisionHistory.length ≤ history.length + n) :
    Adds (savePlanBuilderSession P session) history n := by
  unfold savePlanBuilderSession
  split
  · exact Prog.obeys_bind obeys_any fun _ _ => Prog.obeys_done h
  · exact Prog.obeys_fail

theorem adds_updateSession {patch : PlanBuilderSession → PlanBuilderSession}
    {persist : Option Bool} {history : List PlanRevision} {n : Nat}
    (h : (patch session).revisionHistory.length ≤ history.length + n) :
    Adds (updateSession P session patch persist) history n := by
  refine Prog.obeys_bind obeys_any fun now _ => ?_
  dsimp only
  split
  · split
    · exact Prog.obeys_done h
    · exact adds_save h
  · exact Prog.obeys_fail

theorem adds_validatePlan (persist : Option Bool) :
    Adds (validatePlan P session persist) session.revisionHistory 0 := by
  unfold validatePlan
  split
  · exact adds_updateSession (Nat.le_refl _)
  · refine Prog.obeys_bind obeys_any fun now _ => ?_
    exact Prog.obeys_bind obeys_any fun planfile _ => adds_updateSession (Nat.le_refl _)

/-- A revision that is put in is one revision more. -/
theorem adds_withRevision (revision : PlanRevision) (planfile : Planfile) (persist : Option Bool) :
    Adds ((updateSession P session (withRevision revision planfile) (some false)).bind
      fun next => validatePlan P next persist) session.revisionHistory 1 := by
  have hone : (withRevision revision planfile session).revisionHistory.length ≤
      session.revisionHistory.length + 1 := List.length_append.le
  refine Prog.obeys_bind (adds_updateSession hone) fun next hnext => ?_
  refine (adds_validatePlan persist).mono (fun _ => id) (fun _ _ => id) ?_
  intro last hlast
  omega

theorem adds_revisePlan (options : ReviseOptions) :
    Adds (revisePlan P config session options) session.revisionHistory 1 := by
  have hyield : ∀ reason, Adds (updateSession P session (yielded reason) options.persist)
      session.revisionHistory 1 := fun reason => adds_updateSession (Nat.le_succ _)
  unfold revisePlan
  split
  · exact hyield _
  · refine Prog.obeys_bind obeys_any fun now _ => ?_
    refine Prog.obeys_bind obeys_any fun repair _ => ?_
    split
    · exact adds_withRevision _ _ _
    · split
      · exact hyield _
      · split
        · exact hyield _
        · refine Prog.obeys_tryCatch ?_ fun message => hyield message
          refine Prog.obeys_bind obeys_any fun revision _ => ?_
          exact Prog.obeys_bind obeys_any fun planfile _ => adds_withRevision _ _ _

theorem adds_stabilizeLoop (options : StabilizeOptions) (turns : Nat) :
    Adds (stabilizeLoop P config options turns session) session.revisionHistory turns := by
  induction turns generalizing session with
  | zero => exact Prog.obeys_done (Nat.le_refl _)
  | succ turns ih =>
      have hsimulate : Adds (simulatePlan P config session options.runtimeProfile (some false))
          session.revisionHistory 0 := by
        unfold simulatePlan
        split <;> exact adds_updateSession (Nat.le_refl _)
      refine Prog.obeys_bind hsimulate fun simulated hsimulated => ?_
      refine Prog.obeys_bind (adds_validatePlan _) fun validated hvalidated => ?_
      split
      · exact Prog.obeys_done (by omega)
      · refine Prog.obeys_bind (adds_revisePlan _) fun revised hrevised => ?_
        split
        · exact Prog.obeys_done (by omega)
        · refine ih.mono (fun _ => id) (fun _ _ => id) ?_
          intro last hlast
          omega

/-- **A stabilisation adds at most `max_revisions` revisions.** -/
theorem adds_stabilizePlan (options : StabilizeOptions) :
    Adds (stabilizePlan P config session options) session.revisionHistory
      (config.maxRevisions.getD 3) := by
  refine Prog.obeys_bind (adds_stabilizeLoop _ _) fun next hnext => ?_
  have hconcede : Adds (concede P next) session.revisionHistory (config.maxRevisions.getD 3) := by
    unfold concede
    split
    · exact Prog.obeys_done hnext
    · exact adds_updateSession hnext
  refine Prog.obeys_bind hconcede fun last hlast => ?_
  split
  · exact Prog.obeys_done hlast
  · exact adds_save hlast

end Turns

/-! ### Calls that are kept -/

section Kept

/-- The answers that end up in the session: a planner of the caller's answers with a revision of
a model that its schema accepts, and no call throws. -/
def Kept (P : Platform) : (call : BuilderCall) → Except String (BuilderAnswer P call) → Prop
  | .planner _ _, answer =>
      ∃ revision, answer = .ok revision ∧ revision.source = .model ∧ revision.refined P = true
  | _, answer => ∃ a, answer = .ok a

/-- How a program ends, and with how many calls of a model, where its calls are kept. -/
abbrev Costs {α : Type} (program : BuilderProgram P α) (post : Except String α → Nat → Prop) : Prop :=
  Prog.Charges isModelCall (Kept P) program post

/-- It ends with a session of this history, and without a call of a model. -/
def Becomes (P : Platform) (history : List PlanRevision) (out : Except String PlanBuilderSession)
    (n : Nat) : Prop :=
  n = 0 ∧ ∃ next, out = .ok next ∧ next.refined P = true ∧ next.revisionHistory = history

variable {α β : Type}

/-- A first part that returns, and calls no model. -/
theorem costs_after {p : BuilderProgram P α} {f : α → BuilderProgram P β} {Q : α → Prop}
    {post : Except String β → Nat → Prop}
    (hp : Costs p fun out n => n = 0 ∧ ∃ a, out = .ok a ∧ Q a) (hf : ∀ a, Q a → Costs (f a) post) :
    Costs (p.bind f) post := by
  refine Prog.charges_bind (hp.mono ?_)
  rintro out n ⟨rfl, a, rfl, ha⟩
  simp only [Nat.zero_add]
  exact hf a ha

theorem costs_call {call : BuilderCall} (hcall : isModelCall call = false) :
    Costs (await P call) fun out n => n = 0 ∧ ∃ a, out = .ok a ∧ True := by
  refine Prog.charges_perform ?_
  intro r hr
  rw [hcall]
  refine ⟨rfl, ?_⟩
  cases call with
  | planner planfile reason => cases hcall
  | _ =>
      obtain ⟨a, ha⟩ := hr
      exact ⟨a, ha, trivial⟩

theorem refined_withLifecycle (hsha : ∀ text, isSha256Hex (P.sha256 text) = true)
    {planfile : Planfile} {now : String} (update : LifecycleUpdate)
    (hrefined : planfile.refined P.isDatetime = true) (hid : nonempty update.sessionId = true)
    (hnow : P.isDatetime now = true) :
    ({ withLifecycle P.sha256 planfile now update with
        canonicalPlanDigest := planfile.canonicalPlanDigest }.refined P.isDatetime = true) ∧
      (withLifecycle P.sha256 planfile now update).refined P.isDatetime = true := by
  have hassumptions : planfile.goalFrame.assumptions.all nonempty = true := by
    simp only [Planfile.refined, GoalFrame.refined, Bool.and_eq_true] at hrefined
    exact hrefined.1.1.1.1.1.1.1.1.1.1.2.1.1.1.2
  simp only [withLifecycle, withCanonicalPlanDigest, Planfile.refined, Bool.and_eq_true] at hrefined ⊢
  simp only [Option.all_some, Option.getD_some, Bool.and_eq_true]
  have hrest := hrefined.1.1.1.1.1
  exact ⟨⟨⟨⟨⟨⟨hrest, hid, hassumptions⟩, hrefined.1.1.1.2⟩, hrefined.1.1.2⟩, hnow⟩, hrefined.2⟩,
    ⟨⟨⟨⟨hrest, hid, hassumptions⟩, hrefined.1.1.1.2⟩, hrefined.1.1.2⟩, hnow⟩, hsha _⟩

/-- What a schema that accepted a session looked at. -/
structure Accepted (P : Platform) (session : PlanBuilderSession) : Prop where
  sessionId : nonempty session.sessionId = true
  originalInput : nonempty session.originalInput = true
  currentPlanfile : session.currentPlanfile.all (·.refined P.isDatetime) = true
  revisionHistory : session.revisionHistory.all (·.refined P) = true
  yieldReason : session.yieldReason.all nonempty = true
  createdAt : P.isDatetime session.createdAt = true

theorem refined_iff : session.refined P = true ↔
    Accepted P session ∧ P.isDatetime session.updatedAt = true := by
  unfold PlanBuilderSession.refined
  simp only [Bool.and_eq_true]
  constructor
  · rintro ⟨⟨⟨⟨⟨⟨h1, h2⟩, h3⟩, h4⟩, h5⟩, h6⟩, h7⟩
    exact ⟨⟨h1, h2, h3, h4, h5, h6⟩, h7⟩
  · rintro ⟨⟨h1, h2, h3, h4, h5, h6⟩, h7⟩
    exact ⟨⟨⟨⟨⟨⟨h1, h2⟩, h3⟩, h4⟩, h5⟩, h6⟩, h7⟩

theorem Accepted.planfile (h : Accepted P session) {planfile : Planfile}
    (hplan : session.currentPlanfile = some planfile) : planfile.refined P.isDatetime = true := by
  have hall := h.currentPlanfile
  rw [hplan] at hall
  exact hall

theorem Accepted.yielded (h : Accepted P session) {reason : String} (hreason : reason ≠ "") :
    Accepted P (PlanBuilder.yielded reason session) :=
  { h with yieldReason := decide_eq_true hreason }

theorem costs_save (hrefined : session.refined P = true) :
    Costs (savePlanBuilderSession P session) (Becomes P session.revisionHistory) := by
  unfold savePlanBuilderSession
  rw [if_pos hrefined]
  refine costs_after (costs_call rfl) fun _ _ => ?_
  exact Prog.charges_done ⟨rfl, session, rfl, hrefined, rfl⟩

theorem costs_updateSession {patch : PlanBuilderSession → PlanBuilderSession}
    (h : Accepted P (patch session)) (persist : Option Bool) :
    Costs (updateSession P session patch persist) (Becomes P (patch session).revisionHistory) := by
  refine costs_after (costs_call rfl) ?_
  intro now _
  have hrefined : PlanBuilderSession.refined P { patch session with updatedAt := now.val } = true :=
    refined_iff.mpr ⟨{ h with }, now.property⟩
  dsimp only
  rw [if_pos hrefined]
  split
  · exact Prog.charges_done ⟨rfl, _, rfl, hrefined, rfl⟩
  · exact costs_save hrefined

theorem costs_lifecyclePlanfile (hsha : ∀ text, isSha256Hex (P.sha256 text) = true)
    {planfile : Planfile} {now : String} {update : LifecycleUpdate}
    (hrefined : planfile.refined P.isDatetime = true) (hid : nonempty update.sessionId = true)
    (hnow : P.isDatetime now = true) :
    Costs (lifecyclePlanfile P planfile now update) fun out n =>
      n = 0 ∧ ∃ next, out = .ok next ∧ next.refined P.isDatetime = true := by
  obtain ⟨hparsed, hnext⟩ := refined_withLifecycle hsha update hrefined hid hnow
  unfold lifecyclePlanfile
  dsimp only
  rw [if_pos hparsed]
  exact Prog.charges_done ⟨rfl, _, rfl, hnext⟩

theorem costs_simulatePlan (h : Accepted P session) (profile : Option RuntimeProfileForRequirements)
    (persist : Option Bool) :
    Costs (simulatePlan P config session profile persist) (Becomes P session.revisionHistory) := by
  unfold simulatePlan
  split
  · exact costs_updateSession (h.yielded (by decide)) _
  · refine costs_updateSession ?_ _
    exact ⟨h.sessionId, h.originalInput, h.currentPlanfile, h.revisionHistory, h.yieldReason,
      h.createdAt⟩

theorem costs_validatePlan (hsha : ∀ text, isSha256Hex (P.sha256 text) = true)
    (h : Accepted P session) (persist : Option Bool) :
    Costs (validatePlan P session persist) (Becomes P session.revisionHistory) := by
  unfold validatePlan
  split
  · exact costs_updateSession (h.yielded (by decide)) _
  · rename_i planfile hplan
    refine costs_after (costs_call rfl) ?_
    intro now _
    refine costs_after (costs_lifecyclePlanfile hsha (h.planfile hplan) h.sessionId now.property) ?_
    intro next hnext
    refine costs_updateSession ?_ _
    refine ⟨h.sessionId, h.originalInput, hnext, h.revisionHistory, ?_, h.createdAt⟩
    dsimp only
    split
    · decide
    · exact h.yieldReason

theorem Accepted.withRevision (h : Accepted P session) {revision : PlanRevision}
    {planfile : Planfile} (hrevision : revision.refined P = true)
    (hplan : planfile.refined P.isDatetime = true) :
    Accepted P (PlanBuilder.withRevision revision planfile session) := by
  refine ⟨h.sessionId, h.originalInput, hplan, ?_, h.yieldReason, h.createdAt⟩
  show (session.revisionHistory ++ [revision]).all _ = true
  rw [List.all_append, h.revisionHistory]
  simp [hrevision]

/-- A text that starts with letters is not empty. -/
theorem nonempty_revision (rest : String) : nonempty ("revision_" ++ rest) = true := by
  unfold nonempty
  rw [decide_eq_true_iff]
  intro h
  have hchars := congrArg String.toList h
  simp at hchars

theorem costs_repairFirst (hsha : ∀ text, isSha256Hex (P.sha256 text) = true)
    (h : Accepted P session) (options : ReviseOptions) {now : String}
    (hnow : P.isDatetime now = true) :
    Costs (repairFirst P session options now) fun out n => n = 0 ∧ ∃ repair, out = .ok repair ∧
      ∀ revision ∈ repair, revision.source = .deterministic ∧ revision.refined P = true := by
  have hnone : Costs (.done none : BuilderProgram P (Option PlanRevision)) fun out n => n = 0 ∧
      ∃ repair, out = .ok repair ∧
        ∀ revision ∈ repair, revision.source = .deterministic ∧ revision.refined P = true :=
    Prog.charges_done ⟨rfl, none, rfl, fun _ hmem => by cases hmem⟩
  unfold repairFirst
  split
  · exact hnone
  · unfold deterministicRepair
    split
    · exact hnone
    · rename_i planfile hplan
      split
      · refine costs_after (costs_lifecyclePlanfile hsha (h.planfile hplan) h.sessionId hnow) ?_
        intro next hnext
        dsimp only
        split
        · rename_i hrevision
          refine Prog.charges_done ⟨rfl, _, rfl, ?_⟩
          intro revision hmem
          cases hmem
          exact ⟨rfl, hrevision⟩
        · rename_i hrefused
          refine (hrefused ?_).elim
          simp only [PlanRevision.refined, nonempty_revision, hnext, hnow, Bool.and_true,
            Option.all_none]
          decide
      · exact hnone

/-- The one throw that is left: no model is configured, and none was called. -/
def unavailable : String := "Model provider unavailable for planner."

theorem costs_executeModelRoleCall (route : ModelRouteConfig) (planfile : Planfile) (reason : String) :
    Costs (executeModelRoleCall P route planfile reason) fun out n =>
      (∃ answer, out = .ok answer ∧ n = 1) ∨ (out = .error unavailable ∧ n = 0) := by
  refine costs_after (costs_call rfl) ?_
  intro model _
  split
  · refine Prog.charges_tryCatch ?_
    refine Prog.charges_bind (Prog.charges_perform ?_)
    rintro out ⟨object, rfl⟩
    refine costs_after (costs_call rfl) ?_
    intro telemetry _
    exact Prog.charges_done (Or.inl ⟨_, rfl, rfl⟩)
  · refine costs_after (costs_call rfl) ?_
    intro _ _
    exact Prog.charges_fail (Or.inr ⟨rfl, rfl⟩)

theorem costs_plannedRevision (hsha : ∀ text, isSha256Hex (P.sha256 text) = true)
    (planfile : Planfile) (options : ReviseOptions) {now : String} (hnow : P.isDatetime now = true) :
    Costs (plannedRevision P session planfile options now) fun out n =>
      (∃ revision, out = .ok revision ∧ n = 1 ∧ revision.source = .model ∧
        revision.refined P = true) ∨ (out = .error unavailable ∧ n = 0) := by
  unfold plannedRevision
  dsimp only
  split
  · refine Prog.charges_bind ((costs_executeModelRoleCall _ _ _).mono ?_)
    rintro out n (⟨⟨object, telemetry⟩, rfl, rfl⟩ | ⟨rfl, rfl⟩)
    · have hobject := object.property
      simp only [ModelPlanRevisionOutput.refined, Bool.and_eq_true] at hobject
      have htelemetry : (telemetry.map (·.val)).all nonempty = true := by
        cases telemetry with
        | none => rfl
        | some text => exact text.property
      dsimp only
      split
      · rename_i hrevision
        exact Prog.charges_done (Or.inl ⟨_, rfl, rfl, rfl, hrevision⟩)
      · rename_i hrefused
        refine (hrefused ?_).elim
        simp only [PlanRevision.refined, nonempty_revision, hobject.1.1, hobject.1.2,
          refined_withDigest hsha hobject.2, hnow, htelemetry, Bool.and_true]
    · exact Or.inr ⟨rfl, rfl⟩
  · refine Prog.charges_perform ?_
    rintro out ⟨revision, rfl, hsource, hrevision⟩
    exact Or.inl ⟨revision, rfl, rfl, hsource, hrevision⟩

theorem costs_askPlanner (hsha : ∀ text, isSha256Hex (P.sha256 text) = true)
    (h : Accepted P session) (planfile : Planfile) (options : ReviseOptions) {now : String}
    (hnow : P.isDatetime now = true) :
    Costs (askPlanner P session planfile options now) fun out n =>
      (∃ next revision, out = .ok next ∧ n = 1 ∧ next.refined P = true ∧
        revision.source = .model ∧ next.revisionHistory = session.revisionHistory ++ [revision]) ∨
      (out = .error unavailable ∧ n = 0) := by
  refine Prog.charges_bind ((costs_plannedRevision hsha planfile options hnow).mono ?_)
  rintro out n (⟨revision, rfl, rfl, hsource, hrevision⟩ | ⟨rfl, rfl⟩)
  · have hplan : revision.planfile.refined P.isDatetime = true := by
      simp only [PlanRevision.refined, Bool.and_eq_true] at hrevision
      exact hrevision.1.1.2
    refine costs_after (costs_lifecyclePlanfile hsha hplan h.sessionId hnow) ?_
    intro next hnext
    refine costs_after (costs_updateSession (h.withRevision hrevision hnext) _) ?_
    rintro next ⟨hrefined, hhistory⟩
    refine (costs_validatePlan hsha (refined_iff.mp hrefined).1 _).mono ?_
    rintro out n ⟨rfl, last, rfl, hlast, heq⟩
    exact Or.inl ⟨last, revision, rfl, rfl, hlast, hsource, heq.trans hhistory⟩
  · exact Or.inr ⟨rfl, rfl⟩

/-- The session that is left is charged with the calls that were made, within the budget. -/
def Pays (P : Platform) (config : PlanBuilderConfig) (session : PlanBuilderSession)
    (out : Except String PlanBuilderSession) (n : Nat) : Prop :=
  ∃ next, out = .ok next ∧ next.refined P = true ∧
    modelRevisionCount next = modelRevisionCount session + n ∧
    modelRevisionCount next ≤ max (config.maxModelCalls.getD 1) (modelRevisionCount session)

theorem Becomes.pays {out : Except String PlanBuilderSession} {n : Nat}
    (h : Becomes P session.revisionHistory out n) : Pays P config session out n := by
  obtain ⟨rfl, next, rfl, hrefined, hhistory⟩ := h
  have hcount : modelRevisionCount next = modelRevisionCount session := by
    unfold modelRevisionCount
    rw [hhistory]
  exact ⟨next, rfl, hrefined, hcount, hcount ▸ Nat.le_max_right _ _⟩

/-- What one part leaves, the next one pays on. -/
theorem Pays.trans {next : PlanBuilderSession} {out : Except String PlanBuilderSession} {n m : Nat}
    (h : Pays P config session (.ok next) n) (h' : Pays P config next out m) :
    Pays P config session out (n + m) := by
  obtain ⟨_, heq, -, hcount, hle⟩ := h
  cases heq
  obtain ⟨last, rfl, hlast, hcount', hle'⟩ := h'
  refine ⟨last, rfl, hlast, ?_, ?_⟩
  · omega
  · rcases Nat.le_total (config.maxModelCalls.getD 1) (modelRevisionCount session) with hmax | hmax
    · rw [Nat.max_eq_right hmax] at hle ⊢
      omega
    · rw [Nat.max_eq_left hmax] at hle ⊢
      omega

theorem pays_bind {p : BuilderProgram P PlanBuilderSession}
    {f : PlanBuilderSession → BuilderProgram P PlanBuilderSession}
    (hp : Costs p (Pays P config session))
    (hf : ∀ next, next.refined P = true → Costs (f next) (Pays P config next)) :
    Costs (p.bind f) (Pays P config session) := by
  refine Prog.charges_bind (hp.mono ?_)
  intro out n hpays
  obtain ⟨next, rfl, hrefined, hcount, hle⟩ := hpays
  refine (hf next hrefined).mono ?_
  intro out m hrest
  exact Pays.trans ⟨next, rfl, hrefined, hcount, hle⟩ hrest

theorem pays_done (hrefined : session.refined P = true) :
    Costs (.done session : BuilderProgram P PlanBuilderSession) (Pays P config session) :=
  Prog.charges_done (Becomes.pays ⟨rfl, session, rfl, hrefined, rfl⟩)

/-- **A revision pays for its call**, and only asks within the budget. -/
theorem pays_revisePlan (hsha : ∀ text, isSha256Hex (P.sha256 text) = true)
    (hrefined : session.refined P = true) (options : ReviseOptions) :
    Costs (revisePlan P config session options) (Pays P config session) := by
  have h := (refined_iff.mp hrefined).1
  have hyield : ∀ reason, reason ≠ "" →
      Costs (updateSession P session (yielded reason) options.persist) (Pays P config session) :=
    fun reason hreason => (costs_updateSession (h.yielded hreason) _).mono fun _ _ hb => hb.pays
  unfold revisePlan
  split
  · exact hyield _ (by decide)
  · rename_i planfile hplan
    refine costs_after (costs_call rfl) ?_
    intro now _
    refine costs_after (costs_repairFirst hsha h options now.property) ?_
    intro repair hrepair
    split
    · rename_i revision
      obtain ⟨hsource, hrevision⟩ := hrepair revision rfl
      have hplan : revision.planfile.refined P.isDatetime = true := by
        simp only [PlanRevision.refined, Bool.and_eq_true] at hrevision
        exact hrevision.1.1.2
      refine costs_after (costs_updateSession (h.withRevision hrevision hplan) _) ?_
      rintro next ⟨hnext, hhistory⟩
      refine (costs_validatePlan hsha (refined_iff.mp hnext).1 _).mono ?_
      rintro out n ⟨rfl, last, rfl, hlast, heq⟩
      have hcount : modelRevisionCount last = modelRevisionCount session := by
        unfold modelRevisionCount
        rw [heq, hhistory]
        show List.countP _ (session.revisionHistory ++ [revision]) = _
        rw [List.countP_append]
        simp [hsource]
      exact ⟨last, rfl, hlast, hcount, hcount ▸ Nat.le_max_right _ _⟩
    · split
      · exact hyield _ (by decide)
      · split
        · exact hyield _ (by decide)
        · rename_i hbudget
          refine Prog.charges_tryCatch ((costs_askPlanner hsha h _ _ now.property).mono ?_)
          rintro out n (⟨next, revision, rfl, rfl, hnext, hsource, hhistory⟩ | ⟨rfl, rfl⟩)
          · have hcount : modelRevisionCount next = modelRevisionCount session + 1 := by
              unfold modelRevisionCount
              rw [hhistory, List.countP_append]
              simp [hsource]
            refine ⟨next, rfl, hnext, hcount, ?_⟩
            rw [hcount]
            exact Nat.le_trans (Nat.lt_of_not_le hbudget) (Nat.le_max_left _ _)
          · simp only [Nat.zero_add]
            exact hyield _ (by decide)

theorem pays_stabilizeLoop (hsha : ∀ text, isSha256Hex (P.sha256 text) = true)
    (options : StabilizeOptions) (turns : Nat) (hrefined : session.refined P = true) :
    Costs (stabilizeLoop P config options turns session) (Pays P config session) := by
  induction turns generalizing session with
  | zero => exact pays_done hrefined
  | succ turns ih =>
      refine pays_bind ((costs_simulatePlan (refined_iff.mp hrefined).1 _ _).mono
        fun _ _ hb => hb.pays) ?_
      intro simulated hsimulated
      refine pays_bind ((costs_validatePlan hsha (refined_iff.mp hsimulated).1 _).mono
        fun _ _ hb => hb.pays) ?_
      intro validated hvalidated
      split
      · exact pays_done hvalidated
      · refine pays_bind (pays_revisePlan hsha hvalidated _) ?_
        intro revised hrevised
        split
        · exact pays_done hrevised
        · exact ih hrevised

theorem pays_stabilizePlan (hsha : ∀ text, isSha256Hex (P.sha256 text) = true)
    (hrefined : session.refined P = true) (options : StabilizeOptions) :
    Costs (stabilizePlan P config session options) (Pays P config session) := by
  refine pays_bind (pays_stabilizeLoop hsha options _ hrefined) ?_
  intro next hnext
  refine pays_bind ?_ ?_
  · unfold concede
    split
    · exact pays_done hnext
    · have h := (refined_iff.mp hnext).1
      refine (costs_updateSession (h.yielded ?_) _).mono fun _ _ hb => hb.pays
      have hreason := h.yieldReason
      cases hyield : next.yieldReason with
      | none => decide
      | some reason =>
          rw [hyield] at hreason
          exact of_decide_eq_true hreason
  · intro last hlast
    split
    · exact pays_done hlast
    · exact (costs_save hlast).mono fun _ _ hb => hb.pays

end Kept

/-! ### Runs -/

section Runs

/-- What is asked of a session. -/
inductive BuilderCommand where
  | revise (options : ReviseOptions)
  | stabilize (options : StabilizeOptions)

def BuilderCommand.program (P : Platform) (config : PlanBuilderConfig) (session : PlanBuilderSession) :
    BuilderCommand → BuilderProgram P PlanBuilderSession
  | .revise options => revisePlan P config session options
  | .stabilize options => stabilizePlan P config session options

variable {S : Type} (h : Prog.Handler BuilderCall (BuilderAnswer P) S) (config)

/-- The calls of a sequence of commands; one that throws leaves the session as it was. -/
def commandCalls : List BuilderCommand → PlanBuilderSession → S → List (S × BuilderCall)
  | [], _, _ => []
  | command :: commands, session, s =>
      let run := Prog.exec h (command.program P config session) s
      let next :=
        match run.outcome with
        | .ok next => next
        | .error _ => session
      run.trace ++ commandCalls commands next run.state

variable {h config}

theorem pays_command (hsha : ∀ text, isSha256Hex (P.sha256 text) = true)
    (hrefined : session.refined P = true) (command : BuilderCommand) :
    Costs (command.program P config session) (Pays P config session) := by
  cases command with
  | revise options => exact pays_revisePlan hsha hrefined options
  | stabilize options => exact pays_stabilizePlan hsha hrefined options

/-- **The budget of a session.**  Where every call that is made is kept, the calls of a planner
model and the revisions of a model in the history stay within `max_model_calls`, over any
sequence of commands; and a stabilisation asks for, and adds, at most `max_revisions` revisions. -/
theorem planner_budget (hsha : ∀ text, isSha256Hex (P.sha256 text) = true)
    (hrefined : session.refined P = true) (commands : List BuilderCommand) (s : S)
    (hkept : Prog.Answered h (Kept P) (commandCalls config h commands session s)) :
    (modelRevisionCount session + Prog.charge isModelCall (commandCalls config h commands session s) ≤
      max (config.maxModelCalls.getD 1) (modelRevisionCount session)) ∧
    ∀ (session : PlanBuilderSession) (options : StabilizeOptions) (s : S),
      let run := Prog.exec h (stabilizePlan P config session options) s
      Prog.charge isRevisionCall run.trace ≤ config.maxRevisions.getD 3 ∧
      ∀ next, run.outcome = .ok next → next.revisionHistory.length ≤
        session.revisionHistory.length + config.maxRevisions.getD 3 := by
  constructor
  · induction commands generalizing session s with
    | nil => exact Nat.le_max_right _ _
    | cons command commands ih =>
        have hfirst : Prog.Answered h (Kept P) (Prog.exec h (command.program P config session) s).trace :=
          fun c hc => hkept c (List.mem_append_left _ hc)
        obtain ⟨next, hout, hnext, hcount, hle⟩ :=
          (pays_command hsha hrefined command).exec h hfirst
        have hcalls : commandCalls config h (command :: commands) session s =
            (Prog.exec h (command.program P config session) s).trace ++
              commandCalls config h commands next
                (Prog.exec h (command.program P config session) s).state := by
          conv_lhs => unfold commandCalls
          dsimp only
          rw [hout]
        rw [hcalls] at hkept ⊢
        have hrest := ih hnext _ fun c hc => hkept c (List.mem_append_right _ hc)
        rw [Prog.charge_append]
        rcases Nat.le_total (config.maxModelCalls.getD 1) (modelRevisionCount session) with hmax | hmax
        · rw [Nat.max_eq_right hmax] at hle ⊢
          rw [Nat.max_eq_right (by omega)] at hrest
          omega
        · rw [Nat.max_eq_left hmax] at hle ⊢
          rw [Nat.max_eq_left hle] at hrest
          omega
  · intro session options s
    refine ⟨(asks_stabilizePlan options).exec h fun _ _ => trivial, ?_⟩
    intro next hnext
    exact ((adds_stabilizePlan options).exec_along fun _ _ _ _ => trivial).2 next hnext

end Runs

/-! ### Two calls on a budget of one -/

def draftSession : PlanBuilderSession where
  sessionId := "builder"
  promptSource := .chat
  originalInput := "prompt"
  currentPlanfile := some (samplePlan [sampleNode "first" .frame []])
  simulationReport := none
  validationReport := none
  pendingQuestions := []
  answeredQuestions := []
  revisionHistory := []
  planfileRevisionHistory := []
  status := .yielded
  yieldReason := none
  createdAt := "2026-01-01T00:00:00Z"
  updatedAt := "2026-01-01T00:00:00Z"

theorem draftSession_refined : draftSession.refined samplePlatform = true := by decide +kernel

def modelRevision : PlanRevision where
  revisionId := "revision"
  source := .model
  reason := "Revised."
  changes := []
  planfile := samplePlan [sampleNode "first" .frame []]
  validationOk := true
  createdAt := "2026-01-01T00:00:00Z"
  telemetryArtifactId := none

def modelOutput : { output : ModelPlanRevisionOutput // output.refined samplePlatform = true } :=
  ⟨⟨"Revised.", [], samplePlan [sampleNode "first" .frame []]⟩, by decide +kernel⟩

/-- Every call answers, but for the planner, which does this. -/
def answering (planner : Except String PlanRevision) :
    Prog.Handler BuilderCall (BuilderAnswer samplePlatform) Unit := fun call _ =>
  (match call with
    | .dateNow => .ok ⟨"2026-01-01T00:00:00Z", rfl⟩
    | .save _ => .ok ()
    | .planner _ _ => planner
    | .configuredModel _ => .ok true
    | .generateObject _ _ _ => .ok modelOutput
    | .generateText _ _ _ => .ok modelOutput
    | .persistTelemetry _ => .ok none, ())

/-- A caller that brings a planner. -/
def withPlanner : BuilderCommand := .revise ⟨none, none, true, some false⟩

/-- A revision that is kept: the second one is not asked for. -/
theorem planner_budget_kept :
    modelRevisionCount draftSession + Prog.charge isModelCall
        (commandCalls ⟨none, none, some 1⟩ (answering (.ok modelRevision)) [withPlanner, withPlanner]
          draftSession ()) ≤ 1 := by
  have hkept : Prog.Answered (answering (.ok modelRevision)) (Kept samplePlatform)
      (commandCalls ⟨none, none, some 1⟩ (answering (.ok modelRevision)) [withPlanner, withPlanner]
        draftSession ()) := by
    rintro ⟨s, call⟩ _
    cases call with
    | planner planfile reason => exact ⟨modelRevision, rfl, rfl, by decide +kernel⟩
    | _ => exact ⟨_, rfl⟩
  have hsha : isSha256Hex sampleDigest = true := by decide +kernel
  exact (planner_budget (fun _ => hsha) draftSession_refined [withPlanner, withPlanner] () hkept).1

/-- A planner that fails is asked again. -/
theorem failingPlanner_exceeds :
    modelRevisionCount draftSession = 0 ∧
      Prog.charge isModelCall (commandCalls ⟨none, none, some 1⟩
        (answering (.error "The planner failed.")) [withPlanner, withPlanner] draftSession ()) = 2 := by
  refine ⟨rfl, ?_⟩
  decide +kernel

end OpenLagrange.PlanBuilder
