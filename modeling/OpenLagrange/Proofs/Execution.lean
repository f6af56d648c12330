/-
What executions and continuations do to the plan state.

An execution of a run is a run to completion with records around it: the run record
before and after, the published artifacts, the snapshot.  A continuation is a reset of
the stored plan state followed by an execution.  All that surrounds the run to
completion is silent, except that publishing records its state once more.

`Executed` and `Continued` say what is seen of either, from the plan state that was
stored to the one that is left behind, with every way in which they can break off.
-/
import OpenLagrange.Proofs.Scope

namespace OpenLagrange

open PlanRunner

variable {P : Platform} {env : Env} {σ : Scope} {runId : String} {w : World}

/-! ### The silent parts -/

theorem silent_buildRunSnapshot {planfile : Option Planfile} :
    Silent (buildRunSnapshot P runId planfile) := by
  refine silent_bind (silent_perform rfl) fun events => ?_
  have hread : Silent (snapshotRun runId planfile) := by
    cases planfile with
    | some plan => exact Prog.obeys_done trivial
    | none => exact silent_perform rfl
  refine silent_bind hread fun run => ?_
  dsimp only
  split
  · exact Prog.obeys_done trivial
  · refine silent_bind (silent_perform rfl) fun planState => ?_
    refine silent_bind (silent_perform rfl) fun attempts => ?_
    exact silent_bind (silent_perform rfl) fun _ => Prog.obeys_done trivial

theorem silent_parsePlanfile {plan : Planfile} : Silent (parsePlanfile P plan) := by
  unfold parsePlanfile
  split
  · exact Prog.obeys_done trivial
  · exact Prog.obeys_fail

theorem silent_concludeRun {snapshot : Option RunSnapshot} : Silent (concludeRun runId snapshot) := by
  refine silent_bind (silent_perform rfl) fun latest => ?_
  split
  · refine silent_bind (silent_perform rfl) fun updatedAt => ?_
    exact silent_bind (silent_perform rfl) fun _ => Prog.obeys_done trivial
  · exact Prog.obeys_done trivial

theorem silent_executeRunCancellation {id : String} : Silent (executeRunCancellation P id) := by
  refine silent_bind (silent_perform rfl) fun found => ?_
  cases found with
  | none => exact Prog.obeys_done trivial
  | some continuation =>
      refine silent_bind (silent_perform rfl) fun latest => ?_
      cases latest with
      | none => exact Prog.obeys_done trivial
      | some record =>
          refine silent_bind (silent_perform rfl) fun now => ?_
          refine silent_bind (silent_perform rfl) fun _ => ?_
          refine silent_bind (silent_perform rfl) fun _ => ?_
          refine silent_bind (silent_perform rfl) fun _ => ?_
          exact silent_bind silent_parsePlanfile fun plan => silent_buildRunSnapshot

theorem silent_nowOr {now : Option String} : Silent (nowOr now) := by
  unfold nowOr
  split
  · exact Prog.obeys_done trivial
  · exact silent_perform rfl

theorem silent_trySubmit {task : Task} : Silent (trySubmit task) := by
  refine Prog.obeys_tryCatch ?_ fun _ => Prog.obeys_done trivial
  exact silent_bind (silent_perform rfl) fun _ => Prog.obeys_done trivial

theorem silent_handOver {continuation : RunContinuationRecord} {task : Task}
    {left : Program Unit} (hleft : Silent left) : Silent (handOver continuation task left) := by
  refine silent_bind silent_trySubmit fun submitted => ?_
  cases submitted with
  | some id =>
      refine silent_bind (silent_perform rfl) fun now => ?_
      exact silent_bind (silent_perform rfl) fun _ => Prog.obeys_done trivial
  | none => exact silent_bind hleft fun _ => Prog.obeys_done trivial

theorem silent_accepted {continuationId message : String} {hatchetRunId : Option String} :
    Silent (accepted P runId continuationId hatchetRunId message) :=
  silent_bind silent_buildRunSnapshot fun _ => Prog.obeys_done trivial

/-- Requesting a resume does not touch the plan state. -/
theorem silent_resumeRun {now : Option String} : Silent (resumeRun P runId now) := by
  refine silent_bind silent_nowOr fun t => ?_
  refine silent_bind (silent_perform rfl) fun found => ?_
  cases found with
  | none => exact Prog.obeys_done trivial
  | some record =>
      refine silent_bind (silent_perform rfl) fun _ => ?_
      exact silent_bind (silent_handOver (silent_perform rfl)) fun _ => silent_accepted

/-- Requesting a retry does not touch the plan state. -/
theorem silent_retryRunNode {nodeId replayMode : String} {now : Option String} :
    Silent (retryRunNode P runId nodeId replayMode now) := by
  unfold retryRunNode
  split
  · exact Prog.obeys_fail
  · refine silent_bind silent_nowOr fun t => ?_
    refine silent_bind (silent_perform rfl) fun found => ?_
    cases found with
    | none => exact Prog.obeys_done trivial
    | some record =>
        refine silent_bind silent_parsePlanfile fun plan => ?_
        split
        · exact Prog.obeys_done trivial
        · dsimp only
          split
          · refine silent_bind (silent_perform rfl) fun attempts => ?_
            refine silent_bind (silent_perform rfl) fun counted => ?_
            refine silent_bind (silent_perform rfl) fun _ => ?_
            refine silent_bind (silent_perform rfl) fun _ => ?_
            exact silent_bind (silent_handOver (silent_perform rfl)) fun _ => silent_accepted
          · exact Prog.obeys_done trivial

/-- Requesting a cancellation does not touch the plan state. -/
theorem silent_cancelRun {now : Option String} : Silent (cancelRun P runId now) := by
  refine silent_bind silent_nowOr fun t => ?_
  refine silent_bind (silent_perform rfl) fun found => ?_
  cases found with
  | none => exact Prog.obeys_done trivial
  | some record =>
      refine silent_bind (silent_perform rfl) fun _ => ?_
      refine silent_bind (silent_perform rfl) fun _ => ?_
      refine silent_bind (silent_perform rfl) fun _ => ?_
      refine silent_bind (silent_handOver ?_) fun _ => silent_accepted
      exact silent_bind silent_executeRunCancellation fun _ => Prog.obeys_done trivial

/-! ### What stays while a run is executed -/

/-- Everything is stored where it belongs, and the run is on record if it was. -/
structure Scope.Keeps (σ : Scope) (runId : String) (known : Prop) (w : World) : Prop where
  holds : σ.Holds w
  recorded : known → (w.executions runId).isSome = true

theorem recorded_serve (call : Call) {id : String} (h : (w.executions id).isSome = true) :
    ((serve P env call w).2.executions id).isSome = true := by
  cases call with
  | recordRunExecution record =>
      simp only [serve, World.setExecution]
      by_cases hid : id = record.runId
      · rw [hid, Function.update_self]
        rfl
      · rw [Function.update_of_ne hid]
        exact h
  | emitRunEvent listener planId body => cases listener <;> exact h
  | runCapabilityStep runId input => cases runId <;> exact h
  | flushArtifacts planId dir =>
      simp only [serve]
      split <;> exact h
  | _ => exact h

theorem keeps_recorded {known : Prop} :
    Prog.Keeps (handle P env) (Call.within σ runId) (Answer.within σ) (σ.Keeps runId known) where
  state call w hcall hw := by
    refine ⟨keeps_scope.state call w hcall hw.holds, fun hknown => ?_⟩
    have hworld : (handle P env call w).2 = (serve P env call w).2.next ∨
        (handle P env call w).2 = w.next := handle_world call w
    rcases hworld with h | h
    · rw [h]
      exact recorded_serve call (hw.recorded hknown)
    · rw [h]
      exact hw.recorded hknown
  answer call w a hcall hw ha := keeps_scope.answer call w a hcall hw.holds ha

/-- A silent part within the run is passed over. -/
theorem Silent.shows_within {α β : Type} {p : Program α} {f : α → Program β} {Q : α → Prop}
    {known : Prop} (hp : Silent p) (hp' : Within σ runId Q p) {planId : String}
    (hw : σ.Keeps runId known w)
    {post : Except String β → World → List (Seen String Value) → Prop}
    (herr : ∀ m w', w'.planStates = w.planStates → σ.Keeps runId known w' → post (.error m) w' [])
    (hok : ∀ a w', Q a → w'.planStates = w.planStates → σ.Keeps runId known w' →
      Prog.Shows (handle P env) (observe planId) (f a) w' post) :
    Prog.Shows (handle P env) (observe planId) (p.bind f) w post := by
  have hsilent : Prog.Shows (handle P env) (observe planId) p w fun _ w' seen =>
      seen = [] ∧ w'.planStates = w.planStates :=
    hp.shows fun _ _ h => ⟨rfl, h⟩
  refine Prog.shows_bind ((hsilent.keeping keeps_recorded hp' hw).mono ?_)
  rintro (m | a) w' seen ⟨⟨rfl, hplan⟩, hkeep, hQ⟩
  · exact herr m w' hplan hkeep
  · exact hok a w' (hQ a rfl) hplan hkeep

/-! ### Executions -/

/-- What an execution comes to when `stored` was the state of the plan: whether it
returned, the state left behind, and what was seen.  `known` says that the run is on
record. -/
inductive Executed (P : Platform) (env : Env) (plan : Planfile) (known : Prop)
    (stored : Option PlanState) :
    Bool → Option PlanState → List (Seen String Value) → Prop
  | skipped {ok} (h : ok = true → ¬ known) : Executed P env plan known stored ok stored []
  | unloaded {seen} (h : stored = none)
      (hseen : seen = [] ∨ ∃ now, seen = [.record (initialPlanState P plan now).phase]) :
      Executed P env plan known stored false none seen
  | ran {o pre start main state' m' ending extra final ok}
      (hopen : Opens P plan stored pre start) (hfits : state'.Fits plan)
      (hg : TaskGraph.Greedy plan.graph (nodeWork P env o plan) start.phase Outputs.empty main
        state'.phase m' ending)
      (hextra : extra = [] ∨ extra = [.record state'.phase])
      (hnodes : final.nodeStates = state'.nodeStates) (hid : final.planId = state'.planId)
      (hstatus : final.status = state'.status)
      (hok : ok = true → Ended start state' ending main) :
      Executed P env plan known stored ok (some final) (pre ++ main ++ extra)

/-- Whether a program returned. -/
def returned {α : Type} : Except String α → Bool
  | .ok _ => true
  | .error _ => false

/-- Publishing records the state of the run once more, with the artifacts. -/
theorem publishRun_shows {β : Type} {f : PlanState → Program β} {input : LiveRunInput}
    {state : PlanState} {planId : String} (hid : state.planId = planId)
    {post : Except String β → World → List (Seen String Value) → Prop}
    (herr : ∀ m w', w'.planStates = w.planStates → post (.error m) w' [])
    (herr' : ∀ m artifacts w', w'.planStates planId = w.planStates planId ∨
      w'.planStates planId = some (finishedState state artifacts input.now) →
      post (.error m) w' [.record state.phase])
    (hok : ∀ artifacts w', w'.planStates planId = some (finishedState state artifacts input.now) →
      Prog.Shows (handle P env) (observe planId) (f (finishedState state artifacts input.now)) w'
        fun out w'' seen => post out w'' (.record state.phase :: seen)) :
    Prog.Shows (handle P env) (observe planId) ((publishRun P input state).bind f) w post := by
  unfold publishRun
  simp only [Prog.bind_eq, Prog.bind_assoc]
  refine (silent_perform rfl).shows_bind herr fun artifacts w₁ hw₁ => ?_
  refine (silent_perform rfl).shows_bind (fun m w' hw' => herr m w' (hw'.trans hw₁)) fun _ w₂ hw₂ => ?_
  refine (silent_perform rfl).shows_bind (fun m w' hw' => herr m w' (hw'.trans (hw₂.trans hw₁)))
    fun _ w₃ hw₃ => ?_
  refine (silent_perform rfl).shows_bind
    (fun m w' hw' => herr m w' (hw'.trans (hw₃.trans (hw₂.trans hw₁)))) fun _ w₄ hw₄ => ?_
  have hfinal : (finishedState state artifacts input.now).planId = planId := hid
  refine shows_record hfinal ?_ ?_
  · intro m w' hw'
    rw [hw₄, hw₃, hw₂, hw₁] at hw'
    exact herr' m artifacts w' hw'
  · intro w' hw'
    exact hok artifacts w' hw'

variable {plan : Planfile} {known : Prop} {stored final : Option PlanState} {ok : Bool}
  {seen : List (Seen String Value)}

/-- An execution may still break off at its end. -/
theorem Executed.broken (h : Executed P env plan known stored ok final seen) :
    Executed P env plan known stored false final seen := by
  cases h with
  | skipped h => exact .skipped (by simp)
  | unloaded h hseen => exact .unloaded h hseen
  | ran hopen hfits hg hextra hnodes hid hstatus hok =>
      exact .ran hopen hfits hg hextra hnodes hid hstatus (by simp)

/-- What is on record may not have been. -/
theorem Executed.weaken (h : Executed P env plan True stored ok final seen) :
    Executed P env plan known stored ok final seen := by
  cases h with
  | skipped h => exact .skipped fun hok => absurd trivial (h hok)
  | unloaded h hseen => exact .unloaded h hseen
  | ran hopen hfits hg hextra hnodes hid hstatus hok =>
      exact .ran hopen hfits hg hextra hnodes hid hstatus hok

/-- **An execution of a plan is a run to completion, published.** -/
theorem executeLive_shows {input : LiveRunInput}
    (hplan : plan = withCanonicalPlanDigest P.sha256 input.plan) (hfits : w.Fits plan) :
    Prog.Shows (handle P env) (observe plan.planId) (executeLiveLocalPlanfile P input) w
      fun out w' seen => Executed P env plan True (w.planStates plan.planId) (returned out)
        (w'.planStates plan.planId) seen := by
  unfold executeLiveLocalPlanfile
  dsimp only
  split
  · refine (silent_perform rfl).shows_bind ?_ fun expiresAt w₁ hw₁ => ?_
    · intro m w' hw'
      rw [hw']
      exact .skipped (by simp [returned])
    rw [← hw₁]
    have hfits₁ : w₁.Fits plan := by
      intro state hstate
      exact hfits state (hw₁ ▸ hstate)
    cases hacc : accept P (liveRunnerOptions P input expiresAt) input.plan with
    | error message =>
        unfold runToCompletion
        rw [hacc]
        exact Prog.shows_fail (.skipped (by simp [returned]))
    | ok accepted =>
        have haccepted : accepted = plan := by
          rw [hplan]
          exact (accept_ok hacc).1
        rw [haccepted] at hacc
        refine Prog.shows_bind ((runToCompletion_shows hacc hfits₁).mono ?_)
        rintro (m | r) w₂ seen hend
        · cases hend with
          | unloaded hstored hw hseen =>
              rw [hw]
              exact .unloaded hstored hseen
          | @ran pre start main out w' state' m' ending hopen hw hfits' hg hout =>
              have hran : Executed P env plan True (w₁.planStates plan.planId) false (some state')
                  (pre ++ main ++ []) :=
                .ran hopen hfits' hg (Or.inl rfl) rfl rfl rfl (by simp)
              rw [hw]
              simpa [returned] using hran
        · cases hend with
          | @ran pre start main out w' state' m' ending hopen hw hfits' hg hout =>
              obtain ⟨rfl, -, htold⟩ := hout r rfl
              have hran : ∀ extra final ok,
                  (extra = [] ∨ extra = [.record r.state.phase]) →
                  (final = r.state ∨ ∃ artifacts, final = finishedState r.state artifacts input.now) →
                  Executed P env plan True (w₁.planStates plan.planId) ok (some final)
                    (pre ++ main ++ extra) := by
                intro extra final ok hextra hfinal
                rcases hfinal with rfl | ⟨artifacts, rfl⟩
                · exact .ran hopen hfits' hg hextra rfl rfl rfl fun _ => htold
                · exact .ran hopen hfits' hg hextra rfl rfl rfl fun _ => htold
              have hpublish : Prog.Shows (handle P env) (observe plan.planId)
                  ((publishRun P input r.state).bind .done) w₂ fun out w' seen =>
                    Executed P env plan True (w₁.planStates plan.planId) (returned out)
                      (w'.planStates plan.planId) (pre ++ main ++ seen) := by
                refine publishRun_shows hfits'.planId ?_ ?_ ?_
                · intro m w' hw'
                  rw [hw', hw]
                  exact hran [] _ _ (Or.inl rfl) (Or.inl rfl)
                · intro m artifacts w' hw'
                  rcases hw' with hw' | hw'
                  · rw [hw', hw]
                    exact hran _ _ _ (Or.inr rfl) (Or.inl rfl)
                  · rw [hw']
                    exact hran _ _ _ (Or.inr rfl) (Or.inr ⟨_, rfl⟩)
                · intro artifacts w' hw'
                  refine Prog.shows_done ?_
                  rw [hw']
                  exact hran _ _ _ (Or.inr rfl) (Or.inr ⟨_, rfl⟩)
              rw [Prog.bind_done] at hpublish
              exact hpublish
  · exact Prog.shows_fail (.skipped (by simp [returned]))

/-- The Planfiles of the scope's run. -/
def Scope.Executes (σ : Scope) (runId : String) (planfile : Planfile) : Prop :=
  ∀ p, σ.planfile runId p → p = planfile

variable {planfile : Planfile}

/-- Executing a recorded run executes its plan. -/
theorem executeRecordedRun_shows {record : RunExecutionRecord}
    (hplan : plan = withCanonicalPlanDigest P.sha256 record.planfile) (hfits : w.Fits plan) :
    Prog.Shows (handle P env) (observe plan.planId) (executeRecordedRun P runId record) w
      fun out w' seen => Executed P env plan True (w.planStates plan.planId) (returned out)
        (w'.planStates plan.planId) seen := by
  have hskip : ∀ {α : Type} m (w' : World), w'.planStates = w.planStates →
      Executed P env plan True (w.planStates plan.planId) (returned (.error m : Except String α))
        (w'.planStates plan.planId) [] := by
    intro α m w' hw'
    rw [hw']
    exact .skipped (by simp [returned])
  unfold executeRecordedRun
  simp only [Prog.bind_eq, Prog.pure_eq]
  refine (silent_perform rfl).shows_bind (hskip ·) fun startedAt w₁ hw₁ => ?_
  refine (silent_perform rfl).shows_bind (fun m w' hw' => hskip m w' (hw'.trans hw₁))
    fun updatedAt w₂ hw₂ => ?_
  refine (silent_perform rfl).shows_bind
    (fun m w' hw' => hskip m w' (hw'.trans (hw₂.trans hw₁))) fun _ w₃ hw₃ => ?_
  have hw₃' : w₃.planStates = w.planStates := hw₃.trans (hw₂.trans hw₁)
  unfold parsePlanfile
  split
  · rw [Prog.pure_eq, Prog.done_bind]
    refine (silent_perform rfl).shows_bind (fun m w' hw' => hskip m w' (hw'.trans hw₃'))
      fun now w₄ hw₄ => ?_
    have hw₄' : w₄.planStates = w.planStates := hw₄.trans hw₃'
    have hfits₄ : w₄.Fits plan := by
      intro state hstate
      exact hfits state (hw₄' ▸ hstate)
    rw [← hw₄']
    refine Prog.shows_bind ((executeLive_shows hplan hfits₄).mono ?_)
    rintro (m | final) w₅ seen hexec
    · exact hexec
    · -- What follows is silent, and may only turn the end into a throw.
      have hrest : Silent ((buildRunSnapshot P runId (some record.planfile)).bind fun snapshot =>
          (concludeRun runId snapshot).bind fun _ => Prog.done snapshot) :=
        silent_bind silent_buildRunSnapshot fun snapshot =>
          silent_bind silent_concludeRun fun _ => Prog.obeys_done trivial
      refine hrest.shows fun out w' hw' => ?_
      rw [List.append_nil, hw']
      cases out with
      | error m => exact hexec.broken
      | ok snapshot => exact hexec
  · exact Prog.shows_fail (hskip _ _ hw₃')

/-- **Executing a run executes its plan**, if the run is on record. -/
theorem executeStoredRun_shows (hexec : σ.Executes runId planfile)
    (hplan : plan = withCanonicalPlanDigest P.sha256 planfile) {known : Prop}
    (hw : σ.Keeps runId known w) (hfits : w.Fits plan) :
    Prog.Shows (handle P env) (observe plan.planId) (executeStoredRun P runId) w
      fun out w' seen => Executed P env plan known (w.planStates plan.planId) (returned out)
        (w'.planStates plan.planId) seen := by
  have hkept : (handle P env (.getRunExecution runId) w).2.planStates = w.planStates :=
    handle_planStates _ _ (by simp)
  refine Prog.shows_bind (Prog.shows_perform ?_)
  cases hout : (handle P env (.getRunExecution runId) w).1 with
  | error m =>
      dsimp only
      rw [hkept]
      exact .skipped (by simp [returned])
  | ok found =>
      obtain ⟨hserved, hworld⟩ := handle_ok hout
      have hfound : found = w.executions runId := (Except.ok.inj hserved).symm
      dsimp only
      cases hrec : found with
      | none =>
          refine Prog.shows_done ?_
          rw [hkept]
          refine .skipped fun _ hknown => ?_
          have hsome := hw.recorded hknown
          rw [← hfound, hrec] at hsome
          cases hsome
      | some record =>
          have hrecord : σ.Record runId record := hw.holds.executions runId record (by rw [← hfound, hrec])
          have hfile : record.planfile = planfile := hexec _ hrecord.planfile
          have hfits' : (handle P env (.getRunExecution runId) w).2.Fits plan := by
            intro state hstate
            exact hfits state (hkept ▸ hstate)
          rw [← hkept]
          refine (executeRecordedRun_shows (by rw [hplan, hfile]) hfits').mono ?_
          intro out w' seen h
          exact h.weaken

/-! ### Creations -/

/-- What creating a run comes to when `stored` was the state of its plan: nothing, or the
plan starts over. -/
inductive Created (P : Platform) (plan : Planfile) (stored : Option PlanState) :
    Option PlanState → List (Seen String Value) → Prop
  | unrecorded : Created P plan stored stored []
  | recorded {now final}
      (h : final = stored ∨ final = some (initialPlanState P plan now)) :
      Created P plan stored final [.record (initialPlanState P plan now).phase]

/-- Recording the state a plan starts from, with silent work after it. -/
theorem recordInitial_shows {α : Type} {f : PlanState → Program α} {now : String}
    (hf : ∀ recorded, Silent (f recorded)) :
    Prog.Shows (handle P env) (observe plan.planId)
      ((perform (.recordPlanState (initialPlanState P plan now))).bind f) w
      fun _ w' seen => Created P plan (w.planStates plan.planId) (w'.planStates plan.planId) seen := by
  have hid : (initialPlanState P plan now).planId = plan.planId := rfl
  refine shows_record hid ?_ ?_
  · intro m w' hw'
    exact .recorded hw'
  · intro w₁ hw₁
    refine (hf _).shows fun out w' hw' => ?_
    rw [hw', hw₁]
    exact .recorded (Or.inr rfl)

theorem silent_recordCanonicalRun {outputDir : Option String} {now : String} :
    Silent (recordCanonicalRun runId plan outputDir now) := silent_perform rfl

theorem silent_startRun {record : RunExecutionRecord} : Silent (startRun record) := by
  refine silent_bind silent_trySubmit fun submitted => ?_
  cases submitted with
  | some id =>
      refine silent_bind (silent_perform rfl) fun _ => silent_bind (silent_perform rfl) fun _ => ?_
      exact silent_bind (silent_perform rfl) fun _ => Prog.obeys_done trivial
  | none => exact silent_perform rfl

theorem shows_nowOr {β : Type} {now : Option String} {f : String → Program β} {planId : String}
    {post : Except String β → World → List (Seen String Value) → Prop}
    (hok : ∀ t w', now = none ∨ now = some t → w'.planStates = w.planStates →
      Prog.Shows (handle P env) (observe planId) (f t) w' post) :
    Prog.Shows (handle P env) (observe planId) ((nowOr now).bind f) w post := by
  unfold nowOr
  cases now with
  | some now => exact hok now w (Or.inr rfl) rfl
  | none => exact hok (env.clock w.tick) w.next (Or.inl rfl) rfl

theorem createRunState_shows {input : ApplyPlanfileInput} {now : String}
    (h : requestedPlan P input.planfile input.live now = .done plan) {α : Type}
    {f : PlanState → Program α} (hf : ∀ state, Silent (f state)) :
    Prog.Shows (handle P env) (observe plan.planId)
      ((createRunState P plan input runId now).bind f) w
      fun _ w' seen => Created P plan (w.planStates plan.planId) (w'.planStates plan.planId) seen := by
  unfold createRunState
  split
  · unfold prepareRunState
    dsimp only
    split
    · simp only [Prog.bind_eq, Prog.bind_assoc]
      refine recordInitial_shows fun recorded => silent_bind (silent_perform rfl) fun _ => ?_
      show Silent ((recordCanonicalRun runId plan input.outputDir now).bind _)
      refine silent_bind silent_recordCanonicalRun fun record => ?_
      exact silent_bind silent_startRun fun _ => hf _
    · exact Prog.shows_fail .unrecorded
  · rename_i hlive
    show Prog.Shows _ _ (((requestedPlan P plan input.live now).bind _).bind f) w _
    rcases requestedPlan_cases P plan input.live now with ⟨again, hagain⟩ | ⟨message, hfail⟩
    · rw [hagain, Prog.done_bind, requestedPlan_again hlive h hagain, if_neg hlive]
      unfold recordPlannedRun
      dsimp only
      split
      · simp only [Prog.bind_eq, Prog.bind_assoc]
        refine recordInitial_shows fun recorded => ?_
        refine silent_bind silent_recordCanonicalRun fun record => ?_
        exact silent_bind (silent_perform rfl) fun _ => hf _
      · exact Prog.shows_fail .unrecorded
    · rw [hfail]
      exact Prog.shows_fail .unrecorded

/-- **Creating a run starts its plan over.** -/
theorem createRunFromPlanfile_shows {input : ApplyPlanfileInput} (h : σ.Creates P runId input)
    (hexec : σ.Executes runId planfile) :
    Prog.Shows (handle P env) (observe planfile.planId) (createRunFromPlanfile P input) w
      fun _ w' seen => Created P planfile (w.planStates planfile.planId)
        (w'.planStates planfile.planId) seen := by
  refine shows_nowOr fun t w₁ ht hw₁ => ?_
  rw [← hw₁]
  show Prog.Shows _ _ ((requestedPlan P input.planfile input.live t).bind _) w₁ _
  rcases requestedPlan_cases P input.planfile input.live t with ⟨plan, hplan⟩ | ⟨message, hfail⟩
  · obtain rfl : plan = planfile := hexec _ (h t plan ht hplan).2
    rw [hplan, Prog.done_bind]
    refine createRunState_shows hplan fun state => ?_
    refine silent_bind silent_buildRunSnapshot fun snapshot => ?_
    cases snapshot with
    | none => exact Prog.obeys_fail
    | some snapshot => exact Prog.obeys_done trivial
  · rw [hfail]
    exact Prog.shows_fail .unrecorded

/-! ### Continuations -/

/-- What a continuation makes of the stored state before it executes the run. -/
inductive Resets (planfile : Planfile) (continuation : RunContinuationRecord)
    (stored : Option PlanState) : Option PlanState → List (Seen String Value) → Prop
  | absent (h : stored = none) : Resets planfile continuation stored none []
  | reset {state now} (h : stored = some state) :
      Resets planfile continuation stored (some (continuedState planfile state continuation now))
        [.record (continuedState planfile state continuation now).phase]

/-- What a continuation comes to when `stored` was the state of the plan. -/
inductive Continued (P : Platform) (env : Env) (planfile : Planfile)
    (continuation : RunContinuationRecord) (stored : Option PlanState) :
    Bool → Option PlanState → List (Seen String Value) → Prop
  | stopped : Continued P env planfile continuation stored false stored []
  | unreset {state now} (h : stored = some state) :
      Continued P env planfile continuation stored false stored
        [.record (continuedState planfile state continuation now).phase]
  | executed {reset pre main final ok}
      (hreset : Resets planfile continuation stored reset pre)
      (hexec : Executed P env (withCanonicalPlanDigest P.sha256 planfile) True reset ok final main) :
      Continued P env planfile continuation stored ok final (pre ++ main)

variable {continuation : RunContinuationRecord}

theorem continuedState_fits {state : PlanState} {now : String} (h : state.Fits plan) :
    (continuedState planfile state continuation now).Fits plan := by
  refine ⟨?_, h.planId⟩
  rw [← h.ids]
  exact ids_update rfl fun _ => rfl

theorem fits_withDigest {state : PlanState} :
    state.Fits (withCanonicalPlanDigest P.sha256 planfile) ↔ state.Fits planfile :=
  ⟨fun h => ⟨h.ids, h.planId⟩, fun h => ⟨h.ids, h.planId⟩⟩

/-- How resetting the stored state ends. -/
def ResetEnd (planfile : Planfile) (continuation : RunContinuationRecord)
    (stored final : Option PlanState) (seen : List (Seen String Value)) : Except String Unit → Prop
  | .ok _ => Resets planfile continuation stored final seen
  | .error _ => Resets planfile continuation stored final seen ∨ final = stored ∧
      (seen = [] ∨ ∃ state now, stored = some state ∧
        seen = [.record (continuedState planfile state continuation now).phase])

/-- Resetting is seen if there is a state to reset. -/
theorem resetStoredState_shows (hfits : w.Fits planfile) :
    Prog.Shows (handle P env) (observe planfile.planId) (resetStoredState planfile continuation) w
      fun out w' seen => ResetEnd planfile continuation (w.planStates planfile.planId)
        (w'.planStates planfile.planId) seen out := by
  have hkept : (handle P env (.getPlanState planfile.planId) w).2.planStates = w.planStates :=
    handle_planStates _ _ (by simp)
  refine Prog.shows_bind (Prog.shows_perform ?_)
  cases hout : (handle P env (.getPlanState planfile.planId) w).1 with
  | error m =>
      dsimp only
      rw [hkept]
      exact Or.inr ⟨rfl, Or.inl rfl⟩
  | ok found =>
      have hserved := (handle_ok hout).1
      have hfound : found = w.planStates planfile.planId := (Except.ok.inj hserved).symm
      dsimp only
      cases hstored : found with
      | none =>
          refine Prog.shows_done ?_
          rw [hkept, ← hfound, hstored]
          exact .absent rfl
      | some state =>
          rw [hstored] at hfound
          have hid : ∀ now, (continuedState planfile state continuation now).planId
              = planfile.planId := fun _ => (hfits state hfound.symm).planId
          refine (silent_perform rfl).shows_bind ?_ fun now w₁ hw₁ => ?_
          · intro m w' hw'
            rw [hw', hkept]
            exact Or.inr ⟨rfl, Or.inl rfl⟩
          · refine shows_record (hid now) ?_ ?_
            · intro m w' hw'
              rw [hw₁, hkept] at hw'
              rcases hw' with hw' | hw'
              · rw [hw']
                exact Or.inr ⟨rfl, Or.inr ⟨state, now, hfound.symm, rfl⟩⟩
              · rw [hw']
                exact Or.inl (.reset hfound.symm)
            · intro w' hw'
              refine Prog.shows_done ?_
              rw [hw']
              exact .reset hfound.symm

/-- What was kept of a fitting state by a reset fits. -/
theorem Resets.fits {stored reset : Option PlanState} {pre : List (Seen String Value)}
    (h : Resets planfile continuation stored reset pre)
    (hstored : ∀ state, stored = some state → state.Fits planfile) :
    ∀ state, reset = some state → state.Fits planfile := by
  cases h with
  | absent h => simp
  | reset h =>
      rintro _ ⟨⟩
      exact continuedState_fits (hstored _ h)

/-- **A continuation resets the plan state and executes the run again.** -/
theorem continueRun_shows (hexec : σ.Executes runId planfile)
    (hid : σ.ownerOf continuation.continuationId = runId) (hrun : continuation.runId = runId)
    (hkind : σ.kind continuation.continuationId continuation.kind)
    (hp : planfile.planId = σ.planOf runId) (hw : σ.Keeps runId True w) (hfits : w.Fits planfile) :
    Prog.Shows (handle P env) (observe planfile.planId) (continueRun P continuation planfile) w
      fun out w' seen => Continued P env planfile continuation (w.planStates planfile.planId)
        (returned out) (w'.planStates planfile.planId) seen := by
  have hreset : Prog.Shows (handle P env) (observe planfile.planId)
      (resetStoredState planfile continuation) w fun out w' seen =>
        ResetEnd planfile continuation (w.planStates planfile.planId)
          (w'.planStates planfile.planId) seen out := resetStoredState_shows hfits
  refine Prog.shows_bind ((hreset.keeping keeps_recorded (within_resetStoredState hp) hw).mono ?_)
  rintro (m | ⟨⟩) w₁ pre ⟨hend, hw₁, -⟩
  · rcases hend with hend | ⟨hfinal, hseen⟩
    · have hrun' : Continued P env planfile continuation (w.planStates planfile.planId) false
          (w₁.planStates planfile.planId) (pre ++ []) := .executed hend (.skipped (by simp))
      simpa [returned] using hrun'
    · dsimp only
      rw [hfinal]
      rcases hseen with rfl | ⟨state, now, hstored, rfl⟩
      · exact .stopped
      · exact .unreset hstored
  · have hreset' : Resets planfile continuation (w.planStates planfile.planId)
        (w₁.planStates planfile.planId) pre := hend
    have hskip : ∀ {α : Type} m (w' : World), w'.planStates = w₁.planStates →
        Continued P env planfile continuation (w.planStates planfile.planId)
          (returned (.error m : Except String α)) (w'.planStates planfile.planId) (pre ++ []) := by
      intro α m w' hw'
      rw [hw']
      exact .executed hreset' (.skipped (by simp [returned]))
    dsimp only
    refine Silent.shows_within (silent_perform rfl) within_clock hw₁ ?_ ?_
    · intro m w' hw' _
      exact hskip m w' hw'
    intro now w₂ _ hw₂ hkeep₂
    have hupdate : Within σ runId (fun _ => True) (perform (.recordRunContinuation
        { continuation with status := .running, updatedAt := now })) :=
      within_recordRunContinuation hid hrun hkind
    refine Silent.shows_within (silent_perform rfl) hupdate hkeep₂ ?_ ?_
    · intro m w' hw' _
      exact hskip m w' (hw'.trans hw₂)
    intro _ w₃ _ hw₃ hkeep₃
    have hw₃' : w₃.planStates = w₁.planStates := hw₃.trans hw₂
    have hfits₃ : w₃.Fits (withCanonicalPlanDigest P.sha256 planfile) := by
      intro state hstate
      have hstate' : w₁.planStates planfile.planId = some state := hw₃' ▸ hstate
      exact fits_withDigest.mpr (hreset'.fits hfits state hstate')
    rw [hrun]
    refine Prog.shows_bind ((executeStoredRun_shows hexec rfl hkeep₃ hfits₃).mono ?_)
    intro out w₄ seen hexec'
    rw [show w₃.planStates _ = _ from congrFun hw₃' _] at hexec'
    cases out with
    | error m => exact .executed hreset' hexec'
    | ok snapshot =>
        refine (silent_perform rfl).shows_bind ?_ fun now' w₅ hw₅ => ?_
        · intro m w' hw'
          rw [hw', List.append_nil]
          exact .executed hreset' hexec'.broken
        refine (silent_perform rfl).shows_bind ?_ fun _ w₆ hw₆ => ?_
        · intro m w' hw'
          rw [hw', hw₅, List.append_nil]
          exact .executed hreset' hexec'.broken
        refine Prog.shows_done ?_
        rw [hw₆, hw₅, List.append_nil]
        exact .executed hreset' hexec'

/-- What executing the continuation `id` comes to, from the world `w`. -/
inductive Resumed (P : Platform) (env : Env) (planfile : Planfile) (w : World) (id : String) :
    Bool → Option PlanState → List (Seen String Value) → Prop
  | nothing {okay}
      (h : okay = true → ∀ c, w.continuations id = some c → c.kind ≠ .cancel →
        w.executions c.runId = none) :
      Resumed P env planfile w id okay (w.planStates planfile.planId) []
  | continued {c okay left shown} (hid : w.continuations id = some c) (hkind : c.kind ≠ .cancel)
      (h : Continued P env planfile c (w.planStates planfile.planId) okay left shown) :
      Resumed P env planfile w id okay left shown

/-- A silent program that may return only where nothing is to be continued. -/
theorem Silent.resumed {α : Type} {p : Program α} (hp : Silent p) {id : String} {w₀ : World}
    (hw : w.planStates = w₀.planStates)
    (h : ∀ continuation, w₀.continuations id = some continuation → continuation.kind ≠ .cancel →
      w₀.executions continuation.runId = none) :
    Prog.Shows (handle P env) (observe planfile.planId) p w fun out w' seen =>
      Resumed P env planfile w₀ id (returned out) (w'.planStates planfile.planId) seen := by
  refine hp.shows fun out w' hw' => ?_
  rw [hw', hw]
  exact .nothing fun _ => h

/-- **Executing a stored continuation continues its run.** -/
theorem executeRunContinuation_shows {id : String} (hexec : σ.Executes runId planfile)
    (hid : σ.ownerOf id = runId) (hp : planfile.planId = σ.planOf runId) (hw : σ.Holds w)
    (hfits : w.Fits planfile) :
    Prog.Shows (handle P env) (observe planfile.planId) (executeRunContinuation P id) w
      fun out w' seen => Resumed P env planfile w id (returned out)
        (w'.planStates planfile.planId) seen := by
  have hkept : (handle P env (.getRunContinuation id) w).2.planStates = w.planStates :=
    handle_planStates _ _ (by simp)
  have hnothing : ∀ {α : Type} m (w' : World), w'.planStates = w.planStates →
      Resumed P env planfile w id (returned (.error m : Except String α))
        (w'.planStates planfile.planId) [] := by
    intro α m w' hw'
    rw [hw']
    exact .nothing (by simp [returned])
  refine Prog.shows_bind (Prog.shows_perform ?_)
  cases hout : (handle P env (.getRunContinuation id) w).1 with
  | error m => exact hnothing m _ hkept
  | ok found =>
      obtain ⟨hserved, hworld⟩ := handle_ok hout
      have hfound : w.continuations id = found := Except.ok.inj hserved
      dsimp only
      cases found with
      | none =>
          refine Prog.shows_done ?_
          rw [hkept]
          refine .nothing fun _ continuation hcont => ?_
          rw [hfound] at hcont
          cases hcont
      | some continuation =>
          obtain ⟨hcid, hrun, hckind⟩ := hw.continuations id continuation hfound
          rw [hid] at hrun
          rw [hworld]
          have hw₁ : σ.Holds (serve P env (.getRunContinuation id) w).2.next := hw.next
          have hkept₂ : (handle P env (.getRunExecution continuation.runId)
              (serve P env (.getRunContinuation id) w).2.next).2.planStates = w.planStates :=
            handle_planStates _ _ (by simp)
          refine Prog.shows_bind (Prog.shows_perform ?_)
          cases hout₂ : (handle P env (.getRunExecution continuation.runId)
              (serve P env (.getRunContinuation id) w).2.next).1 with
          | error m => exact hnothing m _ hkept₂
          | ok latest =>
              obtain ⟨hserved₂, hworld₂⟩ := handle_ok hout₂
              have hlatest : w.executions continuation.runId = latest := Except.ok.inj hserved₂
              dsimp only
              cases latest with
              | none =>
                  refine Prog.shows_done ?_
                  rw [hkept₂]
                  refine .nothing fun _ other hother _ => ?_
                  rw [hfound] at hother
                  cases hother
                  exact hlatest
              | some record =>
                  dsimp only
                  split
                  · rename_i hcancel
                    refine silent_executeRunCancellation.resumed hkept₂ ?_
                    intro other hother hkind
                    rw [hfound] at hother
                    cases hother
                    exact absurd hcancel hkind
                  · rename_i hkind
                    have hrecord : σ.Record runId record :=
                      hw.executions runId record (by rw [← hrun]; exact hlatest)
                    have hfile : record.planfile = planfile := hexec _ hrecord.planfile
                    rw [hfile]
                    unfold parsePlanfile
                    split
                    · rw [hworld₂]
                      have hw₂ : σ.Keeps runId True (serve P env
                          (.getRunExecution continuation.runId)
                          (serve P env (.getRunContinuation id) w).2.next).2.next := by
                        refine ⟨hw.next.next, fun _ => ?_⟩
                        show (w.executions runId).isSome = true
                        rw [← hrun, hlatest]
                        rfl
                      refine (continueRun_shows hexec ?_ hrun ?_ hp hw₂ hfits).mono ?_
                      · rw [hcid]
                        exact hid
                      · rw [hcid]
                        exact hckind
                      · intro out w' seen hcont
                        exact .continued hfound hkind hcont
                    · exact Prog.shows_fail (hnothing _ _ hkept₂)

end OpenLagrange
