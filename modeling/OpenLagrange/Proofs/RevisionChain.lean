/-
How the digests in the history of a session chain.

A revision that installs a plan records the digest of the plan as it was submitted; what the
session then holds is that plan with its lifecycle section filled in, and the section is
part of what is hashed.  The two digests agree when the submitted plan already names the
session and its assumptions, and the chain of a run of such edits is unbroken.

The last result is about submitting the page of the plan the session holds.
-/
import OpenLagrange.Proofs.CanonicalPlan
import OpenLagrange.Proofs.SafeEdits

namespace OpenLagrange

namespace EditablePlanfile

variable {E : EditPlatform} {session session' : PlanBuilderSession} {current next : Planfile}
  {input : UpdateBuilderPlanfileInput} {now : String} {report : PlanfileUpdateReport}

/-! ### Chains -/

/-- Revisions that lead from one digest to another: each begins at the digest held before it, and
one that was not rejected ends at the digest it records. -/
inductive Chain : String → List PlanfileRevision → String → Prop where
  | nil (digest : String) : Chain digest [] digest
  | kept {digest last : String} {revision : PlanfileRevision} {rest : List PlanfileRevision}
      (hprevious : revision.previousDigest = some digest) (hrejected : revision.status = .rejected)
      (hrest : Chain digest rest last) : Chain digest (revision :: rest) last
  | moved {digest new last : String} {revision : PlanfileRevision} {rest : List PlanfileRevision}
      (hprevious : revision.previousDigest = some digest) (haccepted : revision.status ≠ .rejected)
      (hnew : revision.newDigest = some new) (hrest : Chain new rest last) :
      Chain digest (revision :: rest) last

theorem Chain.append {first second third : String} {front back : List PlanfileRevision}
    (hfront : Chain first front second) (hback : Chain second back third) :
    Chain first (front ++ back) third := by
  induction hfront with
  | nil _ => exact hback
  | kept hprevious hrejected _ ih => exact .kept hprevious hrejected (ih hback)
  | moved hprevious haccepted hnew _ ih => exact .moved hprevious haccepted hnew (ih hback)

theorem Chain.rejected_only {first last : String} {between rest : List PlanfileRevision}
    {revision : PlanfileRevision} (h : Chain first (between ++ revision :: rest) last)
    (hbetween : ∀ r ∈ between, r.status = .rejected) : revision.previousDigest = some first := by
  induction between generalizing first with
  | nil =>
      cases h with
      | kept hprevious _ _ => exact hprevious
      | moved hprevious _ _ _ => exact hprevious
  | cons r between ih =>
      have hr := hbetween r List.mem_cons_self
      cases h with
      | kept _ _ hrest => exact ih hrest fun r' hr' => hbetween r' (List.mem_cons_of_mem _ hr')
      | moved _ haccepted _ _ => exact absurd hr haccepted

theorem Chain.single {first last : String} {revision : PlanfileRevision}
    (h : Chain first [revision] last) (hkept : revision.status ≠ .rejected) :
    revision.newDigest = some last := by
  cases h with
  | kept _ hrejected _ => exact absurd hrejected hkept
  | moved _ _ hnew hrest =>
      cases hrest
      exact hnew

/-- **Consecutive accepted revisions are linked.** -/
theorem Chain.linked {first last : String} {before between after : List PlanfileRevision}
    {earlier later : PlanfileRevision}
    (h : Chain first (before ++ earlier :: (between ++ later :: after)) last)
    (hearlier : earlier.status ≠ .rejected) (hbetween : ∀ r ∈ between, r.status = .rejected) :
    later.previousDigest = earlier.newDigest := by
  induction before generalizing first with
  | nil =>
      cases h with
      | kept _ hrejected _ => exact absurd hrejected hearlier
      | moved _ _ hnew hrest =>
          rw [hnew]
          exact hrest.rejected_only hbetween
  | cons r before ih =>
      cases h with
      | kept _ _ hrest => exact ih hrest
      | moved _ _ _ hrest => exact ih hrest

/-! ### One submission -/

/-- The plan already names the session, and the assumptions of its goal. -/
def LifecycleSettled (sessionId : String) (plan : Planfile) : Prop :=
  ∃ kept, plan.lifecycle = some kept ∧ kept.builderSessionId = some sessionId ∧
    kept.assumptions = some plan.goalFrame.assumptions

/-- The session keeps a settled plan under the digest it was submitted with. -/
theorem lifecycle_digest {sessionId : String} {validationOk : Bool} {simulation : PlanSimulationStatus}
    {status : PlanBuilderStatus} (h : LifecycleSettled sessionId next) :
    canonicalPlanDigest E.sha256 (lifecycle E next sessionId now validationOk simulation status) =
      canonicalPlanDigest E.sha256 next := by
  obtain ⟨⟨builder, questions, assumptions, validated, simulated⟩, hlifecycle, hid, hassumptions⟩ := h
  subst hid
  subst hassumptions
  unfold canonicalPlanDigest
  congr 1
  unfold canonicalPlanObject
  rw [hlifecycle]
  simp [lifecycle, withLifecycle, withCanonicalPlanDigest, hlifecycle]

/-- The digest in a plan is not hashed. -/
theorem canonicalPlanDigest_installed (sha256 : String → String) (p : Planfile) :
    canonicalPlanDigest sha256 (withCanonicalPlanDigest sha256 p) = canonicalPlanDigest sha256 p := rfl

theorem submission_keeps_id (h : Submission E session current input now report session') :
    session'.sessionId = session.sessionId := by
  cases h <;> rfl

theorem revision_not_rejected {j : Judgement} {artifactRefs : List String} (h : j.accepted = true) :
    (updateRevision E session input current next j now artifactRefs).status ≠ .rejected := by
  show (if j.accepted then _ else _) ≠ _
  rw [h]
  show (if j.builderStatus session = .needsInput then PlanfileRevisionStatus.needsInput
    else .accepted) ≠ _
  split <;> exact nofun

/-- An accepted plan is the one that the session holds, with its lifecycle filled in. -/
theorem installs_of_accepted (h : Submission E session current input now report session')
    (hparse : parseMarkdown E input.markdown = .ok next)
    (haccepted : (judged E current next input now).accepted = true) :
    ∃ validationOk simulation status revision,
      session'.currentPlanfile = some (lifecycle E next session.sessionId now validationOk simulation status) ∧
      session'.planfileRevisionHistory = session.planfileRevisionHistory ++ [revision] ∧
      revision.status ≠ .rejected ∧ revision.newDigest = some (canonicalPlanDigest E.sha256 next) := by
  cases h with
  | unparsed message artifactRefs herror =>
      rw [hparse] at herror
      cases herror
  | refused next' artifactRefs hparse' hrefused =>
      rw [hparse] at hparse'
      cases hparse'
      rw [haccepted] at hrefused
      cases hrefused
  | installs next' simulation artifactRefs hparse' _ hsimulation hdiffed hrecorded =>
      rw [hparse] at hparse'
      cases hparse'
      exact ⟨_, _, _, _, rfl, rfl, revision_not_rejected haccepted, rfl⟩

/-- A plan the submission would install is settled. -/
def SettledEdit (E : EditPlatform) (session : PlanBuilderSession) (current : Planfile)
    (input : UpdateBuilderPlanfileInput) (now : String) : Prop :=
  ∀ next, parseMarkdown E input.markdown = .ok next → Acceptable E current next input now →
    LifecycleSettled session.sessionId next

/-- **One submission adds one link.** -/
theorem submission_chain (hsha : ∀ text, isSha256Hex (E.sha256 text) = true)
    (h : Submission E session current input now report session')
    (hcurrent : session.currentPlanfile = some current)
    (hsettled : SettledEdit E session current input now) :
    ∃ plan revision, session'.currentPlanfile = some plan ∧
      session'.planfileRevisionHistory = session.planfileRevisionHistory ++ [revision] ∧
      Chain (canonicalPlanDigest E.sha256 current) [revision] (canonicalPlanDigest E.sha256 plan) := by
  have hprevious : previousDigest E current = canonicalPlanDigest E.sha256 current := rfl
  cases h with
  | unparsed message artifactRefs hparse =>
      exact ⟨current, _, hcurrent, rfl, .kept (congrArg some hprevious) rfl (.nil _)⟩
  | refused next artifactRefs hparse haccepted =>
      refine ⟨current, _, hcurrent, rfl, .kept (congrArg some hprevious) ?_ (.nil _)⟩
      show (if (judged E current next input now).accepted then _ else _) = _
      rw [haccepted]
      rfl
  | installs next simulation artifactRefs hparse haccepted hsimulation hdiffed hrecorded =>
      have hnext := hsettled next hparse ((accepted_iff (parse_refined hsha hparse)).mp haccepted)
      refine ⟨_, _, rfl, rfl, .moved (congrArg some hprevious) (revision_not_rejected haccepted) rfl ?_⟩
      rw [lifecycle_digest hnext]
      exact .nil _

/-! ### Runs of submissions -/

/-- A document that is submitted, and when. -/
abbrev Edit := UpdateBuilderPlanfileInput × String

/-- The session files after submitting the documents one by one. -/
def submitAll (E : EditPlatform) (files : SessionFiles) : List Edit → SessionFiles
  | [] => files
  | edit :: rest => submitAll E (updateBuilderPlanfileFromMarkdown E files edit.1 edit.2).2 rest

/-- The session is in its file and holds the plan. -/
structure Holds (files : SessionFiles) (path : FilePath) (session : PlanBuilderSession)
    (current : Planfile) : Prop where
  file : files path = some session
  own : sessionPath session.sessionId = path
  current : session.currentPlanfile = some current

/-- Every plan that a submission of the run would install is settled. -/
def SettledRun (E : EditPlatform) (path : FilePath) (files : SessionFiles) : List Edit → Prop
  | [] => True
  | edit :: rest =>
      (∀ session current, Holds files path session current →
        SettledEdit E session current edit.1 edit.2) ∧
      SettledRun E path (updateBuilderPlanfileFromMarkdown E files edit.1 edit.2).2 rest

/-- **In a run of settled edits the revisions chain up to the digest of the plan the session
holds.** -/
theorem submitAll_chain (hsha : ∀ text, isSha256Hex (E.sha256 text) = true) {path : FilePath}
    {files : SessionFiles} {edits : List Edit} (hholds : Holds files path session current)
    (hedits : ∀ edit ∈ edits, sessionPath edit.1.sessionId = path)
    (hsettled : SettledRun E path files edits) :
    ∃ session' plan revisions, Holds (submitAll E files edits) path session' plan ∧
      session'.planfileRevisionHistory = session.planfileRevisionHistory ++ revisions ∧
      Chain (canonicalPlanDigest E.sha256 current) revisions (canonicalPlanDigest E.sha256 plan) := by
  induction edits generalizing files session current with
  | nil => exact ⟨session, current, [], hholds, (List.append_nil _).symm, .nil _⟩
  | cons edit rest ih =>
      obtain ⟨hedit, hrest⟩ := hsettled
      have hfile : getPlanBuilderSession files edit.1.sessionId = some session := by
        unfold getPlanBuilderSession
        rw [hedits edit List.mem_cons_self]
        exact hholds.file
      have htail : ∀ e ∈ rest, sessionPath e.1.sessionId = path :=
        fun e he => hedits e (List.mem_cons_of_mem _ he)
      unfold submitAll
      cases hreconcile : reconcileForSession E session current edit.1 edit.2 with
      | error message =>
          rw [update_error hfile hholds.current hreconcile] at hrest ⊢
          exact ih hholds htail hrest
      | ok result =>
          obtain ⟨report, session'⟩ := result
          rw [update_ok hfile hholds.current hreconcile] at hrest ⊢
          obtain ⟨hsubmission, -⟩ := reconcile_spec hreconcile
          obtain ⟨plan, revision, hplan, hhistory, hlink⟩ :=
            submission_chain hsha hsubmission hholds.current (hedit session current hholds)
          have hown : sessionPath session'.sessionId = path := by
            rw [submission_keeps_id hsubmission]
            exact hholds.own
          have hnext : Holds (savePlanBuilderSession files session') path session' plan :=
            ⟨hown ▸ save_own files session', hown, hplan⟩
          obtain ⟨last, lastPlan, revisions, hlast, hrevisions, hchain⟩ := ih hnext htail hrest
          refine ⟨last, lastPlan, revision :: revisions, hlast, ?_, hlink.append hchain⟩
          rw [hrevisions, hhistory, List.append_assoc]
          rfl

/-- No chain goes over an accepted edit whose digest moves as its lifecycle is filled in. -/
theorem chain_broken (hsha : ∀ text, isSha256Hex (E.sha256 text) = true) {path : FilePath}
    {files : SessionFiles} (hholds : Holds files path session current)
    (hpath : sessionPath input.sessionId = path) (hparse : parseMarkdown E input.markdown = .ok next)
    (hinstalls : Installs E session current next input now)
    (hmoves : ∀ validationOk simulation status, canonicalPlanDigest E.sha256
        (lifecycle E next session.sessionId now validationOk simulation status) ≠
      canonicalPlanDigest E.sha256 next) :
    ¬ ∃ session' plan revisions, Holds (submitAll E files [(input, now)]) path session' plan ∧
      session'.planfileRevisionHistory = session.planfileRevisionHistory ++ revisions ∧
      Chain (canonicalPlanDigest E.sha256 current) revisions (canonicalPlanDigest E.sha256 plan) := by
  rintro ⟨session', plan, revisions, hholds', hhistory, hchain⟩
  obtain ⟨report, simulation, revision, hreconcile⟩ := reconcile_installs hsha hparse hinstalls
  have haccepted := (accepted_iff (parse_refined hsha hparse)).mpr hinstalls.acceptable
  have hfile : getPlanBuilderSession files input.sessionId = some session := by
    unfold getPlanBuilderSession
    rw [hpath]
    exact hholds.file
  have hupdate := update_ok hfile hholds.current hreconcile
  obtain ⟨hsubmission, -⟩ := reconcile_spec hreconcile
  obtain ⟨validationOk, simulated, status, recorded, hplan, hrecorded, hkept, hnew⟩ :=
    installs_of_accepted hsubmission hparse haccepted
  have hown : sessionPath (installed E session next (judged E current next input now) simulation
      revision now).sessionId = path := by
    rw [submission_keeps_id hsubmission]
    exact hholds.own
  have hsaved : submitAll E files [(input, now)] path = some (installed E session next
      (judged E current next input now) simulation revision now) := by
    unfold submitAll submitAll
    rw [hupdate]
    exact hown ▸ save_own files _
  have hsession := Option.some.inj (hsaved.symm.trans hholds'.file)
  rw [hsession] at hplan hrecorded
  have hrevisions := List.append_cancel_left (hrecorded.symm.trans hhistory)
  have hheld := Option.some.inj (hplan.symm.trans hholds'.current)
  rw [← hrevisions] at hchain
  have hlast := hchain.single hkept
  rw [hnew, Option.some.injEq, ← hheld] at hlast
  exact hmoves validationOk simulated status hlast.symm

/-! ### Submitting the page of the session's own plan -/

theorem sameJson_refl (v : Value) : sameJson v v = true := decide_eq_true rfl

open PlanfileDiff in
/-- A plan shows no difference to itself. -/
theorem not_visible_self {plan : Planfile} (hnodup : (plan.nodes.map (·.id)).Nodup) :
    ¬ Visible plan plan := by
  rintro (⟨node, hnode, hnew⟩ | ⟨node, hnode, hgone⟩ |
    ⟨before, node, hbefore, hnode, hid, name, hsome, hne⟩ | ⟨edge, hedge⟩ | hreqs | hschedule |
    ⟨name, hname⟩)
  · exact hnew node hnode rfl
  · exact hgone node hnode rfl
  · rw [List.inj_on_of_nodup_map hnodup hbefore hnode hid] at hne
    exact hne rfl
  · exact hedge Iff.rfl
  · exact hreqs rfl
  · rw [sameJson_refl] at hschedule
    cases hschedule
  · have hfalse := hname.2
    rw [sameJson_refl] at hfalse
    cases hfalse

/-- What a submission of the session's own page needs to be read as the plan the session holds, and
to be recorded. -/
structure OwnPage (E : EditPlatform) (session : PlanBuilderSession) (current : Planfile)
    (input : UpdateBuilderPlanfileInput) (now : String) : Prop where
  page : input.markdown = renderPlanfileMarkdown E.yaml current ⟨none, none, none⟩
  refined : current.refined E.isDatetime = true
  nodup : (current.nodes.map (·.id)).Nodup
  undone : PlanfileMarkdown.Undone E.yaml current
  intact : PlanfileMarkdown.Intact E.yaml current
  alone : PlanfileMarkdown.Alone current ⟨none, none, none⟩
  recorded : ∀ report, ∃ artifactRefs, E.recordArtifacts session report input = .ok artifactRefs
  stored : nonempty session.sessionId = true ∧ E.isDatetime now = true

/-- **The page of the plan the session holds is reported as unchanged.** -/
theorem ownPage_unchanged (hsha : ∀ text, isSha256Hex (E.sha256 text) = true) {files : SessionFiles}
    (hfile : getPlanBuilderSession files input.sessionId = some session)
    (hcurrent : session.currentPlanfile = some current) (hown : OwnPage E session current input now) :
    ∃ report, (updateBuilderPlanfileFromMarkdown E files input now).1 = .ok report ∧
      report.diffStatus = .unchanged ∧ report.previousPlanDigest = report.newPlanDigest ∧
      report.newPlanDigest = some (canonicalPlanDigest E.sha256 current) := by
  have hparse : parseMarkdown E input.markdown = .ok (withCanonicalPlanDigest E.sha256 current) := by
    unfold parseMarkdown
    rw [hown.page, (PlanfileMarkdown.roundTrip_iff hown.refined hown.undone hown.intact _).mpr hown.alone]
    rfl
  have hnext := parse_refined hsha hparse
  have hdiff : diffPlanfiles E.isDatetime (withCanonicalPlanDigest E.sha256 current)
      (withCanonicalPlanDigest E.sha256 current) = some (structuredDiff
        (withCanonicalPlanDigest E.sha256 current) (withCanonicalPlanDigest E.sha256 current)) := by
    refine if_pos ((PlanfileDiff.refined_diff_iff hnext hnext hown.nodup).mpr ?_)
    rintro ⟨-, hfalse⟩
    rw [sameJson_refl] at hfalse
    cases hfalse
  have hunchanged : hasStructuredDiffChanges (structuredDiff (withCanonicalPlanDigest E.sha256 current)
      (withCanonicalPlanDigest E.sha256 current)) = false := by
    rw [Bool.eq_false_iff]
    intro hchanged
    exact not_visible_self hown.nodup ((PlanfileDiff.hasChanges_iff hown.nodup).mp hchanged)
  obtain ⟨artifactRefs, hrefs⟩ := hown.recorded (updateReport E session current
    (withCanonicalPlanDigest E.sha256 current)
    (judged E current (withCanonicalPlanDigest E.sha256 current) input now))
  -- whether the plan is installed again or only recorded, the session can be saved
  have hreconcile : ∃ session', reconcileForSession E session current input now =
      .ok ({ updateReport E session current (withCanonicalPlanDigest E.sha256 current)
        (judged E current (withCanonicalPlanDigest E.sha256 current) input now) with artifactRefs },
        session') := by
    unfold reconcileForSession
    simp only [hparse, hdiff]
    rw [show judge E input now (withCanonicalPlanDigest E.sha256 current) (structuredDiff
        (withCanonicalPlanDigest E.sha256 current) (withCanonicalPlanDigest E.sha256 current)) =
      judged E current (withCanonicalPlanDigest E.sha256 current) input now from rfl, hrefs]
    cases haccepted : (judged E current (withCanonicalPlanDigest E.sha256 current) input now).accepted with
    | false =>
        refine ⟨_, congrArg (Except.map _) (if_pos ?_)⟩
        show session.currentPlanfile.all _ = true
        rw [hcurrent]
        exact hown.refined
    | true =>
        rw [simulated_of_accepted haccepted]
        exact ⟨_, congrArg (Except.map _)
          (if_pos ((lifecycle_refined_iff hsha hnext).mpr hown.stored))⟩
  obtain ⟨session', hreconcile⟩ := hreconcile
  refine ⟨_, congrArg Prod.fst (update_ok hfile hcurrent hreconcile), ?_, rfl, rfl⟩
  show (if hasStructuredDiffChanges (structuredDiff (withCanonicalPlanDigest E.sha256 current)
    (withCanonicalPlanDigest E.sha256 current)) then _ else _) = _
  rw [hunchanged]
  rfl

/-! ### The chain -/

/-- **The history of a session.**  In a run of submissions that installs settled plans only, every
revision begins at the digest of the plan held before it, and the revisions lead up to the digest of
the plan held at the end.  A submission of the page of the plan the session holds is reported as
unchanged, with one digest before and after it. -/
theorem revision_chain (E : EditPlatform) (hsha : ∀ text, isSha256Hex (E.sha256 text) = true) :
    (∀ (path : FilePath) (files : SessionFiles) (session : PlanBuilderSession) (current : Planfile)
      (edits : List Edit), Holds files path session current →
      (∀ edit ∈ edits, sessionPath edit.1.sessionId = path) → SettledRun E path files edits →
      ∃ session' plan revisions, Holds (submitAll E files edits) path session' plan ∧
        session'.planfileRevisionHistory = session.planfileRevisionHistory ++ revisions ∧
        Chain (canonicalPlanDigest E.sha256 current) revisions (canonicalPlanDigest E.sha256 plan)) ∧
    ∀ (files : SessionFiles) (session : PlanBuilderSession) (current : Planfile)
      (input : UpdateBuilderPlanfileInput) (now : String),
      getPlanBuilderSession files input.sessionId = some session →
      session.currentPlanfile = some current → OwnPage E session current input now →
      ∃ report, (updateBuilderPlanfileFromMarkdown E files input now).1 = .ok report ∧
        report.diffStatus = .unchanged ∧ report.previousPlanDigest = report.newPlanDigest ∧
        report.newPlanDigest = some (canonicalPlanDigest E.sha256 current) :=
  ⟨fun _ _ _ _ _ hholds hedits hsettled => submitAll_chain hsha hholds hedits hsettled,
    fun _ _ _ _ _ hfile hcurrent hown => ownPage_unchanged hsha hfile hcurrent hown⟩

/-! ### A plan without a lifecycle -/

/-- A plan that names its session. -/
def settledPlan : Planfile :=
  { gatedPlan false with lifecycle := some ⟨some "builder", none, some [], none, none⟩ }

/-- The plan as YAML. -/
def settledLines : List String :=
  gatedLines.takeWhile (· ≠ "artifact_refs: []") ++
    ["lifecycle:", "  builder_session_id: builder", "  assumptions: []"] ++
    gatedLines.dropWhile (· ≠ "artifact_refs: []")

def settledPlatform : EditPlatform :=
  { sampleEditPlatform with yaml := ⟨fun _ => "", fun _ => .ok settledPlan, fun _ => "Invalid input"⟩ }

def settledEdit : Edit :=
  (⟨"builder", documentText settledLines, .cli, none, none⟩, "2026-01-01T00:00:00Z")

theorem gatedHolds : Holds (sampleFiles (sampleSession (gatedPlan true)))
    (sessionPath "builder") (sampleSession (gatedPlan true)) (gatedPlan true) :=
  ⟨gatedFile, rfl, rfl⟩

/-- The page of a plan whose YAML can be told apart. -/
def ownPageInput : UpdateBuilderPlanfileInput :=
  ⟨"builder", renderPlanfileMarkdown (PlanfileMarkdown.assumingYaml "It runs.")
    (PlanfileMarkdown.assumingPlan "It runs.") ⟨none, none, none⟩, .cli, none, none⟩

def ownPagePlatform : EditPlatform :=
  { sampleEditPlatform with yaml := PlanfileMarkdown.assumingYaml "It runs." }

/-- A settled plan is submitted, and a session's own page. -/
theorem settledEdit_chain :
    (∃ session' plan revisions,
      Holds (submitAll settledPlatform (sampleFiles (sampleSession (gatedPlan true))) [settledEdit])
        (sessionPath "builder") session' plan ∧
      session'.planfileRevisionHistory = [] ++ revisions ∧
      Chain (canonicalPlanDigest settledPlatform.sha256 (gatedPlan true)) revisions
        (canonicalPlanDigest settledPlatform.sha256 plan)) ∧
    ∃ report, (updateBuilderPlanfileFromMarkdown ownPagePlatform
        (sampleFiles (sampleSession (PlanfileMarkdown.assumingPlan "It runs."))) ownPageInput
        "2026-01-01T00:00:00Z").1 = .ok report ∧
      report.diffStatus = .unchanged ∧ report.previousPlanDigest = report.newPlanDigest ∧
      report.newPlanDigest = some (canonicalPlanDigest ownPagePlatform.sha256
        (PlanfileMarkdown.assumingPlan "It runs.")) := by
  have hcandidates : candidates (documentText settledLines) = [documentBlock settledLines] :=
    @documentText_candidates settledLines (by decide +kernel) (by decide +kernel)
  have hparse : parseMarkdown settledPlatform (documentText settledLines) =
      .ok (withCanonicalPlanDigest settledPlatform.sha256 settledPlan) :=
    @documentText_parse settledPlatform settledLines _ hcandidates (fun _ => rfl) (by decide)
  have hsettled : SettledRun settledPlatform (sessionPath "builder")
      (sampleFiles (sampleSession (gatedPlan true))) [settledEdit] := by
    refine ⟨?_, trivial⟩
    intro session current hholds next hnext _
    rw [show settledEdit.1.markdown = documentText settledLines from rfl, hparse] at hnext
    have hsession : sampleSession (gatedPlan true) = session :=
      Option.some.inj (gatedHolds.file.symm.trans hholds.file)
    rw [← Except.ok.inj hnext, ← hsession]
    exact ⟨_, rfl, rfl, rfl⟩
  have hown : OwnPage ownPagePlatform (sampleSession (PlanfileMarkdown.assumingPlan "It runs."))
      (PlanfileMarkdown.assumingPlan "It runs.") ownPageInput "2026-01-01T00:00:00Z" := by
    refine ⟨rfl, by decide +kernel, by decide,
      PlanfileMarkdown.assumingPlan_undone "It runs." (Or.inl rfl), PlanfileMarkdown.assumingPlan_intact,
      ?_, fun _ => ⟨[], rfl⟩, by decide⟩
    exact PlanfileMarkdown.assumingPlan_alone
  refine ⟨?_, ?_⟩
  · exact (revision_chain settledPlatform sampleSha_hex).1 (sessionPath "builder") _ _ _ [settledEdit]
      gatedHolds (by simp [settledEdit]) hsettled
  · exact (revision_chain ownPagePlatform sampleSha_hex).2 _ _ _ ownPageInput _
      (save_own (fun _ => none) (sampleSession (PlanfileMarkdown.assumingPlan "It runs."))) rfl hown

/-- The plan without an approval as it is hashed. -/
def gatedText : String := (stableStringify (canonicalPlanObject (gatedPlan false))).getD ""

/-- A hash that tells this text from every other one. -/
def tellingSha256 (text : String) : String :=
  if text = gatedText then sampleDigest else String.ofList (List.replicate 64 'a')

def tellingPlatform : EditPlatform := { sampleEditPlatform with sha256 := tellingSha256 }

theorem tellingSha_hex : ∀ text, isSha256Hex (tellingPlatform.sha256 text) = true := by
  intro text
  show isSha256Hex (tellingSha256 text) = true
  unfold tellingSha256
  split
  · decide
  · decide

theorem telling_installs : Installs tellingPlatform (sampleSession (gatedPlan true)) (gatedPlan true)
    (withCanonicalPlanDigest tellingPlatform.sha256 (gatedPlan false)) gatedInput
    "2026-01-01T00:00:00Z" where
  acceptable := by
    have hrefined : (withCanonicalPlanDigest tellingPlatform.sha256 (gatedPlan false)).refined
        tellingPlatform.isDatetime = true := refined_withDigest tellingSha_hex (by decide)
    refine ⟨(validatePlanfile_ok hrefined).mpr ?_, ?_, ?_⟩
    · show planIssues (gatedPlan false) (some (fullSnapshot tellingPlatform.toPlatform
        "2026-01-01T00:00:00Z")) = []
      decide
    · show safetyErrorsFor (structuredDiff (gatedPlan true) (gatedPlan false)) (gatedPlan false) none _ = []
      decide
    · intro node hnode
      rw [List.mem_singleton.mp hnode]
      decide
  diffed := by
    show (diffPlanfiles (fun _ => true) (gatedPlan true) _).isSome = true
    decide
  recorded := ⟨[], rfl⟩
  stored := by decide

theorem tellingSha_unique {text : String} (h : tellingSha256 text = tellingSha256 gatedText) :
    text = gatedText := by
  by_contra hne
  unfold tellingSha256 at h
  rw [if_neg hne, if_pos rfl] at h
  revert h
  decide

/-- A text that a hash tells from every other one has its own digest. -/
theorem text_of_digest {sha256 : String → String} {text : String} {p q : Planfile}
    (hunique : ∀ other, sha256 other = sha256 text → other = text)
    (htext : (stableStringify (canonicalPlanObject q)).getD "" = text)
    (h : canonicalPlanDigest sha256 p = canonicalPlanDigest sha256 q) :
    (stableStringify (canonicalPlanObject p)).getD "" =
      (stableStringify (canonicalPlanObject q)).getD "" := by
  unfold canonicalPlanDigest stableHash at h
  rw [htext] at h ⊢
  exact hunique _ h

theorem gatedText_eq : (stableStringify (canonicalPlanObject (gatedPlan false))).getD "" = gatedText := by
  unfold gatedText
  rfl

/-- The lifecycle section that the session writes is hashed. -/
theorem gated_digest_moves {plan : Planfile} (hcontext : plan.executionContext = none)
    (hlifecycle : plan.lifecycle.isSome = true) :
    canonicalPlanDigest tellingSha256 plan ≠ canonicalPlanDigest tellingSha256 (gatedPlan false) := by
  intro hdigest
  have hjson : plan.jsonContext = true := by
    unfold Planfile.jsonContext
    rw [hcontext]
    rfl
  have htext := text_of_digest (fun _ => tellingSha_unique) gatedText_eq hdigest
  have hsame := lifecycle_of_canonical (sameValue_of_text hjson rfl htext)
  rw [hlifecycle] at hsame
  cases hsame

/-- The session holds the plan under another digest than it was submitted with. -/
theorem gated_moves (validationOk : Bool) (simulation : PlanSimulationStatus)
    (status : PlanBuilderStatus) :
    canonicalPlanDigest tellingPlatform.sha256 (lifecycle tellingPlatform
        (withCanonicalPlanDigest tellingPlatform.sha256 (gatedPlan false))
        (sampleSession (gatedPlan true)).sessionId "2026-01-01T00:00:00Z" validationOk simulation status) ≠
      canonicalPlanDigest tellingPlatform.sha256
        (withCanonicalPlanDigest tellingPlatform.sha256 (gatedPlan false)) := by
  rw [canonicalPlanDigest_installed]
  exact gated_digest_moves rfl rfl

/-- A plan without a lifecycle is accepted, and the session holds it under another digest than the
revision records. -/
theorem gatedEdit_not_chain :
    ¬ ∀ (E : EditPlatform) (path : FilePath) (files : SessionFiles) (session : PlanBuilderSession)
      (current : Planfile) (edits : List Edit), (∀ text, isSha256Hex (E.sha256 text) = true) →
      Holds files path session current → (∀ edit ∈ edits, sessionPath edit.1.sessionId = path) →
      ∃ session' plan revisions, Holds (submitAll E files edits) path session' plan ∧
        session'.planfileRevisionHistory = session.planfileRevisionHistory ++ revisions ∧
        Chain (canonicalPlanDigest E.sha256 current) revisions (canonicalPlanDigest E.sha256 plan) := by
  intro hall
  have hparse : parseMarkdown tellingPlatform gatedInput.markdown =
      .ok (withCanonicalPlanDigest tellingPlatform.sha256 (gatedPlan false)) :=
    @documentText_parse tellingPlatform gatedLines _ gatedMarkdown_candidates (fun _ => rfl) (by decide)
  have hedits : ∀ edit ∈ [((gatedInput, "2026-01-01T00:00:00Z") : Edit)],
      sessionPath edit.1.sessionId = sessionPath "builder" := by
    intro edit hedit
    rw [List.mem_singleton.mp hedit]
    rfl
  refine @chain_broken tellingPlatform (sampleSession (gatedPlan true)) (gatedPlan true)
    (withCanonicalPlanDigest tellingPlatform.sha256 (gatedPlan false)) gatedInput "2026-01-01T00:00:00Z"
    tellingSha_hex _ _ gatedHolds rfl hparse telling_installs gated_moves ?_
  exact hall tellingPlatform _ _ _ _ _ tellingSha_hex gatedHolds hedits

end EditablePlanfile

end OpenLagrange
