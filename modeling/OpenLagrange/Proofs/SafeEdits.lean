/-
What a submitted document can do to a session.

`Submission` says it once: a submission either leaves everything but the history of the
session as it was, or installs the plan that was parsed.  From it follow when an edit is
safe, and how the digests of the history chain.

An installed plan is the submitted one except for its status, lifecycle section, time and
digest, so the validator judges it as it judged the submitted plan.
-/
import OpenLagrange.Planning.EditablePlanfile
import OpenLagrange.Proofs.PlanfileDiff
import OpenLagrange.Proofs.PlanfileMarkdown
import OpenLagrange.Proofs.PlanCheck

namespace OpenLagrange

namespace EditablePlanfile

variable {E : EditPlatform} {session session' : PlanBuilderSession} {current next : Planfile}
  {input : UpdateBuilderPlanfileInput} {now : String} {report : PlanfileUpdateReport}

/-! ### What a submission does -/

/-- The judgement of a plan that was parsed, against the plan of the session. -/
def judged (E : EditPlatform) (current next : Planfile) (input : UpdateBuilderPlanfileInput)
    (now : String) : Judgement :=
  judge E input now next (structuredDiff (withCanonicalPlanDigest E.sha256 current) next)

/-- The result of a submission that does not throw. -/
inductive Submission (E : EditPlatform) (session : PlanBuilderSession) (current : Planfile)
    (input : UpdateBuilderPlanfileInput) (now : String) :
    PlanfileUpdateReport → PlanBuilderSession → Prop where
  | unparsed (message : String) (artifactRefs : List String)
      (hparse : parseMarkdown E input.markdown = .error message) :
      Submission E session current input now
        { parseFailedReport E session current message now with artifactRefs }
        (recorded session (parseFailedRevision E session input current now artifactRefs) now)
  | refused (next : Planfile) (artifactRefs : List String)
      (hparse : parseMarkdown E input.markdown = .ok next)
      (haccepted : (judged E current next input now).accepted = false) :
      Submission E session current input now
        { updateReport E session current next (judged E current next input now) with artifactRefs }
        (recorded session
          (updateRevision E session input current next (judged E current next input now) now artifactRefs)
          now)
  | installs (next : Planfile) (simulation : PlanSimulationReport) (artifactRefs : List String)
      (hparse : parseMarkdown E input.markdown = .ok next)
      (haccepted : (judged E current next input now).accepted = true)
      (hsimulation : (judged E current next input now).simulation = some simulation)
      (hdiffed : (diffPlanfiles E.isDatetime current next).isSome = true)
      (hrecorded : E.recordArtifacts session
        (updateReport E session current next (judged E current next input now)) input = .ok artifactRefs) :
      Submission E session current input now
        { updateReport E session current next (judged E current next input now) with artifactRefs }
        (installed E session next (judged E current next input now) simulation
          (updateRevision E session input current next (judged E current next input now) now artifactRefs)
          now)

/-- An accepted plan was simulated. -/
theorem simulated_of_accepted (h : (judged E current next input now).accepted = true) :
    (judged E current next input now).simulation =
      some (simulatePlanfile E.sha256 ⟨next, some (judged E current next input now).validation,
        input.runtimeProfile, none⟩) := by
  unfold Judgement.accepted at h
  rw [decide_eq_true_eq] at h
  show (if (judged E current next input now).validationErrors.length > 0 then none else _) = _
  rw [if_neg (by omega)]
  rfl

theorem saved_ok (h : saved E session = .ok session') :
    session' = session ∧ session.currentPlanfile.all (·.refined E.isDatetime) = true := by
  unfold saved at h
  split at h
  · rename_i hrefined
    exact ⟨(Except.ok.inj h).symm, hrefined⟩
  · cases h

theorem bind_ok {α β : Type} {x : Except String α} {f : α → Except String β} {b : β}
    (h : x.bind f = .ok b) : ∃ a, x = .ok a ∧ f a = .ok b := by
  cases x with
  | error message => cases h
  | ok a => exact ⟨a, rfl, h⟩

theorem map_ok {α β : Type} {x : Except String α} {f : α → β} {b : β} (h : x.map f = .ok b) :
    ∃ a, x = .ok a ∧ f a = b := by
  cases x with
  | error message => cases h
  | ok a => exact ⟨a, rfl, Except.ok.inj h⟩

/-- **What a submission does.** -/
theorem reconcile_spec (h : reconcileForSession E session current input now = .ok (report, session')) :
    Submission E session current input now report session' ∧
      session'.currentPlanfile.all (·.refined E.isDatetime) = true := by
  unfold reconcileForSession at h
  cases hparse : parseMarkdown E input.markdown with
  | error message =>
      rw [hparse] at h
      obtain ⟨artifactRefs, -, hsaved⟩ := bind_ok h
      obtain ⟨s, hs, heq⟩ := map_ok hsaved
      obtain ⟨rfl, hrefined⟩ := saved_ok hs
      obtain ⟨rfl, rfl⟩ := Prod.mk.inj heq
      exact ⟨.unparsed message artifactRefs hparse, hrefined⟩
  | ok next =>
      simp only [hparse] at h
      cases hdiff : diffPlanfiles E.isDatetime (withCanonicalPlanDigest E.sha256 current) next with
      | none =>
          rw [hdiff] at h
          cases h
      | some diff =>
          obtain rfl := PlanfileDiff.diffPlanfiles_eq hdiff
          simp only [hdiff] at h
          obtain ⟨artifactRefs, hrecorded, hsaved⟩ := bind_ok h
          obtain ⟨s, hs, heq⟩ := map_ok hsaved
          obtain ⟨hs, hrefined⟩ := saved_ok hs
          obtain ⟨rfl, rfl⟩ := Prod.mk.inj heq
          rw [← hs] at hrefined
          refine ⟨?_, hrefined⟩
          rw [hs]
          have hjudged : judge E input now next (structuredDiff
              (withCanonicalPlanDigest E.sha256 current) next) =
                judged E current next input now := rfl
          rw [hjudged]
          cases haccepted : (judged E current next input now).accepted with
          | false => exact .refused next artifactRefs hparse haccepted
          | true =>
              have hsimulation := simulated_of_accepted haccepted
              rw [hsimulation]
              have hdiffed : (diffPlanfiles E.isDatetime current next).isSome = true :=
                Option.isSome_iff_exists.mpr ⟨_, hdiff⟩
              exact .installs next _ artifactRefs hparse haccepted hsimulation hdiffed hrecorded

/-! ### Plans that are accepted -/

/-- The digest the previous plan carries does not show in a diff. -/
theorem structuredDiff_withDigest (sha256 : String → String) (p q : Planfile) :
    structuredDiff (withCanonicalPlanDigest sha256 p) q = structuredDiff p q := rfl

theorem parse_refined (hsha : ∀ text, isSha256Hex (E.sha256 text) = true)
    (h : parseMarkdown E input.markdown = .ok next) : next.refined E.isDatetime = true := by
  obtain ⟨plan, hparse, rfl⟩ := map_ok h
  refine refined_withDigest hsha ?_
  unfold parsePlanfileMarkdown at hparse
  split at hparse
  · cases hparse
  · unfold parsePlanfileYaml at hparse
    split at hparse
    · cases hparse
    · split at hparse
      · rename_i hrefined
        rw [← Except.ok.inj hparse]
        exact hrefined
      · cases hparse

theorem issueErrors_nil {P : Platform} {snapshot : Option CapabilitySnapshot} {plan : Planfile}
    (hrefined : plan.refined P.isDatetime = true) :
    issueErrors (validatePlanfile P snapshot plan) now = [] ↔
      (validatePlanfile P snapshot plan).ok = true := by
  rw [validatePlanfile_refined hrefined]
  unfold issueErrors
  rw [List.map_eq_nil_iff, List.filter_eq_nil_iff, List.all_eq_true]
  simp

/-- The submitted plan is valid, needs no confirmation, and destroys nothing. -/
structure Acceptable (E : EditPlatform) (current next : Planfile) (input : UpdateBuilderPlanfileInput)
    (now : String) : Prop where
  valid : (validatePlanfile E.toPlatform (some (fullSnapshot E.toPlatform now)) next).ok = true
  confirmed : safetyErrorsFor (structuredDiff current next) next input.options now = []
  harmless : ∀ node ∈ next.nodes, node.riskLevel ≠ .destructive

theorem validatorErrorTexts_nil {validation : PlanValidationResult}
    (h : issueErrors validation now = []) : validatorErrorTexts (some validation) = [] := by
  unfold issueErrors at h
  unfold validatorErrorTexts
  rw [List.map_eq_nil_iff] at h
  show ((validation.issues.filter (·.severity = .error)).map _) = []
  rw [h]
  rfl

/-- Without errors and destructive nodes a simulation is not against the plan. -/
theorem settled_status (sha256 : String → String) (profile : Option RuntimeProfileForRequirements)
    (maxQuestions : Option Int) {validation : Option PlanValidationResult}
    (htexts : validatorErrorTexts validation = [])
    (hany : next.nodes.any (·.riskLevel = .destructive) = false) :
    simulationStatus sha256 ⟨next, validation, profile, maxQuestions⟩ ≠ .invalid ∧
      simulationStatus sha256 ⟨next, validation, profile, maxQuestions⟩ ≠ .unsafePlan := by
  unfold simulationStatus
  simp only [htexts, hany]
  split
  · rename_i hpos
    exact absurd hpos (by simp)
  · split
    · rename_i hfalse
      cases hfalse
    · split
      · exact ⟨nofun, nofun⟩
      · split <;> exact ⟨nofun, nofun⟩

theorem accepted_iff (hrefined : next.refined E.isDatetime = true) :
    (judged E current next input now).accepted = true ↔ Acceptable E current next input now := by
  have herrors : (judged E current next input now).validationErrors =
      issueErrors (validatePlanfile E.toPlatform (some (fullSnapshot E.toPlatform now)) next) now ++
        safetyErrorsFor (structuredDiff current next) next input.options now := rfl
  have hok := @issueErrors_nil now E.toPlatform (some (fullSnapshot E.toPlatform now)) next hrefined
  constructor
  · intro h
    have hsimulation := simulated_of_accepted h
    unfold Judgement.accepted at h
    rw [decide_eq_true_eq] at h
    obtain ⟨hlength, hinvalid, hunsafe⟩ := h
    rw [List.length_eq_zero_iff, herrors, List.append_eq_nil_iff] at hlength
    refine ⟨hok.mp hlength.1, hlength.2, ?_⟩
    intro node hnode hrisk
    refine hunsafe ?_
    have htexts := validatorErrorTexts_nil hlength.1
    have hany : next.nodes.any (·.riskLevel = .destructive) = true :=
      List.any_eq_true.mpr ⟨node, hnode, decide_eq_true hrisk⟩
    rw [hsimulation, Option.map_some, simulatePlanfile, simulationStatus]
    change some (if (validatorErrorTexts (some (validatePlanfile E.toPlatform
      (some (fullSnapshot E.toPlatform now)) next))).length > 0 then _ else _) = _
    rw [htexts, hany]
    rfl
  · rintro ⟨hvalid, hconfirmed, hharmless⟩
    have hnil : (judged E current next input now).validationErrors = [] := by
      rw [herrors, hok.mpr hvalid, hconfirmed]
      rfl
    have hsimulation : (judged E current next input now).simulation =
        some (simulatePlanfile E.sha256 ⟨next, some (judged E current next input now).validation,
          input.runtimeProfile, none⟩) := by
      show (if (judged E current next input now).validationErrors.length > 0 then none else _) = _
      rw [hnil]
      rfl
    have hany : next.nodes.any (·.riskLevel = .destructive) = false := by
      rw [List.any_eq_false]
      intro node hnode
      simpa using hharmless node hnode
    have hstatus := settled_status E.sha256 input.runtimeProfile none
      (validatorErrorTexts_nil (hok.mpr hvalid)) hany
    unfold Judgement.accepted
    rw [decide_eq_true_eq, hnil, hsimulation]
    refine ⟨rfl, ?_, ?_⟩
    · exact fun h => hstatus.1 (Option.some.inj h)
    · exact fun h => hstatus.2 (Option.some.inj h)

/-! ### Safe edits -/

/-- None of the flags that confirm a change is set. -/
def NoAllowFlags (options : Option UpdateOptions) : Prop :=
  allowed options (·.allowNewCapabilities) = false ∧ allowed options (·.allowRiskIncrease) = false ∧
    allowed options (·.allowScheduleChange) = false

/-- No node that asked for an approval stops asking. -/
def KeepsApprovals (p q : Planfile) : Prop :=
  ∀ before ∈ p.nodes, ∀ node ∈ q.nodes, before.id = node.id → before.approvalRequired = true →
    node.approvalRequired = true

/-- The plan `q` is valid and escalates nothing of the plan `p`. -/
structure SafeSuccessor (E : EditPlatform) (now : String) (p q : Planfile) : Prop where
  valid : (validatePlanfile E.toPlatform (some (fullSnapshot E.toPlatform now)) q).ok = true
  capabilities : ∀ ref ∈ capabilityRefs q, ref ∈ capabilityRefs p
  risks : ∀ node ∈ q.nodes,
    (∀ before ∈ p.nodes, before.id = node.id →
      riskRank node.riskLevel.text ≤ riskRank before.riskLevel.text) ∧
    ((∀ before ∈ p.nodes, before.id ≠ node.id) → node.riskLevel = .read)
  schedule : scheduleValue q = scheduleValue p
  approvals : KeepsApprovals p q

theorem riskRank_read {risk : RiskLevel} (h : ¬ riskRank risk.text > riskRank "none") : risk = .read := by
  cases risk <;> first | rfl | (revert h; decide)

/-- What it means that nothing needs a confirmation. -/
theorem confirmed_spec (hflags : NoAllowFlags input.options)
    (h : safetyErrorsFor (structuredDiff current next) next input.options now = []) :
    capabilitiesBeyond next current = [] ∧ (∀ change ∈ riskChanges current next, change.increased = false) ∧
      sameJson (scheduleValue current) (scheduleValue next) = true := by
  unfold safetyErrorsFor at h
  simp only [hflags.1, hflags.2.1, hflags.2.2, List.append_eq_nil_iff] at h
  obtain ⟨⟨⟨hcapabilities, hrisks⟩, hschedule⟩, -⟩ := h
  refine ⟨?_, ?_, ?_⟩
  · by_contra hne
    rw [if_pos ⟨List.length_pos_of_ne_nil hne, by simp⟩] at hcapabilities
    cases hcapabilities
  · intro change hchange
    by_contra hincreased
    have hmem : change ∈ (structuredDiff current next).riskChanges.filter (·.increased) :=
      List.mem_filter.mpr ⟨hchange, by simpa using hincreased⟩
    rw [if_pos ⟨List.length_pos_of_mem hmem, by simp⟩] at hrisks
    cases hrisks
  · by_contra hne
    have hsome : (structuredDiff current next).scheduleChanged.isSome = true := by
      simp [structuredDiff, hne]
    rw [if_pos ⟨hsome, by simp⟩] at hschedule
    cases hschedule

open PlanfileDiff in
theorem risks_of_confirmed (hnodup : (current.nodes.map (·.id)).Nodup)
    (h : ∀ change ∈ riskChanges current next, change.increased = false) :
    ∀ node ∈ next.nodes,
      (∀ before ∈ current.nodes, before.id = node.id →
        riskRank node.riskLevel.text ≤ riskRank before.riskLevel.text) ∧
      ((∀ before ∈ current.nodes, before.id ≠ node.id) → node.riskLevel = .read) := by
  intro node hnode
  constructor
  · intro before hbefore hid
    by_cases heq : before.riskLevel = node.riskLevel
    · rw [heq]
    · have hchange : riskChange node.id before.riskLevel.text node.riskLevel.text ∈
          riskChanges current next := by
        refine List.mem_append_right _ (List.mem_filterMap.mpr ⟨node, hnode, ?_⟩)
        have hfind : byId current.nodes node.id = some before := hid ▸ byId_of_nodup hnodup hbefore
        rw [hfind, Option.bind_some]
        exact if_pos heq
      have hfalse := h _ hchange
      simp only [riskChange, decide_eq_false_iff_not] at hfalse
      omega
  · intro hnew
    have hchange : riskChange node.id "none" node.riskLevel.text ∈ riskChanges current next :=
      List.mem_append_left _ (List.mem_map.mpr ⟨node, mem_nodesBeyond.mpr ⟨hnode, hnew⟩, rfl⟩)
    have hfalse := h _ hchange
    exact riskRank_read (of_decide_eq_false hfalse)

/-- The validator judges the plan a session keeps as it judged the submitted one. -/
theorem lifecycle_valid {snapshot : Option CapabilitySnapshot} {sessionId : String}
    {validationOk : Bool} {simulation : PlanSimulationStatus} {status : PlanBuilderStatus}
    (hrefined : next.refined E.isDatetime = true)
    (hstored : (lifecycle E next sessionId now validationOk simulation status).refined E.isDatetime = true) :
    (validatePlanfile E.toPlatform snapshot
      (lifecycle E next sessionId now validationOk simulation status)).ok =
        (validatePlanfile E.toPlatform snapshot next).ok := by
  have hsame : SamePlan (lifecycle E next sessionId now validationOk simulation status) next :=
    ⟨forall₂_same_refl next.nodes, rfl, rfl, rfl, rfl, rfl⟩
  rw [validatePlanfile_refined hstored, validatePlanfile_refined hrefined, planIssues_same hsame]

/-- **An accepted plan that keeps the approvals and the schedule escalates nothing.** -/
theorem safeSuccessor (hflags : NoAllowFlags input.options)
    (hnodup : (current.nodes.map (·.id)).Nodup) (hrefined : next.refined E.isDatetime = true)
    (haccepted : Acceptable E current next input now) {sessionId : String} {validationOk : Bool}
    {simulation : PlanSimulationStatus} {status : PlanBuilderStatus}
    (hstored : (lifecycle E next sessionId now validationOk simulation status).refined E.isDatetime = true)
    (hkeeps : KeepsApprovals current next) (hschedule : scheduleValue next = scheduleValue current) :
    SafeSuccessor E now current (lifecycle E next sessionId now validationOk simulation status) := by
  obtain ⟨hcapabilities, hrisks, -⟩ := confirmed_spec hflags haccepted.confirmed
  refine ⟨?_, ?_, risks_of_confirmed hnodup hrisks, hschedule, hkeeps⟩
  · rw [lifecycle_valid hrefined hstored]
    exact haccepted.valid
  · intro ref href
    by_contra hnew
    have hmem : ref ∈ capabilitiesBeyond next current :=
      PlanfileDiff.mem_capabilitiesBeyond.mpr ⟨href, hnew⟩
    rw [hcapabilities] at hmem
    cases hmem

/-- The submission installs the plan. -/
structure Installs (E : EditPlatform) (session : PlanBuilderSession) (current next : Planfile)
    (input : UpdateBuilderPlanfileInput) (now : String) : Prop where
  acceptable : Acceptable E current next input now
  diffed : (diffPlanfiles E.isDatetime current next).isSome = true
  recorded : ∃ artifactRefs, E.recordArtifacts session
    (updateReport E session current next (judged E current next input now)) input = .ok artifactRefs
  stored : nonempty session.sessionId = true ∧ E.isDatetime now = true

theorem lifecycle_refined_iff (hsha : ∀ text, isSha256Hex (E.sha256 text) = true)
    (hrefined : next.refined E.isDatetime = true) {sessionId : String} {validationOk : Bool}
    {simulation : PlanSimulationStatus} {status : PlanBuilderStatus} :
    (lifecycle E next sessionId now validationOk simulation status).refined E.isDatetime = true ↔
      nonempty sessionId = true ∧ E.isDatetime now = true := by
  unfold lifecycle withLifecycle
  constructor
  · intro h
    simp only [Planfile.refined, withCanonicalPlanDigest, Bool.and_eq_true, Option.all_some] at h
    exact ⟨h.1.1.1.1.2.1, h.1.2⟩
  · rintro ⟨hid, hnow⟩
    refine refined_withDigest hsha ?_
    have hassumptions : next.goalFrame.assumptions.all nonempty = true := by
      simp only [Planfile.refined, GoalFrame.refined, Bool.and_eq_true] at hrefined
      exact hrefined.1.1.1.1.1.1.1.1.1.1.2.1.1.1.2
    simp only [Planfile.refined, Bool.and_eq_true] at hrefined ⊢
    simp only [Option.all_some, Option.getD_some, Bool.and_eq_true]
    exact ⟨⟨⟨⟨⟨hrefined.1.1.1.1.1, hid, hassumptions⟩, hrefined.1.1.1.2⟩, hrefined.1.1.2⟩, hnow⟩,
      hrefined.2⟩

/-- A plan that the submission installs is the plan of the session that is saved. -/
theorem reconcile_installs (hsha : ∀ text, isSha256Hex (E.sha256 text) = true)
    (hparse : parseMarkdown E input.markdown = .ok next)
    (hinstalls : Installs E session current next input now) :
    ∃ report simulation revision, reconcileForSession E session current input now =
      .ok (report, installed E session next (judged E current next input now) simulation revision now) := by
  have hrefined := parse_refined hsha hparse
  have haccepted := (@accepted_iff E current next input now hrefined).mpr hinstalls.acceptable
  have hsimulation := simulated_of_accepted haccepted
  obtain ⟨artifactRefs, hrefs⟩ := hinstalls.recorded
  obtain ⟨diff, hdiff⟩ := Option.isSome_iff_exists.mp hinstalls.diffed
  have hsame : diffPlanfiles E.isDatetime (withCanonicalPlanDigest E.sha256 current) next =
      some (structuredDiff (withCanonicalPlanDigest E.sha256 current) next) := by
    rw [structuredDiff_withDigest, ← PlanfileDiff.diffPlanfiles_eq hdiff]
    exact hdiff
  refine ⟨{ updateReport E session current next (judged E current next input now) with artifactRefs },
    simulatePlanfile E.sha256 ⟨next, some (judged E current next input now).validation,
      input.runtimeProfile, none⟩,
    updateRevision E session input current next (judged E current next input now) now artifactRefs, ?_⟩
  unfold reconcileForSession
  simp only [hparse, hsame]
  rw [show judge E input now next (structuredDiff (withCanonicalPlanDigest E.sha256 current) next) =
    judged E current next input now from rfl, hrefs, haccepted, hsimulation]
  show (saved E (installed E session next (judged E current next input now) _ _ now)).map _ = _
  unfold saved
  rw [if_pos]
  · rfl
  · exact (lifecycle_refined_iff hsha hrefined).mpr hinstalls.stored

theorem update_error {files : SessionFiles} {message : String}
    (hfile : getPlanBuilderSession files input.sessionId = some session)
    (hcurrent : session.currentPlanfile = some current)
    (h : reconcileForSession E session current input now = .error message) :
    updateBuilderPlanfileFromMarkdown E files input now = (.error message, files) := by
  unfold updateBuilderPlanfileFromMarkdown
  simp only [hfile, hcurrent, h]

theorem update_ok {files : SessionFiles} (hfile : getPlanBuilderSession files input.sessionId = some session)
    (hcurrent : session.currentPlanfile = some current)
    (h : reconcileForSession E session current input now = .ok (report, session')) :
    updateBuilderPlanfileFromMarkdown E files input now =
      (.ok report, savePlanBuilderSession files session') := by
  unfold updateBuilderPlanfileFromMarkdown
  simp only [hfile, hcurrent, h]

/-- Nothing but the history of the session is different. -/
structure Kept (session session' : PlanBuilderSession) : Prop where
  currentPlanfile : session'.currentPlanfile = session.currentPlanfile
  simulationReport : session'.simulationReport = session.simulationReport
  validationReport : session'.validationReport = session.validationReport
  pendingQuestions : session'.pendingQuestions = session.pendingQuestions
  answeredQuestions : session'.answeredQuestions = session.answeredQuestions
  status : session'.status = session.status

/-- After the submission the file of the session holds it as it was, or with a plan that escalates
nothing. -/
def SafeUpdate (E : EditPlatform) (files : SessionFiles) (session : PlanBuilderSession)
    (current : Planfile) (input : UpdateBuilderPlanfileInput) (now : String) : Prop :=
  ∃ session', (updateBuilderPlanfileFromMarkdown E files input now).2 (sessionPath session.sessionId) =
      some session' ∧
    (Kept session session' ∨
      ∃ plan, session'.currentPlanfile = some plan ∧ SafeSuccessor E now current plan)

/-- A safe update that installs a plan keeps the approvals and the schedule. -/
theorem keeps_of_safe {files : SessionFiles} (hsha : ∀ text, isSha256Hex (E.sha256 text) = true)
    (hnodup : (current.nodes.map (·.id)).Nodup)
    (hfile : getPlanBuilderSession files input.sessionId = some session)
    (hcurrent : session.currentPlanfile = some current)
    (hsafe : SafeUpdate E files session current input now)
    (hparse : parseMarkdown E input.markdown = .ok next)
    (hinstalls : Installs E session current next input now) :
    KeepsApprovals current next ∧ scheduleValue next = scheduleValue current := by
  obtain ⟨session', hsession', hsafe⟩ := hsafe
  obtain ⟨report, simulation, revision, hreconcile⟩ := reconcile_installs hsha hparse hinstalls
  rw [update_ok hfile hcurrent hreconcile] at hsession'
  have hsaved := hsession'.symm.trans (save_own files
    (installed E session next (judged E current next input now) simulation revision now))
  obtain rfl := Option.some.inj hsaved
  rcases hsafe with hkept | ⟨plan, hplan, hsafe⟩
  · -- the plan installed is the plan there was
    have hsame := hkept.currentPlanfile
    rw [hcurrent] at hsame
    have hplans := Option.some.inj hsame
    have hnodes : next.nodes = current.nodes := by
      rw [← hplans]
      rfl
    have hcontext : next.executionContext = current.executionContext := by
      rw [← hplans]
      rfl
    refine ⟨?_, ?_⟩
    · intro before hbefore node hnode hid hrequired
      rw [hnodes] at hnode
      rw [← List.inj_on_of_nodup_map hnodup hbefore hnode hid]
      exact hrequired
    · unfold scheduleValue Planfile.contextField
      rw [hcontext]
  · obtain rfl := Option.some.inj hplan
    exact ⟨hsafe.approvals, hsafe.schedule⟩

/-- A plan whose one node asks for an approval, or does not. -/
def gatedPlan (required : Bool) : Planfile :=
  samplePlan [{ sampleNode "first" .frame [] with approvalRequired := required }]

/-- The plan without the approval, as YAML. -/
def gatedLines : List String :=
  ["schema_version: open-lagrange.plan.v1", "plan_id: plan", "goal_frame:", "  goal_id: goal",
    "  original_prompt: prompt", "  interpreted_goal: goal", "  acceptance_criteria: []",
    "  non_goals: []", "  assumptions: []", "  ambiguity:", "    level: low", "    questions: []",
    "    blocking: false", "  suggested_mode: dry_run", "  risk_notes: []",
    "  created_at: 2026-01-01T00:00:00Z", "mode: dry_run", "status: draft", "nodes:", "  - id: first",
    "    kind: frame", "    title: first", "    objective: first", "    description: \"\"",
    "    depends_on: []", "    allowed_capability_refs: []", "    expected_outputs: []",
    "    acceptance_refs: []", "    risk_level: read", "    approval_required: false",
    "    status: pending", "    artifacts: []", "    errors: []", "edges: []", "approval_policy:",
    "  require_approval_for_risks: []", "verification_policy:", "  allowed_command_ids: []",
    "artifact_refs: []", "created_at: 2026-01-01T00:00:00Z", "updated_at: 2026-01-01T00:00:00Z"]

def gatedBlock : List Char × List Char :=
  ("yaml planfile".toList, PlanfileMarkdown.lineChars gatedLines ++ ['\n'])

def gatedMarkdown : String := String.ofList ([] ++ (PlanfileMarkdown.blockText gatedBlock ++ []))

/-- The YAML library and an artifact store, as far as they are used on this document. -/
def sampleEditPlatform : EditPlatform :=
  { samplePlatform with
    yaml := ⟨fun _ => "", fun _ => .ok (gatedPlan false), fun _ => "Invalid input"⟩
    recordArtifacts := fun _ _ _ => .ok [] }

def sampleSession (plan : Planfile) : PlanBuilderSession where
  sessionId := "builder"
  promptSource := .chat
  originalInput := "prompt"
  currentPlanfile := some plan
  simulationReport := none
  validationReport := none
  pendingQuestions := []
  answeredQuestions := []
  revisionHistory := []
  planfileRevisionHistory := []
  status := .ready
  yieldReason := none
  createdAt := "2026-01-01T00:00:00Z"
  updatedAt := "2026-01-01T00:00:00Z"

def gatedInput : UpdateBuilderPlanfileInput := ⟨"builder", gatedMarkdown, .cli, none, none⟩

def sampleFiles (session : PlanBuilderSession) : SessionFiles :=
  savePlanBuilderSession (fun _ => none) session

/-- The block of a document that consists of a plan in YAML. -/
def documentBlock (lines : List String) : List Char × List Char :=
  ("yaml planfile".toList, PlanfileMarkdown.lineChars lines ++ ['\n'])

def documentText (lines : List String) : String :=
  String.ofList ([] ++ (PlanfileMarkdown.blockText (documentBlock lines) ++ []))

theorem documentText_candidates {lines : List String}
    (hlines : ¬ Fences.mark <:+: PlanfileMarkdown.lineChars lines)
    (hcandidate : isCandidate (documentBlock lines) = true) :
    candidates (documentText lines) = [documentBlock lines] := by
  have hbody := Fences.cut_line hlines []
  rw [List.append_nil] at hbody
  have hinfo : "yaml planfile".toList.all Fences.lineChar = true := by decide
  have hbody' : Fences.cut ((documentBlock lines).2 ++ Fences.mark) = some ((documentBlock lines).2, []) := by
    unfold documentBlock
    rw [List.append_assoc]
    exact hbody
  have hpage := PlanfileMarkdown.found_page [] (List.all_eq_true.mp hinfo) hbody'
    (show Fences.leftOpen 0 [] = false from rfl)
  rw [if_pos hcandidate] at hpage
  exact (PlanfileMarkdown.candidates_eq _).trans hpage

/-- A document is read as the plan its YAML stands for. -/
theorem documentText_parse {lines : List String} {plan : Planfile}
    (hcandidates : candidates (documentText lines) = [documentBlock lines])
    (hyaml : ∀ text, E.yaml.parse text = .ok plan) (hrefined : plan.refined E.isDatetime = true) :
    parseMarkdown E (documentText lines) = .ok (withCanonicalPlanDigest E.sha256 plan) := by
  unfold parseMarkdown
  rw [PlanfileMarkdown.parse_of_candidate E.isDatetime E.yaml hcandidates]
  unfold parsePlanfileYaml
  rw [hyaml]
  show (if plan.refined E.isDatetime then _ else _ : Except _ _).map _ = _
  rw [if_pos hrefined]
  rfl

theorem gatedMarkdown_candidates : candidates gatedMarkdown = [gatedBlock] :=
  @documentText_candidates gatedLines (by decide +kernel) (by decide +kernel)

theorem gatedMarkdown_parse : parseMarkdown sampleEditPlatform gatedMarkdown =
    .ok (withCanonicalPlanDigest sampleEditPlatform.sha256 (gatedPlan false)) :=
  @documentText_parse sampleEditPlatform gatedLines _ gatedMarkdown_candidates (fun _ => rfl) (by decide)

theorem sampleSha_hex : ∀ text, isSha256Hex (sampleEditPlatform.sha256 text) = true := by
  intro text
  show isSha256Hex sampleDigest = true
  decide

theorem gatedPlan_valid : (validatePlanfile sampleEditPlatform.toPlatform none (gatedPlan true)).ok = true := by
  decide

theorem gatedInput_installs : Installs sampleEditPlatform (sampleSession (gatedPlan true)) (gatedPlan true)
    (withCanonicalPlanDigest sampleEditPlatform.sha256 (gatedPlan false)) gatedInput
    "2026-01-01T00:00:00Z" where
  acceptable := by
    refine ⟨by decide, by decide, ?_⟩
    intro node hnode
    rw [List.mem_singleton.mp hnode]
    decide
  diffed := by decide
  recorded := ⟨[], rfl⟩
  stored := by decide

theorem gatedFile : getPlanBuilderSession (sampleFiles (sampleSession (gatedPlan true)))
    gatedInput.sessionId = some (sampleSession (gatedPlan true)) :=
  save_own (fun _ => none) (sampleSession (gatedPlan true))

end EditablePlanfile

end OpenLagrange
