/-
When a request for scope is given to a runner again.

A request that a status file lists, and that a resume could take, has a chance left: it was asked
for or approved since it was applied last.  Asking takes the approval back, so a resume that is
let through without a new approval would need a chance from before, and applying used that up.

This needs that nobody else writes the status files.  What a run lists is judged by the log of its
end, which has every chance that was there when it was listed.
-/
import OpenLagrange.Proofs.ScopeConsent

namespace OpenLagrange

open RepositoryPlanRunner

namespace ScopeDesk

variable {σ ω : Type} {perform : StoreBackend σ} {surroundings : Surroundings ω}
  {P : RepositoryPlatform} {tokenHash : String → String} {Ok : σ → Prop}
  {desk desk' : ScopeDesk σ ω}

/-! ### Chances that stay -/

/-- Every chance of a desk is one of a later desk, whose new resumes took none without approval. -/
structure Later (desk desk' : ScopeDesk σ ω) : Prop where
  fresh : ∀ planId id, Fresh planId id desk.log → Fresh planId id desk'.log
  resumes : EveryScopeFresh desk.log → EveryScopeFresh desk'.log

theorem Later.refl (desk : ScopeDesk σ ω) : Later desk desk :=
  ⟨fun _ _ h => h, fun h => h⟩

theorem Later.trans {desk'' : ScopeDesk σ ω} (h : Later desk desk') (h' : Later desk' desk'') :
    Later desk desk'' :=
  ⟨fun planId id hfresh => h'.fresh planId id (h.fresh planId id hfresh),
    fun hresumes => h'.resumes (h.resumes hresumes)⟩

theorem Later.of_eq (hlog : desk'.log = desk.log) : Later desk desk' := by
  constructor
  · intro planId id hfresh
    rw [hlog]
    exact hfresh
  · intro hresumes
    rw [hlog]
    exact hresumes

/-- An event that uses nothing up, and starts no runner without leave. -/
theorem Later.note {event : ScopeEvent} (hlog : desk'.log = event :: desk.log)
    (hchance : ∀ planId id, event.chance planId id ≠ some false)
    (hresumed : ∀ planId context, event = .resumed planId context →
      Fresh planId context.request.requestId desk.log ∧
        standingOf context.request.requestId desk.log = some .approved) : Later desk desk' := by
  constructor
  · intro planId id hfresh
    rw [hlog]
    cases hevent : event.chance planId id with
    | none => exact (fresh_other hevent).mpr hfresh
    | some chance =>
        cases chance with
        | true => exact fresh_self hevent
        | false => exact absurd hevent (hchance planId id)
  · intro hresumes
    rw [hlog]
    exact resumes_cons hresumes hresumed

/-- An event that uses nothing up, and starts no runner. -/
structure Quiet (event : ScopeEvent) : Prop where
  chance : ∀ planId id, event.chance planId id ≠ some false
  resumed : ∀ planId context, event ≠ .resumed planId context

theorem decided_quiet (id : String) (approved : Bool) : Quiet (.decided id approved) := by
  refine ⟨?_, fun _ _ h => ScopeEvent.noConfusion h⟩
  intro planId id'
  cases approved with
  | true => by_cases hid : id = id' <;> simp [ScopeEvent.chance, hid]
  | false => simp [ScopeEvent.chance]

theorem opened_quiet (id : String) : Quiet (.opened id) :=
  ⟨fun _ _ h => (by cases h), fun _ _ h => ScopeEvent.noConfusion h⟩

/-- What the store does is at most an opened or a decided request. -/
theorem eventOf_cases (op : StoreOp) (answer : op.Result) :
    eventOf op answer = [] ∨ ∃ event, eventOf op answer = [event] ∧ Quiet event := by
  cases op with
  | createApprovalRequest request =>
      cases answer with
      | error e => exact Or.inl rfl
      | ok decision => exact Or.inr ⟨_, rfl, opened_quiet _⟩
  | approveRequest id approvedBy decidedAt reason =>
      cases answer with
      | error e => exact Or.inl rfl
      | ok decision =>
          cases decision with
          | none => exact Or.inl rfl
          | some decision => exact Or.inr ⟨_, rfl, decided_quiet id true⟩
  | rejectRequest id rejectedBy decidedAt reason =>
      cases answer with
      | error e => exact Or.inl rfl
      | ok decision =>
          cases decision with
          | none => exact Or.inl rfl
          | some decision => exact Or.inr ⟨_, rfl, decided_quiet id false⟩
  | _ => exact Or.inl rfl

theorem Later.use (op : StoreOp) : Later desk (desk.use perform op) := by
  rcases eventOf_cases op (perform desk.store op).2 with hnone | ⟨event, hone, hquiet⟩
  · apply Later.of_eq
    show eventOf op _ ++ desk.log = desk.log
    rw [hnone]
    rfl
  · have hlog : (desk.use perform op).log = event :: desk.log := by
      show eventOf op _ ++ desk.log = event :: desk.log
      rw [hone]
      rfl
    exact Later.note hlog hquiet.chance fun planId context h =>
      absurd h (hquiet.resumed planId context)

theorem Later.ask (request : PersistedScopeExpansionRequest) (now : String) :
    Later desk (desk.createScopeExpansionApproval perform P request now).2 := by
  have hopened : Later desk (desk.opening perform P request now) := Later.use _
  unfold createScopeExpansionApproval
  dsimp only
  split
  · exact hopened
  · split
    · refine (hopened.trans (Later.use (.recordApprovalContinuationEnvelope
        (scopeEnvelope P.sha256 request now)))).trans (Later.note rfl ?_ ?_)
      · intro planId id
        by_cases hid : request.requestId = id <;> simp [ScopeEvent.chance, hid]
      · intro planId context h
        cases h
    · exact hopened

theorem Later.serve (now : String) (call : RepositoryCall) :
    Later desk (ScopeDesk.serve perform surroundings P now call desk).2 := by
  have hserves : Serves perform surroundings P now desk call _ := serve_cases now call
  have hanswered : Later desk (desk.answered surroundings call).2 := Later.of_eq rfl
  generalize ScopeDesk.serve perform surroundings P now call desk = served at hserves
  cases hserves with
  | thrown _ message => exact hanswered
  | outside _ answer hask => exact hanswered
  | asks request => exact hanswered.trans (Later.ask request now)
  | writes status written =>
      apply Later.of_eq
      unfold ScopeDesk.writeStatusFile
      split
      · rfl
      · rfl

/-! ### What the files list -/

/-- A listed request goes by one id, and if a resume could take it, it has a chance left. -/
structure Tracked (planId : String) (log : List ScopeEvent)
    (item : RepositoryScopeExpansionStatus) : Prop where
  id : item.approvalRequestId = item.request.requestId
  fresh : item.resumable = true → Fresh planId item.request.requestId log

/-- The file of a plan has the status of that plan, and lists tracked requests. -/
def Filed (log : List ScopeEvent) (files : String → StatusFile) : Prop :=
  ∀ planId status, files planId = .ok (some status) → status.Lists planId (Tracked planId log)

theorem Lists.later {status : RepositoryPlanStatus} {planId : String} (h : Later desk desk')
    (hlists : status.Lists planId (Tracked planId desk.log)) :
    status.Lists planId (Tracked planId desk'.log) := by
  refine ⟨hlists.planId, ?_⟩
  intro item hitem
  have htracked := hlists.requests item hitem
  exact ⟨htracked.id, fun hresumable => h.fresh _ _ (htracked.fresh hresumable)⟩

theorem Filed.later {files : String → StatusFile} (h : Later desk desk')
    (hfiled : Filed desk.log files) : Filed desk'.log files :=
  fun planId status hfile => Lists.later h (hfiled planId status hfile)

/-- A status that is tracked may be written. -/
theorem Filed.write {log : List ScopeEvent} {files : String → StatusFile}
    {status : RepositoryPlanStatus} (hfiled : Filed log files)
    (hstatus : status.Lists status.planId (Tracked status.planId log)) :
    Filed log (Function.update files status.planId (.ok (some status))) := by
  intro planId found hfile
  by_cases hplan : planId = status.planId
  · subst hplan
    rw [Function.update_self] at hfile
    have hsame : status = found := Option.some.inj (Except.ok.inj hfile)
    rw [← hsame]
    exact hstatus
  · rw [Function.update_of_ne hplan] at hfile
    exact hfiled planId found hfile

/-- The status files and the log agree. -/
structure Orderly (desk : ScopeDesk σ ω) : Prop where
  filed : Filed desk.log desk.files
  resumes : EveryScopeFresh desk.log

theorem Orderly.later (h : desk.Orderly) (hlater : Later desk desk')
    (hfiles : desk'.files = desk.files) : desk'.Orderly := by
  refine ⟨?_, hlater.resumes h.resumes⟩
  rw [hfiles]
  exact Filed.later hlater h.filed

theorem Orderly.filing {status : RepositoryPlanStatus} {planId : String} (h : desk.Orderly)
    (hstatus : status.Lists planId (Tracked planId desk.log)) : (desk.filing status).Orderly := by
  have hplan := hstatus.planId
  subst hplan
  exact ⟨h.filed.write hstatus, h.resumes⟩

theorem Orderly.writeStatusFile {status : RepositoryPlanStatus} {planId : String}
    (h : desk.Orderly) (hstatus : status.Lists planId (Tracked planId desk.log)) :
    (desk.writeStatusFile P status).2.Orderly := by
  unfold ScopeDesk.writeStatusFile
  split
  · exact h.filing hstatus
  · exact h

/-! ### A run of the runner -/

theorem createScopeExpansionApproval_files (request : PersistedScopeExpansionRequest)
    (now : String) :
    (desk.createScopeExpansionApproval perform P request now).2.files = desk.files := by
  unfold createScopeExpansionApproval
  dsimp only
  split
  · rfl
  · split
    · rfl
    · rfl

/-- An approval that was asked for has the id of the request, which has a chance now. -/
theorem asked_tracked (hb : KeepsConsent P.isDatetime tokenHash perform Ok) (hok : Ok desk.store)
    {request : PersistedScopeExpansionRequest} {now : String} {approval : ScopeApproval}
    (hlater : Later (desk.createScopeExpansionApproval perform P request now).2 desk')
    (hanswer : (desk.createScopeExpansionApproval perform P request now).1 = .ok approval)
    (planId : String) (r : RepositoryRunner) :
    Tracked planId desk'.log (scopeExpansionEntry P r request approval) := by
  have hcases : Asks perform P request now desk _ :=
    createScopeExpansionApproval_cases hb hok request now
  generalize desk.createScopeExpansionApproval perform P request now = made
    at hcases hlater hanswer
  cases hcases with
  | refused message => cases hanswer
  | asked decision hid hrequested hstore =>
      cases hanswer
      refine ⟨hid, ?_⟩
      intro _
      apply hlater.fresh
      show Fresh planId request.requestId (.asked request :: _)
      exact fresh_self (by simp [ScopeEvent.chance])

/-- What the calls of a run are answered with is tracked at its end. -/
theorem along_tracked (hb : KeepsConsent P.isDatetime tokenHash perform Ok)
    (h : desk.Kept perform P Ok) (o : RepositoryPlanRunnerOptions) (now planId : String) :
    Prog.Along (ScopeDesk.serve perform surroundings P now)
      (ListsAnswer P (Tracked planId
        (desk.runRepositoryPlan perform surroundings P o now).state.log))
      (constructAndRun P o) desk := by
  have hstates :=
    ((obeys_any (constructAndRun P o)).exec (serve_keeps surroundings hb now) h).2.1
  have hextends := (Prog.exec_extends (h := ScopeDesk.serve perform surroundings P now) Later.refl
    (fun _ _ _ => Later.trans) (fun call _ => Later.serve now call) (constructAndRun P o) desk).2
  intro c hc
  have hkept := (hstates c hc).1
  have hlater := hextends c hc
  obtain ⟨state, call⟩ := c
  intro answer hanswer
  have hserves : Serves perform surroundings P now state call _ := serve_cases now call
  dsimp only at hlater hanswer
  generalize ScopeDesk.serve perform surroundings P now call state = served
    at hserves hlater hanswer
  cases hserves with
  | thrown _ message => cases hanswer
  | outside _ answer hask =>
      cases call with
      | createScopeExpansionApproval request => exact absurd rfl (hask request)
      | _ => trivial
  | asks request =>
      intro r
      exact asked_tracked hb (hkept.answered _).ok hlater hanswer planId r
  | writes status written => trivial

/-- **A run keeps the files and the log in agreement**, and so is what it ends with. -/
theorem Orderly.runRepositoryPlan (hb : KeepsConsent P.isDatetime tokenHash perform Ok)
    (h : desk.Kept perform P Ok) (horderly : desk.Orderly) (o : RepositoryPlanRunnerOptions)
    (now planId : String)
    (hstart : ∀ now, (o.initialStatus.getD
      (createRepositoryPlanStatus o.planfile.planId now)).Lists planId (Tracked planId desk.log)) :
    (desk.runRepositoryPlan perform surroundings P o now).state.Orderly ∧
      ∀ result, (desk.runRepositoryPlan perform surroundings P o now).outcome = .ok result →
        result.status.Lists planId
          (Tracked planId (desk.runRepositoryPlan perform surroundings P o now).state.log) := by
  have hlater : Later desk (desk.runRepositoryPlan perform surroundings P o now).state :=
    (Prog.exec_extends Later.refl (fun _ _ _ => Later.trans)
      (fun call _ => Later.serve now call) (constructAndRun P o) desk).1
  have halong : Prog.Along (ScopeDesk.serve perform surroundings P now) _ _ desk :=
    along_tracked hb h o now planId
  have hlisting : Listing P planId
      (Tracked planId (desk.runRepositoryPlan perform surroundings P o now).state.log) _
        (constructAndRun P o) :=
    listing_constructAndRun fun now => Lists.later hlater (hstart now)
  obtain ⟨hcalls, hresult⟩ := hlisting.exec_along halong
  refine ⟨⟨?_, hlater.resumes horderly.resumes⟩, hresult⟩
  generalize hlog : (desk.runRepositoryPlan perform surroundings P o now).state.log = log
    at hcalls
  have hfiled : Filed log desk.files := by
    rw [← hlog]
    exact Filed.later hlater horderly.filed
  refine Prog.exec_keeps (I := fun desk' : ScopeDesk σ ω => Filed log desk'.files) ?_ hfiled
  intro c hc hfiles
  have hcall := hcalls c hc
  obtain ⟨state, call⟩ := c
  have hserves : Serves perform surroundings P now state call _ := serve_cases now call
  dsimp only at hfiles hcall ⊢
  generalize ScopeDesk.serve perform surroundings P now call state = served at hserves ⊢
  cases hserves with
  | thrown _ message => exact hfiles
  | outside _ answer hask => exact hfiles
  | asks request =>
      rw [createScopeExpansionApproval_files]
      exact hfiles
  | writes status written =>
      have hplan : status.planId = planId := RepositoryPlanStatus.Lists.planId hcall
      subst hplan
      unfold ScopeDesk.writeStatusFile
      split
      · exact hfiles.write hcall
      · exact hfiles

/-! ### Decisions -/

theorem scopeMarked_tracked {planId requestId now : String} {approved : Bool}
    {log : List ScopeEvent} {item : RepositoryScopeExpansionStatus}
    (h : Tracked planId log item) (hfresh : approved = true → Fresh planId requestId log) :
    Tracked planId log (scopeMarked requestId approved now item) := by
  unfold scopeMarked
  split
  · rename_i hid
    refine ⟨h.id, ?_⟩
    intro hresumable
    -- by either of its ids the item is the request that was decided
    have hrequest : item.request.requestId = requestId := by
      rcases hid with happroval | hrequest
      · rw [← h.id]
        exact happroval
      · exact hrequest
    cases approved with
    | true =>
        show Fresh planId item.request.requestId log
        rw [hrequest]
        exact hfresh rfl
    | false =>
        simp [RepositoryScopeExpansionStatus.resumable, markScopeExpansionRequest] at hresumable
  · exact h

theorem Orderly.updateScopeStatus (h : desk.Orderly) {planId requestId now : String}
    {approved : Bool} (hfresh : approved = true → Fresh planId requestId desk.log) :
    (desk.updateScopeStatus P planId requestId approved now).2.Orderly := by
  have hmarks : Marks P _ _ _ _ desk _ := updateScopeStatus_cases planId requestId approved now
  generalize desk.updateScopeStatus P planId requestId approved now = updated at hmarks
  cases hmarks with
  | refused message => exact h
  | missing => exact h
  | marked status hfile =>
      have hstatus := h.filed planId status hfile
      refine h.filing ⟨hstatus.planId, ?_⟩
      intro item hitem
      obtain ⟨old, hold, rfl⟩ := List.mem_map.mp hitem
      exact scopeMarked_tracked (hstatus.requests old hold) hfresh

/-- An approval that is let through leaves a chance to the request, if it has an envelope. -/
theorem fresh_approved (hb : KeepsConsent P.isDatetime tokenHash perform Ok)
    (h : desk.Kept perform P Ok) {requestId decidedBy reason now : String}
    {decision : Option ApprovalDecision} {envelope : ApprovalContinuationEnvelope}
    (hanswer : (perform desk.store (.approveRequest requestId decidedBy now reason)).2 =
      .ok decision)
    (henvelope : scopeEnvelopeOf perform
      (desk.use perform (.approveRequest requestId decidedBy now reason)).store requestId =
        some envelope) (planId : String) :
    Fresh planId requestId
      (desk.use perform (.approveRequest requestId decidedBy now reason)).log := by
  have hbefore : scopeEnvelopeOf perform desk.store requestId = some envelope := by
    unfold scopeEnvelopeOf at henvelope ⊢
    have hsame := hb.envelopes desk.store (.approveRequest requestId decidedBy now reason) h.ok
    rw [← henvelope]
    show _ = (approvalEnvelopeOf perform (perform desk.store _).1 requestId).filter _
    rw [hsame]
    rfl
  obtain ⟨existing, hexisting⟩ := h.decided requestId envelope hbefore
  have hdecided := hb.approved desk.store requestId decidedBy now reason h.ok
  rw [hanswer] at hdecided
  have hexisting : decisionsOf perform desk.store requestId = some existing := hexisting
  unfold Decisions.decide at hdecided
  rw [hexisting] at hdecided
  dsimp only at hdecided
  show Fresh planId requestId (eventOf _ _ ++ desk.log)
  rw [hanswer]
  split at hdecided
  · cases hdecided
  · cases hdecided
    exact fresh_self (by simp [ScopeEvent.chance])

theorem Orderly.decideRepositoryScopeRequest
    (hb : KeepsConsent P.isDatetime tokenHash perform Ok) (h : desk.Kept perform P Ok)
    (horderly : desk.Orderly) (requestId : String) (approved : Bool)
    (decidedBy reason now : String) :
    (desk.decideRepositoryScopeRequest perform P requestId approved decidedBy reason now).Orderly
      := by
  have hdecided : (desk.decideRequest perform requestId approved decidedBy reason now).2.Orderly ∧
      ∀ decision envelope,
        (desk.decideRequest perform requestId approved decidedBy reason now).1 = .ok decision →
        scopeEnvelopeOf perform
          (desk.decideRequest perform requestId approved decidedBy reason now).2.store requestId =
            some envelope → approved = true → ∀ planId, Fresh planId requestId
              (desk.decideRequest perform requestId approved decidedBy reason now).2.log := by
    cases approved with
    | true =>
        exact ⟨horderly.later (Later.use _) rfl, fun _ _ hanswer henvelope _ planId =>
          fresh_approved hb h hanswer henvelope planId⟩
    | false => exact ⟨horderly.later (Later.use _) rfl, fun _ _ _ _ happroved => by cases happroved⟩
  unfold ScopeDesk.decideRepositoryScopeRequest
  generalize desk.decideRequest perform requestId approved decidedBy reason now = decided
    at hdecided
  obtain ⟨answer, desk'⟩ := decided
  obtain ⟨horderly', hfresh⟩ := hdecided
  cases answer with
  | error e => exact horderly'
  | ok decision =>
      dsimp only
      split
      · exact horderly'
      · rename_i envelope henvelope
        exact horderly'.updateScopeStatus fun happroved =>
          hfresh decision envelope rfl henvelope happroved envelope.projectId

/-! ### Resuming -/

/-- What a resume finds in the file is a request with a chance left, and approved. -/
theorem Orderly.loaded (h : desk.Kept perform P Ok) (horderly : desk.Orderly) {planId : String}
    {context : ScopeExpansionResumeContext}
    (hload : loadApprovedScopeExpansionForResume perform P.isDatetime P.sha256 desk.store
      (desk.files planId) (surroundings.executionCopy desk.outside) planId = .ok context) :
    desk.files planId = .ok (some context.status) ∧
      context.status.Lists planId (Tracked planId desk.log) ∧
      Fresh planId context.request.requestId desk.log ∧
      standingOf context.request.requestId desk.log = some .approved := by
  obtain ⟨pending, payload, hloaded⟩ := ScopeDesk.loaded hload
  have hstatus := horderly.filed planId context.status hloaded.file
  have htracked := hstatus.requests pending (List.mem_of_find?_eq_some hloaded.first)
  obtain ⟨decision, hdecision, happroved⟩ := hloaded.approved
  have hstanding := h.approved _ decision hdecision happroved
  rw [hloaded.request]
  refine ⟨hloaded.file, hstatus, ?_, ?_⟩
  · exact htracked.fresh (by simpa using List.find?_some hloaded.first)
  · rw [← htracked.id]
    exact hstanding

/-- The desk with which a runner is started, and the status it goes on from. -/
theorem Orderly.resuming (h : desk.Kept perform P Ok) (horderly : desk.Orderly)
    {planId now : String} {context : ScopeExpansionResumeContext}
    {updated : Option RepositoryPlanStatus} {marked : ScopeDesk σ ω}
    (hstarted : Started perform surroundings P planId now desk context updated marked) :
    (marked.resuming context).Orderly ∧
      (updated.getD context.status).Lists planId
        (Tracked planId (marked.resuming context).log) := by
  obtain ⟨hfile, hstatus, hfresh, hstanding⟩ := horderly.loaded h hstarted.load
  have hplan : context.status.planId = planId := hstatus.planId
  have horderly' : (desk.updateScopeStatus P context.status.planId context.request.requestId true
      now).2.Orderly := by
    apply horderly.updateScopeStatus
    intro _
    rw [hplan]
    exact hfresh
  have hmarks : Marks P _ _ _ _ desk _ := updateScopeStatus_cases context.status.planId
    context.request.requestId true now
  rw [hstarted.mark] at hmarks horderly'
  have hlater : ∀ marked' : ScopeDesk σ ω, marked'.log = desk.log →
      Later marked' (marked'.resuming context) := by
    intro marked' hlog
    refine Later.note rfl (fun _ _ hchance => by cases hchance) ?_
    intro planId' context' hevent
    obtain ⟨rfl, rfl⟩ := ScopeEvent.resumed.inj hevent
    rw [hlog, hplan]
    exact ⟨hfresh, hstanding⟩
  cases hmarks with
  | missing =>
      have hlater := hlater desk rfl
      exact ⟨horderly'.later hlater rfl, Lists.later hlater hstatus⟩
  | marked status hfound =>
      have hlater := hlater
        (desk.filing (status.markScope context.request.requestId true now)) rfl
      have hwritten := horderly'.filed (status.markScope context.request.requestId true now).planId
        (status.markScope context.request.requestId true now) (Function.update_self ..)
      rw [hplan] at hfound
      have hplan' : (status.markScope context.request.requestId true now).planId = planId :=
        (horderly.filed planId status hfound).planId
      rw [hplan'] at hwritten
      exact ⟨horderly'.later hlater rfl, Lists.later hlater hwritten⟩

theorem scopeApplied_tracked {planId requestId now : String} {log : List ScopeEvent}
    {item : RepositoryScopeExpansionStatus} (h : Tracked planId log item) :
    Tracked planId (.applied planId requestId :: log) (scopeApplied requestId now item) := by
  unfold scopeApplied
  split
  · refine ⟨h.id, ?_⟩
    intro hresumable
    simp [RepositoryScopeExpansionStatus.resumable, markScopeExpansionRequest] at hresumable
  · rename_i hid
    refine ⟨h.id, ?_⟩
    intro hresumable
    exact (fresh_other (by simp [ScopeEvent.chance, Ne.symm hid])).mpr (h.fresh hresumable)

/-- Marking a request applied uses its chance up, and leaves the other plans theirs. -/
theorem Orderly.markScopeExpansionApplied (h : desk.Orderly) {status : RepositoryPlanStatus}
    {planId : String} (hstatus : status.Lists planId (Tracked planId desk.log))
    (requestId now : String) :
    (desk.markScopeExpansionApplied P status requestId now).Orderly := by
  unfold ScopeDesk.markScopeExpansionApplied ScopeDesk.writeStatusFile
  split
  · rename_i heq
    split at heq
    · cases (Prod.mk.inj heq).1
    · rw [← (Prod.mk.inj heq).2]
      exact h
  · rename_i written desk' heq
    split at heq
    · obtain ⟨hwritten, rfl⟩ := Prod.mk.inj heq
      have hwritten := Except.ok.inj hwritten
      subst hwritten
      have hplan : status.planId = planId := hstatus.planId
      subst hplan
      refine ⟨?_, resumes_cons h.resumes fun _ _ hevent => ScopeEvent.noConfusion hevent⟩
      intro planId' found hfile
      dsimp only at hfile
      by_cases hplan : planId' = (status.applyScope requestId now).planId
      · subst hplan
        rw [Function.update_self] at hfile
        have hsame := Option.some.inj (Except.ok.inj hfile)
        rw [← hsame]
        refine ⟨rfl, ?_⟩
        intro item hitem
        obtain ⟨old, hold, rfl⟩ := List.mem_map.mp hitem
        exact scopeApplied_tracked (hstatus.requests old hold)
      · rw [Function.update_of_ne hplan] at hfile
        have hother := h.filed planId' found hfile
        refine ⟨hother.planId, ?_⟩
        intro item hitem
        have htracked := hother.requests item hitem
        refine ⟨htracked.id, ?_⟩
        intro hresumable
        refine (fresh_other ?_).mpr (htracked.fresh hresumable)
        have hne : (status.applyScope requestId now).planId ≠ planId' := Ne.symm hplan
        simp [ScopeEvent.chance, hne]
    · cases (Prod.mk.inj heq).1

/-! ### Everything that is done -/

def Action.tampers : Action → Prop
  | .tamper _ _ => True
  | _ => False

/-- **Every action but tampering keeps the files and the log in agreement.** -/
theorem Orderly.step (hb : KeepsConsent P.isDatetime tokenHash perform Ok)
    (h : desk.Kept perform P Ok) (horderly : desk.Orderly) {action : Action}
    (haction : ¬ action.tampers) : (desk.step perform surroundings P action).Orderly := by
  cases action with
  | create planId now artifactRefs warnings =>
      have hnew : RepositoryPlanStatus.Lists planId (Tracked planId desk.log)
          { createRepositoryPlanStatus planId now with artifactRefs, warnings } :=
        ⟨rfl, fun item hitem => by cases hitem⟩
      exact horderly.writeStatusFile hnew
  | apply planfile session hasReviewReportGenerator now =>
      show (desk.applyRepositoryPlanfile perform surroundings P planfile session
        hasReviewReportGenerator now).Orderly
      unfold ScopeDesk.applyRepositoryPlanfile
      dsimp only
      split
      · have hnew : ∀ now, RepositoryPlanStatus.Lists planfile.planId
            (Tracked planfile.planId desk.log) (createRepositoryPlanStatus planfile.planId now) :=
          fun now => ⟨rfl, fun item hitem => by cases hitem⟩
        refine (horderly.runRepositoryPlan hb h _ now planfile.planId ?_).1
        exact hnew
      · exact horderly
  | decideScope requestId approved decidedBy reason now =>
      exact horderly.decideRepositoryScopeRequest hb h requestId approved decidedBy reason now
  | resume planId report now =>
      have hresumes : Resumes perform surroundings P planId report now desk _ :=
        resumeRepositoryPlan_cases planId report now
      show (desk.resumeRepositoryPlan perform surroundings P planId report now).Orderly
      generalize desk.resumeRepositoryPlan perform surroundings P planId report now = ended
        at hresumes
      cases hresumes with
      | refused => exact horderly
      | ran context session updated marked hstarted =>
          obtain ⟨horderly', hstart⟩ := horderly.resuming h hstarted
          exact (horderly'.runRepositoryPlan hb (h.resuming hstarted)
            (resumeOptions context session (updated.getD context.status) report now) now planId
              fun _ => hstart).1
      | applied context session updated marked result hstarted hresult =>
          obtain ⟨horderly', hstart⟩ := horderly.resuming h hstarted
          obtain ⟨hended, hresults⟩ := horderly'.runRepositoryPlan hb (h.resuming hstarted)
            (resumeOptions context session (updated.getD context.status) report now) now planId
              fun _ => hstart
          exact hended.markScopeExpansionApplied (hresults result hresult) _ now
  | cleanup planId cleaned =>
      show (desk.cleanupRepositoryPlan P planId cleaned).Orderly
      unfold ScopeDesk.cleanupRepositoryPlan
      split
      · rename_i status hfile
        split
        · exact horderly
        · exact horderly.writeStatusFile ((horderly.filed planId status hfile).of_eq rfl rfl)
      · exact horderly
  | use op other => exact horderly.later (Later.use op) rfl
  | tamper planId file => exact absurd trivial haction

/-- A resume that has a chance left and is approved was approved since it was applied. -/
theorem EveryScopeFresh.appliedOnce {log : List ScopeEvent} (h : EveryScopeFresh log) :
    AppliedOnce log := by
  intro later planId context between earlier hlog
  obtain ⟨hfresh, hstanding⟩ := h later planId context _ hlog
  exact approved_since hfresh hstanding

/-- What the log of a run says about the scope that was given. -/
structure Consented (sha256 : String → String) (actions : List Action) (log : List ScopeEvent) :
    Prop where
  consented : EveryScopeConsented sha256 log
  once : (∀ action ∈ actions, ¬ action.tampers) → AppliedOnce log

theorem run_consented (hb : KeepsConsent P.isDatetime tokenHash perform Ok) {store : σ}
    {outside : ω} (hempty : (initial store outside : ScopeDesk σ ω).Kept perform P Ok)
    (actions : List Action) :
    Consented P.sha256 actions
      (run perform surroundings P actions (initial store outside)).log := by
  have hrun : ∀ (actions : List Action) (desk : ScopeDesk σ ω), desk.Kept perform P Ok →
      (run perform surroundings P actions desk).Kept perform P Ok ∧
        (desk.Orderly → (∀ action ∈ actions, ¬ action.tampers) →
          (run perform surroundings P actions desk).Orderly) := by
    intro actions
    induction actions with
    | nil => exact fun desk h => ⟨h, fun horderly _ => horderly⟩
    | cons action rest ih =>
        intro desk h
        obtain ⟨hkept, horderly⟩ := ih (desk.step perform surroundings P action)
          (h.step hb action)
        refine ⟨hkept, ?_⟩
        intro hdesk hactions
        exact horderly (hdesk.step hb h (hactions action List.mem_cons_self)) fun other hother =>
          hactions other (List.mem_cons_of_mem _ hother)
  obtain ⟨hkept, horderly⟩ := hrun actions (initial store outside) hempty
  refine ⟨hkept.consented, ?_⟩
  intro hactions
  apply EveryScopeFresh.appliedOnce
  refine (horderly ⟨?_, ?_⟩ hactions).resumes
  · intro planId status hfile
    cases hfile
  · intro later planId context earlier hlog
    cases later <;> cases hlog

/-- The patch plan of a node that may not touch the file it needs. -/
def askingPatchPlan (input : GeneratePatchPlanFromEvidenceInput) : RepositoryPatchPlan :=
  { smoothPatchPlan input with
    requiresScopeExpansion := true
    scopeExpansionRequest := some
      { requestId := "scope"
        planId := input.planId
        nodeId := input.nodeId
        workOrderId := none
        reason := "One more file."
        requestedFiles := some ["src/index.ts"]
        requestedCapabilities := none
        requestedVerificationCommands := none
        requestedRiskLevel := none
        evidenceRefs := []
        latestFailureRefs := none
        status := none
        createdAt := none
        decidedAt := none
        approvalId := none } }

def askingAnswer : (call : RepositoryCall) → RepositoryAnswer call
  | .generatePatchPlan input => .patchPlan
      (if "src/index.ts" ∈ input.allowedFiles then smoothPatchPlan input else askingPatchPlan input)
  | call => smoothAnswer call

def askingPlan : Planfile :=
  samplePlan [sampleNode "frame_goal" .frame [],
    { sampleNode "patch_repo" .patch ["frame_goal"] with acceptanceRefs := ["done"] }]

def askingSurroundings : Surroundings Unit where
  answer call outside := (.ok (askingAnswer call), outside)
  executionCopy _ _ _ := .ok askingPlan

/-- What was given to runners, and what it was that they asked for or applied. -/
def ScopeEvent.seen : ScopeEvent → String × List String
  | .opened id => ("opened", [id])
  | .asked request => ("asked", request.requestedFiles.getD [])
  | .decided id _ => ("decided", [id])
  | .resumed _ context => ("resumed", context.requestedFiles)
  | .applied _ id => ("applied", [id])

-- A resume is refused before the approval, and again after the request was applied.
example : (run (MemoryStores.perform (fun _ => true) id) askingSurroundings sampleRepositoryPlatform
    [.apply askingPlan sampleWorktree false "now", .resume "plan" false "now",
      .decideScope "scope" true "operator" "because" "now", .resume "plan" false "now",
      .resume "plan" false "now"] (initial .empty ())).log.map ScopeEvent.seen =
    [("applied", ["scope"]), ("resumed", ["src/index.ts"]), ("decided", ["scope"]),
      ("asked", ["src/index.ts"]), ("opened", ["scope"])] := by
  decide +kernel

end ScopeDesk

end OpenLagrange
