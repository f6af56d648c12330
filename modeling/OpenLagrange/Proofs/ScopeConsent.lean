/-
When a run is given more scope.

What a resume gives to a runner was asked for and approved.  The envelope of a request holds the
content that was asked for last, and creating the approval request took back whatever decision
there was; so a decision that is an approval was made since.  The digest then ties what the status
lists to that content, whoever wrote the status.

A request that was applied is not given again without a new approval, as long as only these
operations write the status files.  A request that a file lists and a resume could take has been
asked for or approved since it was applied last, and asking takes the approval back.

Both are read off the log, which has the newest first.
-/
import OpenLagrange.Proofs.ApprovalFinality
import OpenLagrange.Proofs.ScopeDigest
import OpenLagrange.Proofs.ScopeRequests
import OpenLagrange.Repository.RepositoryPlanControl

namespace OpenLagrange

open RepositoryPlanRunner

/-! ### What the log says about a request -/

inductive Standing where
  | opened | asked | approved | rejected
  deriving DecidableEq

/-- What an event does to the standing of a request. -/
def ScopeEvent.standing (id : String) : ScopeEvent → Option Standing
  | .opened requestId => if requestId = id then some .opened else none
  | .asked request => if request.requestId = id then some .asked else none
  | .decided requestId approved =>
      if requestId = id then some (if approved then .approved else .rejected) else none
  | .resumed _ _ | .applied _ _ => none

def ScopeEvent.askedFor (id : String) : ScopeEvent → Option PersistedScopeExpansionRequest
  | .asked request => if request.requestId = id then some request else none
  | _ => none

/-- Whether an event gives a request of a plan a new chance, or uses it up. -/
def ScopeEvent.chance (planId id : String) : ScopeEvent → Option Bool
  | .asked request => if request.requestId = id then some true else none
  | .decided requestId true => if requestId = id then some true else none
  | .applied plan requestId => if plan = planId ∧ requestId = id then some false else none
  | _ => none

/-- What the last event about a request made of it. -/
def standingOf (id : String) (log : List ScopeEvent) : Option Standing :=
  log.findSome? (·.standing id)

/-- The content that was asked for last under an id. -/
def lastAsked (id : String) (log : List ScopeEvent) : Option PersistedScopeExpansionRequest :=
  log.findSome? (·.askedFor id)

/-- Asked for or approved since it was applied last. -/
def Fresh (planId id : String) (log : List ScopeEvent) : Prop :=
  log.findSome? (·.chance planId id) = some true

/-- What a runner is given with a context was asked for, and approved afterwards. -/
structure ConsentedTo (sha256 : String → String) (context : ScopeExpansionResumeContext)
    (asked : PersistedScopeExpansionRequest) (earlier : List ScopeEvent) : Prop where
  last : lastAsked asked.requestId earlier = some asked
  approved : standingOf asked.requestId earlier = some .approved
  scope : SameScope asked context.request ∨
    Collision sha256 (scopeText asked) (scopeText context.request)
  files : context.requestedFiles = asked.requestedFiles.getD []
  capabilities : context.requestedCapabilities = asked.requestedCapabilities.getD []
  commands :
    context.requestedVerificationCommands = asked.requestedVerificationCommands.getD []

/-- Every runner of a log was given only what was asked for and approved. -/
def EveryScopeConsented (sha256 : String → String) (log : List ScopeEvent) : Prop :=
  ∀ later planId context earlier, log = later ++ .resumed planId context :: earlier →
    ∃ asked, ConsentedTo sha256 context asked earlier

/-- Every runner of a log was given a request that is approved and has a chance left. -/
def EveryScopeFresh (log : List ScopeEvent) : Prop :=
  ∀ later planId context earlier, log = later ++ .resumed planId context :: earlier →
    Fresh planId context.request.requestId earlier ∧
      standingOf context.request.requestId earlier = some .approved

/-- A request that was applied is approved again before a runner is given it again. -/
def AppliedOnce (log : List ScopeEvent) : Prop :=
  ∀ later planId context between earlier,
    log = later ++ .resumed planId context ::
      (between ++ .applied planId context.request.requestId :: earlier) →
    .decided context.request.requestId true ∈ between

section Logs

variable {log : List ScopeEvent} {event : ScopeEvent}

theorem standingOf_other {id : String} (h : event.standing id = none) :
    standingOf id (event :: log) = standingOf id log := by
  rw [standingOf, List.findSome?_cons, h]
  rfl

theorem standingOf_self {id : String} {standing : Standing}
    (h : event.standing id = some standing) : standingOf id (event :: log) = some standing := by
  rw [standingOf, List.findSome?_cons, h]

theorem lastAsked_other {id : String} (h : event.askedFor id = none) :
    lastAsked id (event :: log) = lastAsked id log := by
  rw [lastAsked, List.findSome?_cons, h]
  rfl

theorem fresh_other {planId id : String} (h : event.chance planId id = none) :
    Fresh planId id (event :: log) ↔ Fresh planId id log := by
  rw [Fresh, List.findSome?_cons, h]
  rfl

theorem fresh_self {planId id : String} (h : event.chance planId id = some true) :
    Fresh planId id (event :: log) := by
  rw [Fresh, List.findSome?_cons, h]

/-- A property of the parts of a log behind its resumes holds of a longer log if the new event
meets it. -/
theorem resumes_cons {holds : String → ScopeExpansionResumeContext → List ScopeEvent → Prop}
    (hlog : ∀ later planId context earlier, log = later ++ .resumed planId context :: earlier →
      holds planId context earlier)
    (hevent : ∀ planId context, event = .resumed planId context → holds planId context log) :
    ∀ later planId context earlier, event :: log = later ++ .resumed planId context :: earlier →
      holds planId context earlier := by
  intro later planId context earlier h
  cases later with
  | nil =>
      obtain ⟨hhead, htail⟩ := List.cons.inj h
      rw [← htail]
      exact hevent planId context hhead
  | cons first later =>
      obtain ⟨-, htail⟩ := List.cons.inj h
      exact hlog later planId context earlier htail

/-- What gives a request a chance gives it a standing too. -/
theorem chance_ne_true {planId id : String} (h : event.standing id = none) :
    event.chance planId id ≠ some true := by
  cases event with
  | asked request =>
      have hid : request.requestId ≠ id := by simpa [ScopeEvent.standing] using h
      simp [ScopeEvent.chance, hid]
  | decided requestId approved =>
      have hid : requestId ≠ id := by simpa [ScopeEvent.standing] using h
      cases approved <;> simp [ScopeEvent.chance, hid]
  | _ => simp [ScopeEvent.chance]

theorem decided_of_approved {id : String} (h : event.standing id = some .approved) :
    event = .decided id true := by
  cases event with
  | decided requestId approved =>
      by_cases hid : requestId = id
      · cases approved <;> simp_all [ScopeEvent.standing]
      · simp [ScopeEvent.standing, hid] at h
  | _ => simp [ScopeEvent.standing] at h

/-- What has a chance left and is approved was approved since it was applied. -/
theorem approved_since {planId id : String} {between earlier : List ScopeEvent}
    (hfresh : Fresh planId id (between ++ .applied planId id :: earlier))
    (happroved : standingOf id (between ++ .applied planId id :: earlier) = some .approved) :
    .decided id true ∈ between := by
  induction between with
  | nil =>
      have hspent : (ScopeEvent.applied planId id).chance planId id = some false := by
        simp [ScopeEvent.chance]
      rw [Fresh, List.nil_append, List.findSome?_cons, hspent] at hfresh
      cases hfresh
  | cons event between ih =>
      rw [standingOf, List.cons_append, List.findSome?_cons] at happroved
      rw [Fresh, List.cons_append, List.findSome?_cons] at hfresh
      cases hstanding : event.standing id with
      | some standing =>
          rw [hstanding] at happroved
          rw [Option.some.inj happroved] at hstanding
          rw [decided_of_approved hstanding]
          exact List.mem_cons_self
      | none =>
          rw [hstanding] at happroved
          have hnot : event.chance planId id ≠ some true := chance_ne_true hstanding
          cases hchance : event.chance planId id with
          | some chance =>
              rw [hchance] at hfresh hnot
              exact absurd hfresh hnot
          | none =>
              rw [hchance] at hfresh
              exact List.mem_cons_of_mem _ (ih hfresh happroved)

end Logs

/-! ### Stores that keep envelopes -/

section Stores

variable {σ : Type}

/-- The envelope of every request. -/
abbrev Envelopes := String → Option ApprovalContinuationEnvelope

/-- What an operation does to the envelopes, whatever the backend. -/
def Envelopes.after (envelopes : Envelopes) : StoreOp → Envelopes
  | .recordApprovalContinuationEnvelope envelope =>
      Function.update envelopes envelope.approvalRequest.approvalRequestId (some envelope)
  | _ => envelopes

/-- A backend that keeps decisions and envelopes, and says what it did. -/
structure KeepsConsent (isDatetime : String → Bool) (tokenHash : String → String)
    (perform : StoreBackend σ) (Ok : σ → Prop) : Prop
    extends KeepsDecisions isDatetime tokenHash perform Ok where
  created : ∀ s request, Ok s →
    (perform s (.createApprovalRequest request)).2 = request.parse isDatetime tokenHash
  rejected : ∀ s id rejectedBy decidedAt reason, Ok s →
    (perform s (.rejectRequest id rejectedBy decidedAt reason)).2
      = ((decisionsOf perform s).decide isDatetime id (.reject rejectedBy decidedAt reason)).2
  envelopes : ∀ s op, Ok s → approvalEnvelopeOf perform (perform s op).1
    = Envelopes.after (approvalEnvelopeOf perform s) op

variable {isDatetime : String → Bool} {tokenHash : String → String}

theorem memory_keepsConsent : KeepsConsent isDatetime tokenHash
    (MemoryStores.perform isDatetime tokenHash) fun _ => True := by
  refine ⟨memory_keepsDecisions, ?_, ?_, ?_⟩
  · intro m request _
    show (m.createApprovalRequest isDatetime tokenHash request).2 = _
    unfold MemoryStores.createApprovalRequest
    cases request.parse isDatetime tokenHash with
    | error e => rfl
    | ok decision => rfl
  · intro m id rejectedBy decidedAt reason _
    exact (m.decideRequest_decisions id (.reject rejectedBy decidedAt reason) fun _ => rfl).2
  · intro m op _
    cases op with
    | recordApprovalContinuationEnvelope envelope =>
        funext id
        show (m.continuationEnvelopes.upsert envelope).get id = _
        rw [Table.Keyed.get_upsert]
        rfl
    | createApprovalRequest request =>
        show (m.createApprovalRequest isDatetime tokenHash request).1.continuationEnvelopes.get = _
        unfold MemoryStores.createApprovalRequest
        cases request.parse isDatetime tokenHash with
        | error e => rfl
        | ok decision => rfl
    | approveRequest id approvedBy decidedAt reason =>
        show (m.decideRequest isDatetime id _).1.continuationEnvelopes.get = _
        unfold MemoryStores.decideRequest
        cases m.getApprovalDecision id with
        | none => rfl
        | some existing =>
            dsimp only
            split <;> rfl
    | rejectRequest id rejectedBy decidedAt reason =>
        show (m.decideRequest isDatetime id _).1.continuationEnvelopes.get = _
        unfold MemoryStores.decideRequest
        cases m.getApprovalDecision id with
        | none => rfl
        | some existing =>
            dsimp only
            split <;> rfl
    | getApprovalDecision _ | getApprovalDecisionForTask _ | recordContinuationContext _
    | getContinuationContext _ | getApprovalContinuationEnvelope _ | recordTaskStatus _
    | getTaskStatus _ | getTaskStatusByTaskId _ | listTaskStatusesForProject _
    | recordNodeAttempt _ | listNodeAttempts _ _ => rfl

theorem sqlite_keepsConsent {db : Database} : KeepsConsent isDatetime tokenHash
    (SqliteStores.perform isDatetime tokenHash db) fun s => ∃ m, Mirrors m s := by
  have hsim := @stores_simulate isDatetime tokenHash db
  have hmem := @memory_keepsConsent isDatetime tokenHash
  have hof : ∀ {m : MemoryStores} {s : SqliteStores}, Mirrors m s →
      approvalEnvelopeOf (SqliteStores.perform isDatetime tokenHash db) s
        = approvalEnvelopeOf (MemoryStores.perform isDatetime tokenHash) m := by
    intro m s hms
    funext id
    exact (hsim.agrees m s (.getApprovalContinuationEnvelope id) hms trivial).symm
  have hdecisions : ∀ {m : MemoryStores} {s : SqliteStores}, Mirrors m s →
      decisionsOf (SqliteStores.perform isDatetime tokenHash db) s
        = decisionsOf (MemoryStores.perform isDatetime tokenHash) m := by
    intro m s hms
    funext id
    exact (hms.getApprovalDecision id).symm
  refine ⟨sqlite_keepsDecisions, ?_, ?_, ?_⟩
  · intro s request hs
    obtain ⟨m, hms⟩ := hs
    rw [← hmem.created m request trivial]
    exact (hsim.agrees m s (.createApprovalRequest request) hms trivial).symm
  · intro s id rejectedBy decidedAt reason hs
    obtain ⟨m, hms⟩ := hs
    rw [hdecisions hms, ← hmem.rejected m id rejectedBy decidedAt reason trivial]
    exact (hsim.agrees m s (.rejectRequest id rejectedBy decidedAt reason) hms trivial).symm
  · intro s op hs
    obtain ⟨m, hms⟩ := hs
    rw [hof hms, hof (hsim.keeps m s op hms)]
    exact hmem.envelopes m op trivial

end Stores

namespace ScopeDesk

variable {σ ω : Type} {perform : StoreBackend σ} {surroundings : Surroundings ω}
  {P : RepositoryPlatform} {tokenHash : String → String} {Ok : σ → Prop} {desk : ScopeDesk σ ω}

/-! ### What the store holds -/

/-- The store agrees with the log, and so far everything that was given was consented to. -/
structure Kept (perform : StoreBackend σ) (P : RepositoryPlatform) (Ok : σ → Prop)
    (desk : ScopeDesk σ ω) : Prop where
  ok : Ok desk.store
  /-- A request with an envelope has a decision. -/
  decided : ∀ id envelope, scopeEnvelopeOf perform desk.store id = some envelope →
    ∃ decision, approvalDecisionOf perform desk.store id = some decision
  /-- An envelope holds what was asked for last. -/
  envelope : ∀ id envelope, scopeEnvelopeOf perform desk.store id = some envelope →
    ∃ asked, lastAsked id desk.log = some asked ∧
      envelope.payload = (scopeApprovalPayload P.sha256 asked).value
  /-- A request whose decision is an approval was approved last. -/
  approved : ∀ id decision, approvalDecisionOf perform desk.store id = some decision →
    decision.decision = .approved → standingOf id desk.log = some .approved
  consented : EveryScopeConsented P.sha256 desk.log

theorem lastAsked_id {id : String} {log : List ScopeEvent} {asked : PersistedScopeExpansionRequest}
    (h : lastAsked id log = some asked) : asked.requestId = id := by
  obtain ⟨event, -, hevent⟩ := List.exists_of_findSome?_eq_some h
  cases event with
  | asked request =>
      by_cases hid : request.requestId = id
      · simp only [ScopeEvent.askedFor, hid, if_true, Option.some.injEq] at hevent
        rw [← hevent]
        exact hid
      · simp [ScopeEvent.askedFor, hid] at hevent
  | _ => cases hevent

/-- Only the store and the log count. -/
theorem Kept.of_eq {desk' : ScopeDesk σ ω} (h : desk.Kept perform P Ok)
    (hstore : desk'.store = desk.store) (hlog : desk'.log = desk.log) :
    desk'.Kept perform P Ok := by
  constructor
  · rw [hstore]
    exact h.ok
  · rw [hstore]
    exact h.decided
  · rw [hstore, hlog]
    exact h.envelope
  · rw [hstore, hlog]
    exact h.approved
  · rw [hlog]
    exact h.consented

/-- An event about no request leaves the store in agreement with the log. -/
theorem Kept.note {event : ScopeEvent} (h : desk.Kept perform P Ok)
    (hstanding : ∀ id, event.standing id = none) (hasked : ∀ id, event.askedFor id = none)
    (hresumed : ∀ planId context, event = .resumed planId context →
      ∃ asked, ConsentedTo P.sha256 context asked desk.log) :
    Kept perform P Ok { desk with log := event :: desk.log } := by
  refine ⟨h.ok, h.decided, ?_, ?_, resumes_cons h.consented hresumed⟩
  · intro id envelope henvelope
    show ∃ asked, lastAsked id (event :: desk.log) = some asked ∧ _
    rw [lastAsked_other (hasked id)]
    exact h.envelope id envelope henvelope
  · intro id decision hdecision happroved
    show standingOf id (event :: desk.log) = some .approved
    rw [standingOf_other (hstanding id)]
    exact h.approved id decision hdecision happroved

/-- Deciding a request does nothing, or it is refused, or the verdict is written. -/
theorem decide_cases (decisions : Decisions) (id : String)
    (verdict : ApprovalDecision → ApprovalDecision) :
    decisions.decide P.isDatetime id verdict = (decisions, .ok none) ∨
      (∃ e, decisions.decide P.isDatetime id verdict = (decisions, .error e)) ∨
      ∃ existing, decisions.decide P.isDatetime id verdict =
        (Function.update decisions id (some (verdict existing)),
          .ok (some (verdict existing))) := by
  unfold Decisions.decide
  cases decisions id with
  | none => exact Or.inl rfl
  | some existing =>
      dsimp only
      cases hparse : (verdict existing).parse P.isDatetime with
      | error e => exact Or.inr (Or.inl ⟨e, rfl⟩)
      | ok decision =>
          have hdecision := ApprovalDecision.parse_eq hparse
          subst hdecision
          exact Or.inr (Or.inr ⟨existing, rfl⟩)

/-- What an operation does to the decisions, and what the log says of it. -/
inductive Uses (decisions : Decisions) : Decisions → List ScopeEvent → Prop
  | nothing : Uses decisions decisions []
  | opened (id : String) (decision : ApprovalDecision) (h : decision.decision = .requested) :
      Uses decisions (Function.update decisions id (some decision)) [.opened id]
  | decided (id : String) (approved : Bool) (decision : ApprovalDecision)
      (h : decision.decision = if approved then .approved else .rejected) :
      Uses decisions (Function.update decisions id (some decision)) [.decided id approved]

theorem use_cases (hb : KeepsConsent P.isDatetime tokenHash perform Ok) (hok : Ok desk.store)
    (op : StoreOp) : Uses (decisionsOf perform desk.store)
      (decisionsOf perform (perform desk.store op).1) (eventOf op (perform desk.store op).2) := by
  have hafter := hb.after desk.store op hok
  rw [hafter]
  unfold Decisions.after
  cases op with
  | createApprovalRequest request =>
      rw [hb.created desk.store request hok]
      dsimp only
      cases hparse : request.parse P.isDatetime tokenHash with
      | error e => exact .nothing
      | ok decision =>
          refine .opened request.approvalRequestId decision ?_
          rw [ApprovalRequest.parse_eq hparse]
          rfl
  | approveRequest id approvedBy decidedAt reason =>
      have hanswer := hb.approved desk.store id approvedBy decidedAt reason hok
      rw [hanswer]
      dsimp only
      rcases decide_cases (decisionsOf perform desk.store) id (.approve approvedBy decidedAt reason)
        with h | ⟨e, h⟩ | ⟨existing, h⟩
      · rw [h]
        exact .nothing
      · rw [h]
        exact .nothing
      · rw [h]
        exact .decided id true _ rfl
  | rejectRequest id rejectedBy decidedAt reason =>
      have hanswer := hb.rejected desk.store id rejectedBy decidedAt reason hok
      rw [hanswer]
      dsimp only
      rcases decide_cases (decisionsOf perform desk.store) id (.reject rejectedBy decidedAt reason)
        with h | ⟨e, h⟩ | ⟨existing, h⟩
      · rw [h]
        exact .nothing
      · rw [h]
        exact .nothing
      · rw [h]
        exact .decided id false _ rfl
  | _ => exact .nothing

/-- Whatever is done to the store, a decision that is there stays there. -/
theorem decided_update {decisions : Decisions} {id id' : String} {decision : ApprovalDecision}
    (h : ∃ d, decisions id' = some d) :
    ∃ d, Function.update decisions id (some decision) id' = some d := by
  by_cases hid : id' = id
  · subst hid
    exact ⟨decision, Function.update_self ..⟩
  · rw [Function.update_of_ne hid]
    exact h

/-- A decision that is written agrees with the log if its event tells of it, and of no other. -/
theorem Kept.approved_update (h : desk.Kept perform P Ok) {id' : String}
    {written : ApprovalDecision} {event : ScopeEvent}
    (hother : ∀ id, id ≠ id' → event.standing id = none)
    (hself : written.decision = .approved → event.standing id' = some .approved) (id : String)
    (decision : ApprovalDecision)
    (hdecision : Function.update (decisionsOf perform desk.store) id' (some written) id =
      some decision) (happroved : decision.decision = .approved) :
    standingOf id (event :: desk.log) = some .approved := by
  by_cases hid : id = id'
  · rw [hid, Function.update_self] at hdecision
    rw [← Option.some.inj hdecision] at happroved
    rw [hid]
    exact standingOf_self (hself happroved)
  · rw [Function.update_of_ne hid] at hdecision
    rw [standingOf_other (hother id hid)]
    exact h.approved id decision hdecision happroved

/-- What is done to the decisions agrees with the log, whatever becomes of the envelopes. -/
theorem Kept.uses (h : desk.Kept perform P Ok) {after : Decisions} {events : List ScopeEvent}
    (huses : Uses (decisionsOf perform desk.store) after events) :
    (∀ id, (∃ d, decisionsOf perform desk.store id = some d) → ∃ d, after id = some d) ∧
      (∀ id, lastAsked id (events ++ desk.log) = lastAsked id desk.log) ∧
      (∀ id decision, after id = some decision → decision.decision = .approved →
        standingOf id (events ++ desk.log) = some .approved) ∧
      EveryScopeConsented P.sha256 (events ++ desk.log) := by
  cases huses with
  | nothing => exact ⟨fun _ hd => hd, fun _ => rfl, h.approved, h.consented⟩
  | opened id' d hd =>
      refine ⟨fun _ hold => decided_update hold, fun _ => rfl, h.approved_update ?_ ?_,
        resumes_cons h.consented fun _ _ hresumed => ScopeEvent.noConfusion hresumed⟩
      · intro id hid
        simp [ScopeEvent.standing, Ne.symm hid]
      · intro happroved
        rw [hd] at happroved
        cases happroved
  | decided id' approved d hd =>
      refine ⟨fun _ hold => decided_update hold, fun _ => rfl, h.approved_update ?_ ?_,
        resumes_cons h.consented fun _ _ hresumed => ScopeEvent.noConfusion hresumed⟩
      · intro id hid
        simp [ScopeEvent.standing, Ne.symm hid]
      · intro happroved
        rw [hd] at happroved
        cases approved with
        | true => simp [ScopeEvent.standing]
        | false => cases happroved

/-- **Using the store otherwise** keeps it in agreement with the log. -/
theorem Kept.use (hb : KeepsConsent P.isDatetime tokenHash perform Ok)
    (h : desk.Kept perform P Ok) {op : StoreOp}
    (hother : ∀ envelope, op = .recordApprovalContinuationEnvelope envelope →
      envelope.kind ≠ "scope_expansion") :
    (desk.use perform op).Kept perform P Ok := by
  have henvelopes : ∀ id envelope, scopeEnvelopeOf perform (perform desk.store op).1 id =
      some envelope → scopeEnvelopeOf perform desk.store id = some envelope := by
    intro id envelope henvelope
    unfold scopeEnvelopeOf at henvelope ⊢
    rw [hb.envelopes desk.store op h.ok] at henvelope
    cases op with
    | recordApprovalContinuationEnvelope recorded =>
        by_cases hid : id = recorded.approvalRequest.approvalRequestId
        · -- what is recorded is no envelope of a scope request
          have hkind := hother recorded rfl
          rw [hid] at henvelope
          obtain ⟨hsome, hscope⟩ := Option.filter_eq_some_iff.mp henvelope
          have hsame : Function.update (approvalEnvelopeOf perform desk.store)
              recorded.approvalRequest.approvalRequestId (some recorded)
              recorded.approvalRequest.approvalRequestId = some envelope := hsome
          rw [Function.update_self, Option.some.injEq] at hsame
          rw [hsame] at hkind
          exact absurd (of_decide_eq_true hscope) hkind
        · simpa [Envelopes.after, hid] using henvelope
    | _ => exact henvelope
  obtain ⟨hdecided, hlast, happroved, hconsented⟩ := h.uses (use_cases hb h.ok op)
  refine ⟨hb.ok _ _ h.ok, ?_, ?_, happroved, hconsented⟩
  · intro id envelope henvelope
    exact hdecided id (h.decided id envelope (henvelopes id envelope henvelope))
  · intro id envelope henvelope
    show ∃ asked, lastAsked id (eventOf op (perform desk.store op).2 ++ desk.log) = some asked ∧ _
    rw [hlast]
    exact h.envelope id envelope (henvelopes id envelope henvelope)

/-! ### Asking -/

/-- The desk once the approval request of a scope request was created. -/
def opening (perform : StoreBackend σ) (P : RepositoryPlatform)
    (request : PersistedScopeExpansionRequest) (now : String) (desk : ScopeDesk σ ω) :
    ScopeDesk σ ω :=
  desk.use perform (.createApprovalRequest (scopeApprovalRequest P.sha256 request now))

/-- The desk once its content was kept. -/
def asking (perform : StoreBackend σ) (P : RepositoryPlatform)
    (request : PersistedScopeExpansionRequest) (now : String) (desk : ScopeDesk σ ω) :
    ScopeDesk σ ω :=
  let opened := desk.opening perform P request now
  { opened with
    store := (perform opened.store
      (.recordApprovalContinuationEnvelope (scopeEnvelope P.sha256 request now))).1
    log := .asked request :: opened.log }

/-- How asking for an approval ends. -/
inductive Asks (perform : StoreBackend σ) (P : RepositoryPlatform)
    (request : PersistedScopeExpansionRequest) (now : String) (desk : ScopeDesk σ ω) :
    Except String ScopeApproval × ScopeDesk σ ω → Prop
  /-- A schema refuses something; the request may have been opened. -/
  | refused (message : String) :
      Asks perform P request now desk (.error message, desk.opening perform P request now)
  | asked (decision : ApprovalDecision) (hid : decision.approvalRequestId = request.requestId)
      (hrequested : decision.decision = .requested)
      (hstore : decisionsOf perform (desk.opening perform P request now).store request.requestId =
        some decision) :
      Asks perform P request now desk
        (.ok ⟨decision.approvalRequestId, decision.decision⟩, desk.asking perform P request now)

theorem createScopeExpansionApproval_cases (hb : KeepsConsent P.isDatetime tokenHash perform Ok)
    (hok : Ok desk.store) (request : PersistedScopeExpansionRequest) (now : String) :
    Asks perform P request now desk
      (desk.createScopeExpansionApproval perform P request now) := by
  have hanswer := hb.created desk.store (scopeApprovalRequest P.sha256 request now) hok
  have hstore := hb.after desk.store
    (.createApprovalRequest (scopeApprovalRequest P.sha256 request now)) hok
  unfold createScopeExpansionApproval answerOf
  dsimp only
  generalize (perform desk.store
    (.createApprovalRequest (scopeApprovalRequest P.sha256 request now))).2 = answer at hanswer
  subst hanswer
  unfold Decisions.after at hstore
  dsimp only at hstore
  cases hparse : (scopeApprovalRequest P.sha256 request now).parse P.isDatetime tokenHash with
  | error e => exact .refused _
  | ok decision =>
      rw [hparse] at hstore
      have hdecision := ApprovalRequest.parse_eq hparse
      dsimp only
      split
      · refine .asked decision ?_ ?_ ?_
        · rw [hdecision]
          rfl
        · rw [hdecision]
          rfl
        · show decisionsOf perform (perform desk.store _).1 request.requestId = some decision
          rw [hstore]
          exact Function.update_self ..
      · exact .refused _

/-- **Asking for an approval** keeps the store in agreement with the log. -/
theorem Kept.ask (hb : KeepsConsent P.isDatetime tokenHash perform Ok)
    (h : desk.Kept perform P Ok) (request : PersistedScopeExpansionRequest) (now : String) :
    (desk.createScopeExpansionApproval perform P request now).2.Kept perform P Ok := by
  have hopened : (desk.opening perform P request now).Kept perform P Ok :=
    h.use hb fun envelope henvelope => StoreOp.noConfusion henvelope
  have hcases := createScopeExpansionApproval_cases hb h.ok request now
  generalize desk.createScopeExpansionApproval perform P request now = made at hcases
  cases hcases with
  | refused message => exact hopened
  | asked decision hid hrequested hstore =>
      show (desk.asking perform P request now).Kept perform P Ok
      unfold asking
      dsimp only
      generalize desk.opening perform P request now = opened at hopened hstore ⊢
      have hdecisions : decisionsOf perform (perform opened.store
          (.recordApprovalContinuationEnvelope (scopeEnvelope P.sha256 request now))).1 =
            decisionsOf perform opened.store := hb.after opened.store _ hopened.ok
      have henvelopes : approvalEnvelopeOf perform (perform opened.store
          (.recordApprovalContinuationEnvelope (scopeEnvelope P.sha256 request now))).1 =
            Function.update (approvalEnvelopeOf perform opened.store) request.requestId
              (some (scopeEnvelope P.sha256 request now)) :=
        hb.envelopes opened.store _ hopened.ok
      -- what another request has is what it had before
      have hothers : ∀ id envelope, id ≠ request.requestId →
          scopeEnvelopeOf perform (perform opened.store
            (.recordApprovalContinuationEnvelope (scopeEnvelope P.sha256 request now))).1 id =
              some envelope → scopeEnvelopeOf perform opened.store id = some envelope := by
        intro id envelope hid henvelope
        unfold scopeEnvelopeOf at henvelope ⊢
        rw [henvelopes, Function.update_of_ne hid] at henvelope
        exact henvelope
      refine ⟨hb.ok _ _ hopened.ok, ?_, ?_, ?_,
        resumes_cons hopened.consented fun _ _ hresumed => ScopeEvent.noConfusion hresumed⟩
      · intro id envelope henvelope
        show ∃ d, decisionsOf perform (perform opened.store _).1 id = some d
        rw [hdecisions]
        by_cases hid : id = request.requestId
        · rw [hid]
          exact ⟨decision, hstore⟩
        · exact hopened.decided id envelope (hothers id envelope hid henvelope)
      · intro id envelope henvelope
        show ∃ asked, lastAsked id (.asked request :: opened.log) = some asked ∧ _
        by_cases hid : id = request.requestId
        · refine ⟨request, ?_, ?_⟩
          · rw [lastAsked, List.findSome?_cons]
            simp [ScopeEvent.askedFor, hid]
          · unfold scopeEnvelopeOf at henvelope
            rw [henvelopes, hid, Function.update_self] at henvelope
            obtain ⟨hsame, -⟩ := Option.filter_eq_some_iff.mp henvelope
            rw [← Option.some.inj hsame]
            rfl
        · rw [lastAsked_other (by simp [ScopeEvent.askedFor, Ne.symm hid])]
          exact hopened.envelope id envelope (hothers id envelope hid henvelope)
      · intro id d hd happroved
        have hd : decisionsOf perform (perform opened.store _).1 id = some d := hd
        rw [hdecisions] at hd
        show standingOf id (.asked request :: opened.log) = some .approved
        by_cases hid : id = request.requestId
        · -- the request was opened just now, so nobody has decided it
          rw [hid, hstore] at hd
          rw [← Option.some.inj hd, hrequested] at happroved
          cases happroved
        · rw [standingOf_other (by simp [ScopeEvent.standing, Ne.symm hid])]
          exact hopened.approved id d hd happroved

/-! ### A run of the runner -/

theorem Kept.writeStatusFile (h : desk.Kept perform P Ok) (status : RepositoryPlanStatus) :
    (desk.writeStatusFile P status).2.Kept perform P Ok := by
  unfold ScopeDesk.writeStatusFile
  split
  · exact h.of_eq rfl rfl
  · exact h

/-- The desk with the status of a plan written. -/
def filing (status : RepositoryPlanStatus) (desk : ScopeDesk σ ω) : ScopeDesk σ ω :=
  { desk with files := Function.update desk.files status.planId (.ok (some status)) }

/-- How marking a request in the status of a plan ends. -/
inductive Marks (P : RepositoryPlatform) (planId requestId : String) (approved : Bool)
    (now : String) (desk : ScopeDesk σ ω) :
    Except String (Option RepositoryPlanStatus) × ScopeDesk σ ω → Prop
  | refused (message : String) : Marks P planId requestId approved now desk (.error message, desk)
  | missing : Marks P planId requestId approved now desk (.ok none, desk)
  | marked (status : RepositoryPlanStatus) (hfile : desk.files planId = .ok (some status)) :
      Marks P planId requestId approved now desk
        (.ok (some (status.markScope requestId approved now)),
          desk.filing (status.markScope requestId approved now))

theorem updateScopeStatus_cases (planId requestId : String) (approved : Bool) (now : String) :
    Marks P planId requestId approved now desk
      (desk.updateScopeStatus P planId requestId approved now) := by
  unfold ScopeDesk.updateScopeStatus
  cases hfile : desk.files planId with
  | error message => exact .refused message
  | ok found =>
      cases found with
      | none => exact .missing
      | some status =>
          dsimp only
          unfold ScopeDesk.writeStatusFile
          split
          · exact .marked status hfile
          · exact .refused _

theorem Kept.updateScopeStatus (h : desk.Kept perform P Ok) (planId requestId : String)
    (approved : Bool) (now : String) :
    (desk.updateScopeStatus P planId requestId approved now).2.Kept perform P Ok := by
  have hmarks : Marks P _ _ _ _ desk _ := updateScopeStatus_cases planId requestId approved now
  generalize desk.updateScopeStatus P planId requestId approved now = updated at hmarks
  cases hmarks with
  | refused message => exact h
  | missing => exact h
  | marked status hfile => exact h.of_eq rfl rfl

/-- The surroundings touch neither the store nor the log. -/
theorem Kept.answered (h : desk.Kept perform P Ok) (call : RepositoryCall) :
    (desk.answered surroundings call).2.Kept perform P Ok :=
  h.of_eq rfl rfl

/-- How a call is served. -/
inductive Serves (perform : StoreBackend σ) (surroundings : Surroundings ω)
    (P : RepositoryPlatform) (now : String) (desk : ScopeDesk σ ω) :
    (call : RepositoryCall) → Except String (RepositoryAnswer call) × ScopeDesk σ ω → Prop
  | thrown (call : RepositoryCall) (message : String) :
      Serves perform surroundings P now desk call
        (.error message, (desk.answered surroundings call).2)
  | outside (call : RepositoryCall) (answer : Except String (RepositoryAnswer call))
      (hask : ∀ request, call ≠ .createScopeExpansionApproval request) :
      Serves perform surroundings P now desk call (answer, (desk.answered surroundings call).2)
  | asks (request : PersistedScopeExpansionRequest) :
      Serves perform surroundings P now desk (.createScopeExpansionApproval request)
        ((desk.answered surroundings (.createScopeExpansionApproval request)).2
          |>.createScopeExpansionApproval perform P request now)
  | writes (status : RepositoryPlanStatus) (written : Except String Unit) :
      Serves perform surroundings P now desk (.writeStatus status)
        (written, ((desk.answered surroundings (.writeStatus status)).2.writeStatusFile P status).2)

theorem serve_cases (now : String) (call : RepositoryCall) :
    Serves perform surroundings P now desk call
      (serve perform surroundings P now call desk) := by
  cases call with
  | createScopeExpansionApproval request =>
      have hasks : Serves perform surroundings P now desk _ _ := .asks request
      have hthrown : ∀ message, Serves perform surroundings P now desk _ _ :=
        .thrown (.createScopeExpansionApproval request)
      simp only [serve]
      cases hanswer : desk.answered surroundings (.createScopeExpansionApproval request) with
      | mk answer desk' =>
          rw [hanswer] at hasks hthrown
          cases answer with
          | error message => exact hthrown message
          | ok _ => exact hasks
  | writeStatus status =>
      have hwrites : ∀ written, Serves perform surroundings P now desk _ _ := .writes status
      have hthrown : ∀ message, Serves perform surroundings P now desk _ _ :=
        .thrown (.writeStatus status)
      simp only [serve]
      cases hanswer : desk.answered surroundings (.writeStatus status) with
      | mk answer desk' =>
          rw [hanswer] at hwrites hthrown
          cases answer with
          | error message => exact hthrown message
          | ok _ => exact hwrites _
  | _ =>
      refine .outside _ _ ?_
      intro request h
      cases h

theorem Kept.serve (hb : KeepsConsent P.isDatetime tokenHash perform Ok)
    (h : desk.Kept perform P Ok) (now : String) (call : RepositoryCall) :
    (ScopeDesk.serve perform surroundings P now call desk).2.Kept perform P Ok := by
  have hserves : Serves perform surroundings P now desk call _ := serve_cases now call
  generalize ScopeDesk.serve perform surroundings P now call desk = served at hserves
  cases hserves with
  | thrown _ message => exact h.answered _
  | outside _ answer hask => exact h.answered _
  | asks request => exact (h.answered _).ask hb request now
  | writes status written => exact (h.answered _).writeStatusFile status

theorem serve_keeps (surroundings : Surroundings ω)
    (hb : KeepsConsent P.isDatetime tokenHash perform Ok) (now : String) :
    Prog.Keeps (ScopeDesk.serve perform surroundings P now) (fun _ => True) (fun _ _ => True)
      fun desk' : ScopeDesk σ ω => desk'.Kept perform P Ok :=
  ⟨fun call _ _ hdesk => hdesk.serve hb now call, fun _ _ _ _ _ _ => trivial⟩

theorem Kept.runRepositoryPlan (hb : KeepsConsent P.isDatetime tokenHash perform Ok)
    (h : desk.Kept perform P Ok) (o : RepositoryPlanRunnerOptions) (now : String) :
    (desk.runRepositoryPlan perform surroundings P o now).state.Kept perform P Ok :=
  ((obeys_any _).exec (serve_keeps surroundings hb now) h).1

/-! ### Resuming -/

/-- What a resume that is let through has found. -/
structure Loaded (perform : StoreBackend σ) (P : RepositoryPlatform) (store : σ)
    (file : StatusFile) (context : ScopeExpansionResumeContext)
    (pending : RepositoryScopeExpansionStatus) (payload : ScopeExpansionApprovalPayload) :
    Prop where
  file : file = .ok (some context.status)
  first : context.status.scopeExpansionRequests.find? (·.resumable) = some pending
  request : context.request = pending.request
  envelope : ∃ envelope, scopeEnvelopeOf perform store pending.approvalRequestId = some envelope ∧
    ScopeExpansionApprovalPayload.parse P.isDatetime envelope.payload = .ok payload
  approved : ∃ decision,
    approvalDecisionOf perform store pending.approvalRequestId = some decision ∧
      decision.decision = .approved
  digest : scopeExpansionRequestDigest P.sha256 pending.request.toRequest = payload.requestDigest
  files : context.requestedFiles = payload.requestedFiles
  capabilities : context.requestedCapabilities = payload.requestedCapabilities
  commands : context.requestedVerificationCommands = payload.requestedVerificationCommands

theorem loaded {store : σ} {file : StatusFile}
    {executionCopy : String → String → Except String Planfile} {planId : String}
    {context : ScopeExpansionResumeContext}
    (h : loadApprovedScopeExpansionForResume perform P.isDatetime P.sha256 store file executionCopy
      planId = .ok context) :
    ∃ pending payload, Loaded perform P store file context pending payload := by
  unfold loadApprovedScopeExpansionForResume at h
  split at h
  · cases h
  · cases h
  · rename_i status
    split at h
    · cases h
    · rename_i session hsession
      split at h
      · cases h
      · rename_i pending hpending
        split at h
        · cases h
        · rename_i envelope henvelope
          cases hparse : ScopeExpansionApprovalPayload.parse P.isDatetime envelope.payload with
          | error message =>
              rw [hparse] at h
              cases h
          | ok payload =>
              rw [hparse] at h
              have h : (assertApproved perform store pending.approvalRequestId).bind _ =
                Except.ok context := h
              cases hassert : assertApproved perform store pending.approvalRequestId with
              | error message =>
                  rw [hassert] at h
                  cases h
              | ok _ =>
                  rw [hassert] at h
                  have h : (if scopeExpansionRequestDigest P.sha256 pending.request.toRequest ≠
                      payload.requestDigest then _ else _) = Except.ok context := h
                  split at h
                  · cases h
                  · rename_i hdigest
                    cases hcopy : executionCopy session.repoRoot planId with
                    | error message =>
                        rw [hcopy] at h
                        cases h
                    | ok planfile =>
                        rw [hcopy] at h
                        have h : Except.ok _ = Except.ok context := h
                        have hcontext := Except.ok.inj h
                        subst hcontext
                        refine ⟨pending, payload, rfl, hpending, rfl, ⟨envelope, henvelope, hparse⟩,
                          ?_, not_not.mp hdigest, rfl, rfl, rfl⟩
                        unfold assertApproved at hassert
                        split at hassert
                        · cases hassert
                        · rename_i decision hdecision
                          refine ⟨decision, hdecision, ?_⟩
                          split at hassert
                          · cases hassert
                          · cases hassert
                          · assumption

/-- **What a resume is let through with was consented to.** -/
theorem Kept.consentedTo (h : desk.Kept perform P Ok) {file : StatusFile}
    {context : ScopeExpansionResumeContext} {pending : RepositoryScopeExpansionStatus}
    {payload : ScopeExpansionApprovalPayload}
    (hloaded : Loaded perform P desk.store file context pending payload) :
    ∃ asked, asked.requestId = pending.approvalRequestId ∧
      ConsentedTo P.sha256 context asked desk.log := by
  obtain ⟨envelope, henvelope, hparse⟩ := hloaded.envelope
  obtain ⟨decision, hdecision, happroved⟩ := hloaded.approved
  obtain ⟨asked, hlast, hpayload⟩ := h.envelope _ envelope henvelope
  have hid := lastAsked_id hlast
  rw [hpayload] at hparse
  have hread := ScopeExpansionApprovalPayload.parse_value hparse
  subst hread
  refine ⟨asked, hid, ?_, ?_, ?_, hloaded.files, hloaded.capabilities, hloaded.commands⟩
  · rw [hid]
    exact hlast
  · rw [hid]
    exact h.approved _ decision hdecision happroved
  · rw [hloaded.request]
    exact sameScope_of_digest hloaded.digest.symm

/-- The desk when a runner is started with a context. -/
def resuming (context : ScopeExpansionResumeContext) (marked : ScopeDesk σ ω) : ScopeDesk σ ω :=
  { marked with log := .resumed context.status.planId context :: marked.log }

/-- A resume is let through with a context, and has marked its request. -/
structure Started (perform : StoreBackend σ) (surroundings : Surroundings ω)
    (P : RepositoryPlatform) (planId now : String) (desk : ScopeDesk σ ω)
    (context : ScopeExpansionResumeContext) (updated : Option RepositoryPlanStatus)
    (marked : ScopeDesk σ ω) : Prop where
  load : loadApprovedScopeExpansionForResume perform P.isDatetime P.sha256 desk.store
    (desk.files planId) (surroundings.executionCopy desk.outside) planId = .ok context
  mark : desk.updateScopeStatus P context.status.planId context.request.requestId true now =
    (.ok updated, marked)

/-- The run of a resume. -/
abbrev resumedRun (perform : StoreBackend σ) (surroundings : Surroundings ω)
    (P : RepositoryPlatform) (hasReviewReportGenerator : Bool) (now : String)
    (context : ScopeExpansionResumeContext) (session : WorktreeSession)
    (updated : Option RepositoryPlanStatus) (marked : ScopeDesk σ ω) :=
  (marked.resuming context).runRepositoryPlan perform surroundings P
    (resumeOptions context session (updated.getD context.status) hasReviewReportGenerator now) now

/-- How a resume ends. -/
inductive Resumes (perform : StoreBackend σ) (surroundings : Surroundings ω)
    (P : RepositoryPlatform) (planId : String) (report : Bool) (now : String)
    (desk : ScopeDesk σ ω) : ScopeDesk σ ω → Prop
  | refused : Resumes perform surroundings P planId report now desk desk
  | ran (context : ScopeExpansionResumeContext) (session : WorktreeSession)
      (updated : Option RepositoryPlanStatus) (marked : ScopeDesk σ ω)
      (h : Started perform surroundings P planId now desk context updated marked) :
      Resumes perform surroundings P planId report now desk
        (resumedRun perform surroundings P report now context session updated marked).state
  | applied (context : ScopeExpansionResumeContext) (session : WorktreeSession)
      (updated : Option RepositoryPlanStatus) (marked : ScopeDesk σ ω)
      (result : RepositoryPlanRunnerResult)
      (h : Started perform surroundings P planId now desk context updated marked)
      (hresult : (resumedRun perform surroundings P report now context session updated
        marked).outcome = .ok result) :
      Resumes perform surroundings P planId report now desk
        ((resumedRun perform surroundings P report now context session updated
          marked).state.markScopeExpansionApplied P result.status context.request.requestId now)

theorem resumeRepositoryPlan_cases (planId : String) (report : Bool) (now : String) :
    Resumes perform surroundings P planId report now desk
      (desk.resumeRepositoryPlan perform surroundings P planId report now) := by
  unfold ScopeDesk.resumeRepositoryPlan
  cases hload : loadApprovedScopeExpansionForResume perform P.isDatetime P.sha256 desk.store
      (desk.files planId) (surroundings.executionCopy desk.outside) planId with
  | error message => exact .refused
  | ok context =>
      dsimp only
      cases context.status.worktreeSession with
      | none => exact .refused
      | some session =>
          dsimp only
          cases hmarked : desk.updateScopeStatus P context.status.planId context.request.requestId
              true now with
          | mk answer marked =>
              cases answer with
              | error message =>
                  have hmarks : Marks P _ _ _ _ desk _ := updateScopeStatus_cases
                    context.status.planId context.request.requestId true now
                  rw [hmarked] at hmarks
                  cases hmarks
                  exact .refused
              | ok updated =>
                  dsimp only
                  split
                  · exact .ran context session updated marked ⟨hload, hmarked⟩
                  · rename_i result hresult
                    exact .applied context session updated marked result ⟨hload, hmarked⟩ hresult

/-! ### Everything that is done -/

theorem Kept.decideRepositoryScopeRequest (hb : KeepsConsent P.isDatetime tokenHash perform Ok)
    (h : desk.Kept perform P Ok) (requestId : String) (approved : Bool)
    (decidedBy reason now : String) :
    (desk.decideRepositoryScopeRequest perform P requestId approved decidedBy reason now).Kept
      perform P Ok := by
  have hdecided : (desk.decideRequest perform requestId approved decidedBy reason now).2.Kept
      perform P Ok := by
    cases approved with
    | true => exact h.use hb fun envelope henvelope => StoreOp.noConfusion henvelope
    | false => exact h.use hb fun envelope henvelope => StoreOp.noConfusion henvelope
  unfold ScopeDesk.decideRepositoryScopeRequest
  generalize desk.decideRequest perform requestId approved decidedBy reason now = decided
    at hdecided
  obtain ⟨answer, desk'⟩ := decided
  cases answer with
  | error e => exact hdecided
  | ok decision =>
      dsimp only
      split
      · exact hdecided
      · exact hdecided.updateScopeStatus _ requestId approved now

/-- The runner of a resume is given what was consented to. -/
theorem Kept.resuming (h : desk.Kept perform P Ok) {planId now : String}
    {context : ScopeExpansionResumeContext} {updated : Option RepositoryPlanStatus}
    {marked : ScopeDesk σ ω}
    (hstarted : Started perform surroundings P planId now desk context updated marked) :
    (marked.resuming context).Kept perform P Ok := by
  have hmarks : Marks P _ _ _ _ desk _ := updateScopeStatus_cases context.status.planId
    context.request.requestId true now
  rw [hstarted.mark] at hmarks
  have hframe : marked.store = desk.store ∧ marked.log = desk.log := by
    cases hmarks with
    | missing => exact ⟨rfl, rfl⟩
    | marked status hfile => exact ⟨rfl, rfl⟩
  have hkept : marked.Kept perform P Ok := h.of_eq hframe.1 hframe.2
  apply hkept.note (fun _ => rfl) (fun _ => rfl)
  intro planId' context' hevent
  obtain ⟨-, rfl⟩ := ScopeEvent.resumed.inj hevent
  obtain ⟨pending, payload, hloaded⟩ := loaded hstarted.load
  obtain ⟨asked, -, hconsented⟩ := h.consentedTo hloaded
  rw [hframe.2]
  exact ⟨asked, hconsented⟩

theorem Kept.markScopeExpansionApplied (h : desk.Kept perform P Ok)
    (status : RepositoryPlanStatus) (requestId now : String) :
    (desk.markScopeExpansionApplied P status requestId now).Kept perform P Ok := by
  have hwritten := h.writeStatusFile (status.applyScope requestId now)
  unfold ScopeDesk.markScopeExpansionApplied
  generalize desk.writeStatusFile P (status.applyScope requestId now) = written at hwritten
  obtain ⟨answer, desk'⟩ := written
  cases answer with
  | error message => exact hwritten
  | ok written =>
      exact hwritten.note (fun _ => rfl) (fun _ => rfl) fun _ _ hevent =>
        ScopeEvent.noConfusion hevent

/-- **Every action keeps the store in agreement with the log.** -/
theorem Kept.step (hb : KeepsConsent P.isDatetime tokenHash perform Ok)
    (h : desk.Kept perform P Ok) (action : Action) :
    (desk.step perform surroundings P action).Kept perform P Ok := by
  cases action with
  | create planId now artifactRefs warnings => exact h.writeStatusFile _
  | apply planfile session hasReviewReportGenerator now =>
      show (desk.applyRepositoryPlanfile perform surroundings P planfile session
        hasReviewReportGenerator now).Kept perform P Ok
      unfold ScopeDesk.applyRepositoryPlanfile
      dsimp only
      split
      · exact h.runRepositoryPlan hb _ now
      · exact h
  | decideScope requestId approved decidedBy reason now =>
      exact h.decideRepositoryScopeRequest hb requestId approved decidedBy reason now
  | resume planId report now =>
      have hresumes : Resumes perform surroundings P planId report now desk _ :=
        resumeRepositoryPlan_cases planId report now
      show (desk.resumeRepositoryPlan perform surroundings P planId report now).Kept perform P Ok
      generalize desk.resumeRepositoryPlan perform surroundings P planId report now = ended
        at hresumes
      cases hresumes with
      | refused => exact h
      | ran context session updated marked hstarted =>
          exact (h.resuming hstarted).runRepositoryPlan hb _ now
      | applied context session updated marked result hstarted hresult =>
          exact ((h.resuming hstarted).runRepositoryPlan hb _ now).markScopeExpansionApplied
            result.status context.request.requestId now
  | cleanup planId cleaned =>
      show (desk.cleanupRepositoryPlan P planId cleaned).Kept perform P Ok
      unfold ScopeDesk.cleanupRepositoryPlan
      split
      · split
        · exact h
        · exact h.writeStatusFile _
      · exact h
  | use op other => exact h.use hb other
  | tamper planId file => exact h.of_eq rfl rfl

end ScopeDesk

end OpenLagrange
