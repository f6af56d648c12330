/-
When a decision is final, and continued once.

A backend keeps one decision for every request.  Creating a request, approving it and
rejecting it write over that decision without a look at it, so each of them can take back
what was decided, and every approval starts the continuation anew.  As long as nobody
creates, approves or rejects what was decided otherwise, or approves again what is under way
already, a verdict stays, a request has one continuation, and a rejected one gets none.
-/
import OpenLagrange.Proofs.StoreEquivalence
import OpenLagrange.Workflows.ApprovalActions

namespace OpenLagrange

/-! ### The decisions of a backend -/

section Decisions

variable (isDatetime : String → Bool) (tokenHash : String → String)

/-- The decision of every request. -/
abbrev Decisions := String → Option ApprovalDecision

/-- Deciding a request that is there. -/
def Decisions.decide (decisions : Decisions) (id : String)
    (verdict : ApprovalDecision → ApprovalDecision) :
    Decisions × Except SchemaError (Option ApprovalDecision) :=
  match decisions id with
  | none => (decisions, .ok none)
  | some existing =>
      match (verdict existing).parse isDatetime with
      | .error e => (decisions, .error e)
      | .ok decision => (Function.update decisions id (some decision), .ok (some decision))

/-- What an operation does to the decisions, whatever the backend. -/
def Decisions.after (decisions : Decisions) : StoreOp → Decisions
  | .createApprovalRequest request =>
      match request.parse isDatetime tokenHash with
      | .error _ => decisions
      | .ok decision => Function.update decisions request.approvalRequestId (some decision)
  | .approveRequest id approvedBy decidedAt reason =>
      (decisions.decide isDatetime id (.approve approvedBy decidedAt reason)).1
  | .rejectRequest id rejectedBy decidedAt reason =>
      (decisions.decide isDatetime id (.reject rejectedBy decidedAt reason)).1
  | _ => decisions

variable {σ : Type}

def decisionsOf (perform : StoreBackend σ) (s : σ) : Decisions := fun id =>
  (perform s (.getApprovalDecision id)).2

/-- A backend that keeps decisions: it does to them what an operation does, and what it finds
for a task is one of them. -/
structure KeepsDecisions (perform : StoreBackend σ) (Ok : σ → Prop) : Prop where
  ok : ∀ s op, Ok s → Ok (perform s op).1
  after : ∀ s op, Ok s → decisionsOf perform (perform s op).1
    = (decisionsOf perform s).after isDatetime tokenHash op
  approved : ∀ s id approvedBy decidedAt reason, Ok s →
    (perform s (.approveRequest id approvedBy decidedAt reason)).2
      = ((decisionsOf perform s).decide isDatetime id (.approve approvedBy decidedAt reason)).2
  forTask : ∀ s id decision, Ok s →
    (perform s (.getApprovalDecisionForTask id)).2 = some decision →
    decisionsOf perform s decision.approvalRequestId = some decision

variable {isDatetime tokenHash}

theorem MemoryStores.decideRequest_decisions (m : MemoryStores) (id : String)
    (verdict : ApprovalDecision → ApprovalDecision)
    (hkeeps : ∀ decision, (verdict decision).approvalRequestId = decision.approvalRequestId) :
    (m.decideRequest isDatetime id verdict).1.approvals.get
        = (Decisions.decide isDatetime m.approvals.get id verdict).1 ∧
      (m.decideRequest isDatetime id verdict).2
        = (Decisions.decide isDatetime m.approvals.get id verdict).2 := by
  unfold MemoryStores.decideRequest Decisions.decide MemoryStores.getApprovalDecision
  cases hget : m.approvals.get id with
  | none => exact ⟨rfl, rfl⟩
  | some existing =>
      cases hparse : (verdict existing).parse isDatetime with
      | error e => simp only [hparse, and_self]
      | ok decision =>
          have hid : decision.approvalRequestId = id := by
            rw [ApprovalDecision.parse_eq hparse, hkeeps]
            exact (Table.mem_of_get hget).2
          simp only [hparse, and_true]
          rw [Table.Keyed.get_upsert, hid]

/-- The memory backend keeps decisions. -/
theorem memory_keepsDecisions : KeepsDecisions isDatetime tokenHash
    (MemoryStores.perform isDatetime tokenHash) fun _ => True := by
  have hof : ∀ m : MemoryStores, decisionsOf (MemoryStores.perform isDatetime tokenHash) m
      = m.approvals.get := fun _ => rfl
  refine ⟨fun _ _ _ => trivial, ?_, ?_, ?_⟩
  · intro m op _
    rw [hof, hof]
    cases op with
    | createApprovalRequest request =>
        simp only [MemoryStores.perform, MemoryStores.createApprovalRequest, Decisions.after]
        cases hparse : request.parse isDatetime tokenHash with
        | error e => rfl
        | ok decision =>
            have hid : decision.approvalRequestId = request.approvalRequestId := by
              rw [ApprovalRequest.parse_eq hparse]
              rfl
            simp only
            rw [Table.Keyed.get_upsert, hid]
    | approveRequest id approvedBy decidedAt reason =>
        exact (m.decideRequest_decisions id (.approve approvedBy decidedAt reason) fun _ => rfl).1
    | rejectRequest id rejectedBy decidedAt reason =>
        exact (m.decideRequest_decisions id (.reject rejectedBy decidedAt reason) fun _ => rfl).1
    | getApprovalDecision _ | getApprovalDecisionForTask _ | recordContinuationContext _
    | getContinuationContext _ | recordApprovalContinuationEnvelope _
    | getApprovalContinuationEnvelope _ | recordTaskStatus _ | getTaskStatus _
    | getTaskStatusByTaskId _ | listTaskStatusesForProject _ | recordNodeAttempt _
    | listNodeAttempts _ _ => rfl
  · intro m id approvedBy decidedAt reason _
    exact (m.decideRequest_decisions id (.approve approvedBy decidedAt reason) fun _ => rfl).2
  · intro m id decision _ hfind
    have hfound : m.approvals.rows.find? (m.ofTask id) = some decision := hfind
    exact Table.Keyed.get_of_mem (List.mem_of_find?_eq_some hfound)

/-- So does the SQLite backend, wherever it mirrors a memory backend. -/
theorem sqlite_keepsDecisions {db : Database} : KeepsDecisions isDatetime tokenHash
    (SqliteStores.perform isDatetime tokenHash db) fun s => ∃ m, Mirrors m s := by
  have hsim := @stores_simulate isDatetime tokenHash db
  have hmem := @memory_keepsDecisions isDatetime tokenHash
  have hof : ∀ {m : MemoryStores} {s : SqliteStores}, Mirrors m s →
      decisionsOf (SqliteStores.perform isDatetime tokenHash db) s
        = decisionsOf (MemoryStores.perform isDatetime tokenHash) m := by
    intro m s hms
    funext id
    exact (hms.getApprovalDecision id).symm
  refine ⟨?_, ?_, ?_, ?_⟩
  · rintro s op ⟨m, hms⟩
    exact ⟨_, hsim.keeps m s op hms⟩
  · rintro s op ⟨m, hms⟩
    rw [hof hms, hof (hsim.keeps m s op hms)]
    exact hmem.after m op trivial
  · rintro s id approvedBy decidedAt reason ⟨m, hms⟩
    rw [hof hms, ← hmem.approved m id approvedBy decidedAt reason trivial]
    exact (hsim.agrees m s (.approveRequest id approvedBy decidedAt reason) hms trivial).symm
  · rintro s id decision ⟨m, hms⟩ hfind
    obtain ⟨row, hlatest, hdecision⟩ := Option.map_eq_some_iff.mp hfind
    have hrow := (List.mem_filter.mp (db.decisions.latest_mem _ row hlatest).1).1
    have hid : decision.approvalRequestId = row.approvalRequestId := by
      rw [← hdecision]
      exact (hms.columns row hrow).1
    have hget := congrArg (Option.map DecisionRow.decision) (Table.Keyed.get_of_mem hrow)
    rw [Option.map_some, hdecision, ← hid] at hget
    exact hget

end Decisions

namespace ApprovalDesk

variable {σ : Type} (isDatetime : String → Bool) (tokenHash : String → String)
  (perform : StoreBackend σ) (verify : String → String → String → Bool)
  (sha256 : String → String) (desk : ApprovalDesk σ)

/-! ### What is asked of a call -/

/-- The continuations that were started for a request. -/
def startedFor (approvalRequestId : String) : List StartedContinuation :=
  desk.started.filter (·.input.approvalRequestId = approvalRequestId)

/-- A request is created while it is undecided; it is approved while it is undecided, or
approved and not continued yet; it is rejected while it is not approved.  A call that the token
check or a schema refuses does nothing. -/
def Meets : Action → Prop
  | .createApprovalRequest request =>
      ∀ decision, desk.getApprovalDecision perform request.approvalRequestId = some decision →
        (∃ e, request.parse isDatetime tokenHash = .error e) ∨ decision.decision = .requested
  | .approveTask _ input now =>
      ∀ existing, desk.getApprovalDecisionForTask perform input.taskId = some existing →
        tokenRefused verify existing input.approvalToken = true ∨
          (existing.approve input.decidedBy now input.reason).refined isDatetime = false ∨
          existing.decision = .requested ∨
          (existing.decision = .approved ∧ desk.startedFor existing.approvalRequestId = [])
  | .rejectTask input now =>
      ∀ existing, desk.getApprovalDecisionForTask perform input.taskId = some existing →
        tokenRefused verify existing input.approvalToken = true ∨
          (existing.reject input.decidedBy now input.reason).refined isDatetime = false ∨
          existing.decision ≠ .approved
  | _ => True

/-- Every call of a sequence is met where it is made. -/
def Along : List Action → ApprovalDesk σ → Prop
  | [], _ => True
  | action :: rest, desk =>
      Meets isDatetime tokenHash perform verify desk action ∧
        Along rest (step perform verify sha256 desk action)

/-- What has been decided stays: the verdict, and of a rejection that nothing is started. -/
structure Stays (before after : ApprovalDesk σ) : Prop where
  verdict : ∀ id decision, before.getApprovalDecision perform id = some decision →
    decision.decision ≠ .requested →
    ∃ later, after.getApprovalDecision perform id = some later ∧
      later.decision = decision.decision
  stopped : ∀ id decision, before.getApprovalDecision perform id = some decision →
    decision.decision = .rejected → after.startedFor id = before.startedFor id

/-- From every moment of the sequence to every later one what has been decided stays, and no
request has two continuations. -/
structure Final (desk : ApprovalDesk σ) (actions : List Action) : Prop where
  stays : ∀ done later, done <+: later → later <+: actions →
    Stays perform (run perform verify sha256 done desk) (run perform verify sha256 later desk)
  once : ∀ done, done <+: actions → ∀ id,
    ((run perform verify sha256 done desk).startedFor id).length ≤ 1

/-! ### What one call does -/

section Step

variable {isDatetime tokenHash perform verify sha256} {desk : ApprovalDesk σ} {Ok : σ → Prop}

theorem recordedContinuation_input {id : String} {continuation : StartedContinuation}
    (hrecorded : desk.recordedContinuation perform id = some continuation) :
    continuation.input.approvalRequestId = id := by
  unfold recordedContinuation at hrecorded
  split at hrecorded
  · rw [← Option.some.inj hrecorded]
  · obtain ⟨context, -, hcontext⟩ := Option.map_eq_some_iff.mp hrecorded
    rw [← hcontext]

/-- An approval does nothing, or it decides the request, or it does that and starts the
continuation of the request. -/
theorem approveTask_cases (perform : StoreBackend σ) (verify : String → String → String → Bool)
    (desk : ApprovalDesk σ) (engine : StartedContinuation → Option String)
    (input : ApprovalActionInput) (now : String) :
    (desk.approveTask perform verify engine input now).1 = desk ∨
      ∃ existing, desk.getApprovalDecisionForTask perform input.taskId = some existing ∧
        tokenRefused verify existing input.approvalToken = false ∧
        ((desk.approveTask perform verify engine input now).1
            = desk.write perform (.approveRequest existing.approvalRequestId input.decidedBy now
                input.reason) ∨
          ∃ decision continuation,
            desk.approveRequest perform existing.approvalRequestId input.decidedBy now input.reason
              = .ok (some decision) ∧
            continuation.input.approvalRequestId = decision.approvalRequestId ∧
            (desk.approveTask perform verify engine input now).1
              = { desk.write perform (.approveRequest existing.approvalRequestId input.decidedBy now
                    input.reason) with started := desk.started ++ [continuation] }) := by
  unfold approveTask
  cases hfound : desk.getApprovalDecisionForTask perform input.taskId with
  | none => exact Or.inl rfl
  | some existing =>
      cases hrefused : tokenRefused verify existing input.approvalToken with
      | true => exact Or.inl (by simp only [hrefused, if_true])
      | false =>
          refine Or.inr ⟨existing, rfl, hrefused, ?_⟩
          simp only [hrefused, Bool.false_eq_true, if_false]
          split
          · exact Or.inl rfl
          · exact Or.inl rfl
          · rename_i decision hanswer
            split
            · exact Or.inl rfl
            · rename_i continuation hrecorded
              split
              · exact Or.inl rfl
              · exact Or.inr ⟨decision, continuation, hanswer, recordedContinuation_input hrecorded,
                  rfl⟩

/-- A rejection does nothing, or it decides the request and records a status at most. -/
theorem rejectTask_cases (perform : StoreBackend σ) (verify : String → String → String → Bool)
    (sha256 : String → String) (desk : ApprovalDesk σ) (input : ApprovalActionInput) (now : String) :
    (desk.rejectTask perform verify sha256 input now).1 = desk ∨
      ∃ existing, desk.getApprovalDecisionForTask perform input.taskId = some existing ∧
        tokenRefused verify existing input.approvalToken = false ∧
        let decided := desk.write perform (.rejectRequest existing.approvalRequestId input.decidedBy
          now input.reason)
        ((desk.rejectTask perform verify sha256 input now).1 = decided ∨
          ∃ snapshot, (desk.rejectTask perform verify sha256 input now).1
            = decided.write perform (.recordTaskStatus snapshot)) := by
  unfold rejectTask
  cases hfound : desk.getApprovalDecisionForTask perform input.taskId with
  | none => exact Or.inl rfl
  | some existing =>
      cases hrefused : tokenRefused verify existing input.approvalToken with
      | true => exact Or.inl (by simp only [hrefused, if_true])
      | false =>
          refine Or.inr ⟨existing, rfl, hrefused, ?_⟩
          simp only [hrefused, Bool.false_eq_true, if_false]
          split
          · exact Or.inl rfl
          · exact Or.inl rfl
          · split
            · exact Or.inr ⟨_, rfl⟩
            · split
              · exact Or.inr ⟨_, rfl⟩
              · exact Or.inl rfl

/-- The verdicts that are in stay as they are. -/
def VerdictsStay (before after : Decisions) : Prop :=
  ∀ id decision, before id = some decision → decision.decision ≠ .requested →
    ∃ later, after id = some later ∧ later.decision = decision.decision

/-- Deciding a request leaves the verdicts if a schema refuses, if the request is undecided, or
if the verdict is the one that is in. -/
theorem decide_verdictsStay {decisions : Decisions} {id : String} {existing : ApprovalDecision}
    (hexisting : decisions id = some existing) {verdict : ApprovalDecision → ApprovalDecision}
    (hverdict : (verdict existing).refined isDatetime = false ∨ existing.decision = .requested ∨
      (verdict existing).decision = existing.decision) :
    VerdictsStay decisions (decisions.decide isDatetime id verdict).1 := by
  intro id' decision hdecision hdecided
  unfold Decisions.decide
  rw [hexisting]
  cases hparse : (verdict existing).parse isDatetime with
  | error e =>
      simp only [hparse]
      exact ⟨decision, hdecision, rfl⟩
  | ok parsed =>
      simp only [hparse]
      by_cases hid : id' = id
      · subst hid
        rw [Function.update_self]
        refine ⟨parsed, rfl, ?_⟩
        rw [hexisting, Option.some.injEq] at hdecision
        subst hdecision
        rcases hverdict with hrefused | hundecided | hsame
        · simp only [ApprovalDecision.parse, hrefused, Bool.false_eq_true, if_false] at hparse
          cases hparse
        · exact absurd hundecided hdecided
        · rw [ApprovalDecision.parse_eq hparse, hsame]
      · rw [Function.update_of_ne hid]
        exact ⟨decision, hdecision, rfl⟩

/-- No request has two continuations, and one that has one is approved. -/
structure Settled (perform : StoreBackend σ) (Ok : σ → Prop) (desk : ApprovalDesk σ) : Prop where
  ok : Ok desk.store
  once : ∀ id, (desk.startedFor id).length ≤ 1
  approved : ∀ id, desk.startedFor id ≠ [] →
    ∃ decision, desk.getApprovalDecision perform id = some decision ∧ decision.decision = .approved

theorem Stays.refl (desk : ApprovalDesk σ) : Stays perform desk desk :=
  ⟨fun _ decision hdecision _ => ⟨decision, hdecision, rfl⟩, fun _ _ _ _ => rfl⟩

theorem Stays.trans {before between after : ApprovalDesk σ} (hfirst : Stays perform before between)
    (hsecond : Stays perform between after) : Stays perform before after := by
  refine ⟨?_, ?_⟩
  · intro id decision hdecision hdecided
    obtain ⟨later, hlater, hsame⟩ := hfirst.verdict id decision hdecision hdecided
    obtain ⟨last, hlast, hsame'⟩ := hsecond.verdict id later hlater (by rw [hsame]; exact hdecided)
    exact ⟨last, hlast, hsame'.trans hsame⟩
  · intro id decision hdecision hrejected
    have hdecided : decision.decision ≠ .requested := by
      rw [hrejected]
      exact Decision.noConfusion
    obtain ⟨later, hlater, hsame⟩ := hfirst.verdict id decision hdecision hdecided
    rw [hsecond.stopped id later hlater (hsame.trans hrejected),
      hfirst.stopped id decision hdecision hrejected]

/-- A write that leaves the verdicts. -/
theorem Settled.write (hb : KeepsDecisions isDatetime tokenHash perform Ok)
    (hs : desk.Settled perform Ok) (op : StoreOp)
    (hstay : VerdictsStay (decisionsOf perform desk.store)
      ((decisionsOf perform desk.store).after isDatetime tokenHash op)) :
    (desk.write perform op).Settled perform Ok ∧ Stays perform desk (desk.write perform op) := by
  have hafter : ∀ id, (desk.write perform op).getApprovalDecision perform id
      = (decisionsOf perform desk.store).after isDatetime tokenHash op id := by
    intro id
    exact congrFun (hb.after desk.store op hs.ok) id
  refine ⟨⟨hb.ok _ _ hs.ok, hs.once, ?_⟩, ⟨?_, fun _ _ _ _ => rfl⟩⟩
  · intro id hstarted
    obtain ⟨decision, hdecision, happroved⟩ := hs.approved id hstarted
    obtain ⟨later, hlater, hsame⟩ := hstay id decision hdecision (by
      rw [happroved]
      exact Decision.noConfusion)
    exact ⟨later, (hafter id).trans hlater, hsame.trans happroved⟩
  · intro id decision hdecision hdecided
    obtain ⟨later, hlater, hsame⟩ := hstay id decision hdecision hdecided
    exact ⟨later, (hafter id).trans hlater, hsame⟩

/-- What is found for a task is the decision of its request. -/
theorem found_decision (hb : KeepsDecisions isDatetime tokenHash perform Ok)
    (hs : desk.Settled perform Ok) {taskId : String} {existing : ApprovalDecision}
    (hfound : desk.getApprovalDecisionForTask perform taskId = some existing) :
    decisionsOf perform desk.store existing.approvalRequestId = some existing :=
  hb.forTask desk.store taskId existing hs.ok hfound

/-- Starting the continuation of a request that was just approved, and has none. -/
theorem Settled.start (hs : desk.Settled perform Ok) {before : ApprovalDesk σ} {id : String}
    (hstay : Stays perform before desk) (hsame : desk.started = before.started)
    {decision : ApprovalDecision} (hdecision : desk.getApprovalDecision perform id = some decision)
    (happroved : decision.decision = .approved) (hnone : before.startedFor id = [])
    {continuation : StartedContinuation} (hid : continuation.input.approvalRequestId = id) :
    ({ desk with started := before.started ++ [continuation] } : ApprovalDesk σ).Settled perform Ok ∧
      Stays perform before { desk with started := before.started ++ [continuation] } := by
  have hmine : ({ desk with started := before.started ++ [continuation] } : ApprovalDesk σ).startedFor
      id = [continuation] := by
    have hkept : before.started.filter (·.input.approvalRequestId = id) = [] := hnone
    simp [startedFor, List.filter_append, hkept, hid]
  have hother : ∀ id', id' ≠ id →
      ({ desk with started := before.started ++ [continuation] } : ApprovalDesk σ).startedFor id'
        = before.startedFor id' := by
    intro id' hne
    have hnot : ¬ continuation.input.approvalRequestId = id' := fun h => hne (h.symm.trans hid)
    simp [startedFor, List.filter_append, hnot]
  have hbefore : ∀ id', desk.startedFor id' = before.startedFor id' := by
    intro id'
    rw [startedFor, hsame, startedFor]
  refine ⟨⟨hs.ok, ?_, ?_⟩, ⟨hstay.verdict, ?_⟩⟩
  · intro id'
    by_cases hne : id' = id
    · rw [hne, hmine]
      exact le_refl 1
    · rw [hother id' hne, ← hbefore]
      exact hs.once id'
  · intro id' hstarted
    by_cases hne : id' = id
    · rw [hne]
      exact ⟨decision, hdecision, happroved⟩
    · rw [hother id' hne, ← hbefore] at hstarted
      exact hs.approved id' hstarted
  · intro id' earlier hearlier hrejected
    by_cases hne : id' = id
    · -- a rejected request would still be rejected
      rw [hne] at hearlier
      obtain ⟨later, hlater, hverdict⟩ := hstay.verdict id earlier hearlier (by
        rw [hrejected]
        exact Decision.noConfusion)
      rw [hdecision, Option.some.injEq] at hlater
      rw [← hlater, happroved, hrejected] at hverdict
      exact Decision.noConfusion hverdict
    · exact hother id' hne

/-- An approval that is met. -/
theorem Settled.approveTask (hb : KeepsDecisions isDatetime tokenHash perform Ok)
    (hs : desk.Settled perform Ok) {engine : StartedContinuation → Option String}
    {input : ApprovalActionInput} {now : String}
    (hmeets : desk.Meets isDatetime tokenHash perform verify (.approveTask engine input now)) :
    (desk.approveTask perform verify engine input now).1.Settled perform Ok ∧
      Stays perform desk (desk.approveTask perform verify engine input now).1 := by
  rcases approveTask_cases perform verify desk engine input now with
    hnothing | ⟨existing, hfound, htoken, hdone⟩
  · rw [hnothing]
    exact ⟨hs, Stays.refl desk⟩
  have hexisting := found_decision hb hs hfound
  have hallowed := (hmeets existing hfound).resolve_left (by rw [htoken]; exact Bool.false_ne_true)
  have hwrite := hs.write hb (.approveRequest existing.approvalRequestId input.decidedBy now
    input.reason) (decide_verdictsStay hexisting (by
      rcases hallowed with hrefused | hundecided | ⟨happroved, -⟩
      · exact Or.inl hrefused
      · exact Or.inr (Or.inl hundecided)
      · exact Or.inr (Or.inr happroved.symm)))
  rcases hdone with hwritten | ⟨decision, continuation, hanswer, hid, hstarted⟩
  · rw [hwritten]
    exact hwrite
  -- the answer says that the approval was written
  have hparsed := (hb.approved desk.store existing.approvalRequestId input.decidedBy now
    input.reason hs.ok).symm.trans hanswer
  unfold Decisions.decide at hparsed
  rw [hexisting] at hparsed
  cases hparse : (existing.approve input.decidedBy now input.reason).parse isDatetime with
  | error e =>
      simp only [hparse] at hparsed
      cases hparsed
  | ok parsed =>
      simp only [hparse] at hparsed
      have hsame : parsed = decision := Option.some.inj (Except.ok.inj hparsed)
      subst hsame
      have hdecision := ApprovalDecision.parse_eq hparse
      have hsameId : parsed.approvalRequestId = existing.approvalRequestId := by
        rw [hdecision]
        rfl
      have hread : (desk.write perform (.approveRequest existing.approvalRequestId input.decidedBy now
          input.reason)).getApprovalDecision perform existing.approvalRequestId = some parsed := by
        have hafter := congrFun (hb.after desk.store (.approveRequest existing.approvalRequestId
          input.decidedBy now input.reason) hs.ok) existing.approvalRequestId
        refine hafter.trans ?_
        simp only [Decisions.after, Decisions.decide, hexisting, hparse]
        exact Function.update_self _ _ _
      have hnone : desk.startedFor existing.approvalRequestId = [] := by
        rcases hallowed with hrefused | hundecided | ⟨-, hnone⟩
        · simp only [ApprovalDecision.parse, hrefused, Bool.false_eq_true, if_false] at hparse
          cases hparse
        · by_contra hsome
          obtain ⟨current, hcurrent, happroved⟩ := hs.approved _ hsome
          have hsame := Option.some.inj (hcurrent.symm.trans hexisting)
          rw [hsame, hundecided] at happroved
          exact Decision.noConfusion happroved
        · exact hnone
      rw [hstarted]
      exact hwrite.1.start hwrite.2 rfl hread (by rw [hdecision]; rfl) hnone (hid.trans hsameId)

/-- A rejection that is met. -/
theorem Settled.rejectTask (hb : KeepsDecisions isDatetime tokenHash perform Ok)
    (hs : desk.Settled perform Ok) {input : ApprovalActionInput} {now : String}
    (hmeets : desk.Meets isDatetime tokenHash perform verify (.rejectTask input now)) :
    (desk.rejectTask perform verify sha256 input now).1.Settled perform Ok ∧
      Stays perform desk (desk.rejectTask perform verify sha256 input now).1 := by
  rcases rejectTask_cases perform verify sha256 desk input now with
    hnothing | ⟨existing, hfound, htoken, hdone⟩
  · rw [hnothing]
    exact ⟨hs, Stays.refl desk⟩
  have hexisting := found_decision hb hs hfound
  have hallowed := (hmeets existing hfound).resolve_left (by rw [htoken]; exact Bool.false_ne_true)
  have hwrite := hs.write hb (.rejectRequest existing.approvalRequestId input.decidedBy now
    input.reason) (decide_verdictsStay hexisting (by
      rcases hallowed with hrefused | hopen
      · exact Or.inl hrefused
      · cases hverdict : existing.decision with
        | requested => exact Or.inr (Or.inl rfl)
        | approved => exact absurd hverdict hopen
        | rejected => exact Or.inr (Or.inr rfl)))
  rcases hdone with hwritten | ⟨snapshot, hwritten⟩
  · rw [hwritten]
    exact hwrite
  · have hstatus := hwrite.1.write hb (.recordTaskStatus snapshot)
      fun _ decision hdecision _ => ⟨decision, hdecision, rfl⟩
    rw [hwritten]
    exact ⟨hstatus.1, hwrite.2.trans hstatus.2⟩

/-- **One call that is met.** -/
theorem Settled.step (hb : KeepsDecisions isDatetime tokenHash perform Ok)
    (hs : desk.Settled perform Ok) {action : Action}
    (hmeets : desk.Meets isDatetime tokenHash perform verify action) :
    (desk.step perform verify sha256 action).Settled perform Ok ∧
      Stays perform desk (desk.step perform verify sha256 action) := by
  cases action with
  | createApprovalRequest request =>
      refine hs.write hb _ ?_
      intro id decision hdecision hdecided
      simp only [Decisions.after]
      cases hparse : request.parse isDatetime tokenHash with
      | error e => exact ⟨decision, hdecision, rfl⟩
      | ok created =>
          by_cases hid : id = request.approvalRequestId
          · subst hid
            rcases hmeets decision hdecision with ⟨e, hrefused⟩ | hundecided
            · rw [hparse] at hrefused
              cases hrefused
            · exact absurd hundecided hdecided
          · simp only
            rw [Function.update_of_ne hid]
            exact ⟨decision, hdecision, rfl⟩
  | recordContinuationContext context =>
      exact hs.write hb _ fun _ decision hdecision _ => ⟨decision, hdecision, rfl⟩
  | recordApprovalContinuationEnvelope envelope =>
      exact hs.write hb _ fun _ decision hdecision _ => ⟨decision, hdecision, rfl⟩
  | approveTask engine input now => exact hs.approveTask hb hmeets
  | rejectTask input now => exact hs.rejectTask hb hmeets

/-- A whole sequence of calls that are met. -/
theorem Settled.run (hb : KeepsDecisions isDatetime tokenHash perform Ok)
    (hs : desk.Settled perform Ok) {actions : List Action}
    (hmet : Along isDatetime tokenHash perform verify sha256 actions desk) :
    (ApprovalDesk.run perform verify sha256 actions desk).Settled perform Ok ∧
      Stays perform desk (ApprovalDesk.run perform verify sha256 actions desk) := by
  induction actions generalizing desk with
  | nil => exact ⟨hs, Stays.refl desk⟩
  | cons action rest ih =>
      obtain ⟨hone, hstay⟩ := @Settled.step _ _ _ _ _ sha256 _ _ hb hs _ hmet.1
      obtain ⟨hall, hrest⟩ := ih hone hmet.2
      exact ⟨hall, hstay.trans hrest⟩

/-- A sequence that is met is met to its end from everywhere. -/
theorem along_append {done rest : List Action}
    (hmet : Along isDatetime tokenHash perform verify sha256 (done ++ rest) desk) :
    Along isDatetime tokenHash perform verify sha256 done desk ∧
      Along isDatetime tokenHash perform verify sha256 rest
        (ApprovalDesk.run perform verify sha256 done desk) := by
  induction done generalizing desk with
  | nil => exact ⟨trivial, hmet⟩
  | cons action done ih =>
      obtain ⟨hfirst, hrest⟩ := ih hmet.2
      exact ⟨⟨hmet.1, hfirst⟩, hrest⟩

/-- **Decisions are final on a backend that keeps them.** -/
theorem final_of_met (hb : KeepsDecisions isDatetime tokenHash perform Ok) (hok : Ok desk.store)
    (hnone : desk.started = []) {actions : List Action}
    (hmet : Along isDatetime tokenHash perform verify sha256 actions desk) :
    Final perform verify sha256 desk actions := by
  have hs : desk.Settled perform Ok := by
    have hnobody : ∀ id, desk.startedFor id = [] := by
      intro id
      rw [startedFor, hnone]
      rfl
    refine ⟨hok, ?_, ?_⟩
    · intro id
      rw [hnobody]
      exact Nat.zero_le 1
    · intro id hstarted
      exact absurd (hnobody id) hstarted
  have hpart : ∀ done, done <+: actions →
      Along isDatetime tokenHash perform verify sha256 done desk := by
    rintro done ⟨rest, rfl⟩
    exact (along_append hmet).1
  refine ⟨?_, ?_⟩
  · rintro done later ⟨rest, rfl⟩ hlater
    obtain ⟨hdone, hrest⟩ := along_append (hpart _ hlater)
    have hmoved := ((hs.run hb hdone).1.run hb hrest).2
    have hsplit : ApprovalDesk.run perform verify sha256 (done ++ rest) desk
        = ApprovalDesk.run perform verify sha256 rest
            (ApprovalDesk.run perform verify sha256 done desk) := List.foldl_append
    rw [hsplit]
    exact hmoved
  · intro done hdone id
    exact (hs.run hb (hpart done hdone)).1.once id

end Step

/-- **When approvals are final.**  On the empty memory store and on the empty SQLite store, over
every sequence of calls: if every call is met, then a verdict stays as it is, a request has one
continuation at most, and none is started once it has been rejected. -/
theorem approvals_final {isDatetime : String → Bool} {tokenHash : String → String}
    {verify : String → String → String → Bool} {sha256 : String → String} {db : Database}
    {actions : List Action} :
    (Along isDatetime tokenHash (MemoryStores.perform isDatetime tokenHash) verify sha256 actions
        ⟨.empty, []⟩ →
      Final (MemoryStores.perform isDatetime tokenHash) verify sha256 ⟨.empty, []⟩ actions) ∧
    (Along isDatetime tokenHash (SqliteStores.perform isDatetime tokenHash db) verify sha256 actions
        ⟨.empty, []⟩ →
      Final (SqliteStores.perform isDatetime tokenHash db) verify sha256 ⟨.empty, []⟩ actions) := by
  refine ⟨?_, ?_⟩
  · exact final_of_met memory_keepsDecisions trivial rfl
  · exact final_of_met sqlite_keepsDecisions ⟨_, mirrors_empty⟩ rfl

/-! ### One approval, and one that is taken back -/

def patchRequest : ApprovalRequest where
  approvalRequestId := "request"
  taskId := "task"
  projectId := "project"
  intentId := "intent"
  requestedRiskLevel := .write
  requestedCapability := "patch"
  taskRunId := "run"
  requestedAt := "2026-01-01T00:00:00.000Z"
  prompt := "Apply the patch?"
  traceId := "trace"

def patchEnvelope : ApprovalContinuationEnvelope :=
  ⟨"repository_patch", patchRequest, "project", "run", "trace", .null⟩

def operator : ApprovalActionInput := ⟨"task", "operator", "because", none⟩

/-- The request is created, its continuation recorded, and the task approved. -/
def approvedOnce : List Action :=
  [.createApprovalRequest patchRequest, .recordApprovalContinuationEnvelope patchEnvelope,
    .approveTask (fun _ => some "continuation") operator "2026-01-02T00:00:00.000Z"]

theorem approvedOnce_final :
    Final (MemoryStores.perform (fun _ => true) fun _ => "hash") (fun _ _ _ => true) id ⟨.empty, []⟩
        approvedOnce ∧
      Final (SqliteStores.perform (fun _ => true) (fun _ => "hash") plainDatabase)
        (fun _ _ _ => true) id ⟨.empty, []⟩ approvedOnce := by
  obtain ⟨hmemory, hsqlite⟩ := @approvals_final (fun _ => true) (fun _ => "hash") (fun _ _ _ => true)
    id plainDatabase approvedOnce
  refine ⟨hmemory ⟨?_, trivial, ?_, trivial⟩, hsqlite ⟨?_, trivial, ?_, trivial⟩⟩
  · intro decision hdecision
    cases hdecision
  · intro existing hfound
    have hverdict : (getApprovalDecisionForTask (MemoryStores.perform (fun _ => true) fun _ => "hash")
        (run (MemoryStores.perform (fun _ => true) fun _ => "hash") (fun _ _ _ => true) id
          (approvedOnce.take 2) ⟨.empty, []⟩) operator.taskId).map (·.decision)
          = some .requested := by decide +kernel
    have hrequested := congrArg (Option.map ApprovalDecision.decision) hfound
    exact Or.inr (Or.inr (Or.inl (Option.some.inj (hrequested.symm.trans hverdict))))
  · intro decision hdecision
    cases hdecision
  · intro existing hfound
    have hverdict : (getApprovalDecisionForTask (SqliteStores.perform (fun _ => true)
        (fun _ => "hash") plainDatabase) (run (SqliteStores.perform (fun _ => true)
          (fun _ => "hash") plainDatabase) (fun _ _ _ => true) id (approvedOnce.take 2) ⟨.empty, []⟩)
            operator.taskId).map (·.decision) = some .requested := by decide +kernel
    have hrequested := congrArg (Option.map ApprovalDecision.decision) hfound
    exact Or.inr (Or.inr (Or.inl (Option.some.inj (hrequested.symm.trans hverdict))))

/-- A second operator rejects what the first approved. -/
def approvedThenRejected : List Action :=
  approvedOnce ++ [.rejectTask operator "2026-01-03T00:00:00.000Z"]

theorem approvedThenRejected_not_final : ¬ ∀ (isDatetime : String → Bool)
    (tokenHash : String → String) (verify : String → String → String → Bool)
    (sha256 : String → String) (actions : List Action),
    Final (MemoryStores.perform isDatetime tokenHash) verify sha256 ⟨.empty, []⟩ actions := by
  intro hall
  have hfinal := hall (fun _ => true) (fun _ => "hash") (fun _ _ _ => true) id approvedThenRejected
  have hstays := (hfinal.stays approvedOnce approvedThenRejected (List.prefix_append _ _)
    List.prefix_rfl).verdict "request"
  have hbefore : (getApprovalDecision (MemoryStores.perform (fun _ => true) fun _ => "hash")
      (run (MemoryStores.perform (fun _ => true) fun _ => "hash") (fun _ _ _ => true) id approvedOnce
        ⟨.empty, []⟩) "request").map (·.decision) = some .approved := by decide +kernel
  have hafter : (getApprovalDecision (MemoryStores.perform (fun _ => true) fun _ => "hash")
      (run (MemoryStores.perform (fun _ => true) fun _ => "hash") (fun _ _ _ => true) id
        approvedThenRejected ⟨.empty, []⟩) "request").map (·.decision) = some .rejected := by
    decide +kernel
  obtain ⟨decision, hdecision, happroved⟩ := Option.map_eq_some_iff.mp hbefore
  obtain ⟨later, hlater, hsame⟩ := hstays decision hdecision (by
    rw [happroved]
    exact Decision.noConfusion)
  rw [hlater, Option.map_some, hsame, happroved, Option.some.injEq] at hafter
  exact Decision.noConfusion hafter

end ApprovalDesk

end OpenLagrange
