/-
What is done with repository plans from outside.

Plans are applied and resumed, their scope requests and other approval requests are approved and
rejected, and their worktrees are cleaned up.  All of these share one approval store and one
status file for each plan.  A run of the runner is the program in `RepositoryPlanRunner.lean`,
served by the store and the files where it asks for an approval or writes a status, and by the
surroundings everywhere else.

The log says what happened, the newest first; only statements about runs read it.
-/
import OpenLagrange.Repository.RepositoryPlanRunner
import OpenLagrange.Repository.ScopeApproval

namespace OpenLagrange

inductive ScopeEvent where
  /-- An approval request of this id was created, or created anew. -/
  | opened (requestId : String)
  /-- The content of this scope request was put into its envelope. -/
  | asked (request : PersistedScopeExpansionRequest)
  | decided (requestId : String) (approved : Bool)
  /-- A runner is started with what this context says. -/
  | resumed (planId : String) (context : ScopeExpansionResumeContext)
  /-- A request was marked applied in the status of a plan. -/
  | applied (planId requestId : String)

/-- What a repository run meets outside of the store and the status files. -/
structure Surroundings (ω : Type) where
  answer : Prog.Handler RepositoryCall RepositoryAnswer ω
  /-- The plan in the execution copy under a repository, by its root and the id of the plan. -/
  executionCopy : ω → String → String → Except String Planfile

structure ScopeDesk (σ ω : Type) where
  store : σ
  files : String → StatusFile
  outside : ω
  log : List ScopeEvent

namespace ScopeDesk

variable {σ ω : Type} (perform : StoreBackend σ) (surroundings : Surroundings ω)
  (P : RepositoryPlatform) (desk : ScopeDesk σ ω)

/-! ### The store -/

/-- What an operation of the store did, for the log. -/
def eventOf : (op : StoreOp) → op.Result → List ScopeEvent
  | .createApprovalRequest request, .ok _ => [.opened request.approvalRequestId]
  | .approveRequest id _ _ _, .ok (some _) => [.decided id true]
  | .rejectRequest id _ _ _, .ok (some _) => [.decided id false]
  | _, _ => []

def use (op : StoreOp) : ScopeDesk σ ω :=
  { desk with
    store := (perform desk.store op).1
    log := eventOf op (perform desk.store op).2 ++ desk.log }

def answerOf (op : StoreOp) : op.Result := (perform desk.store op).2

/-- `createScopeExpansionApproval`. -/
def createScopeExpansionApproval (request : PersistedScopeExpansionRequest) (now : String) :
    Except String ScopeApproval × ScopeDesk σ ω :=
  let created : StoreOp := .createApprovalRequest (scopeApprovalRequest P.sha256 request now)
  let answer : Except SchemaError ApprovalDecision := desk.answerOf perform created
  let desk := desk.use perform created
  match answer with
  | .error _ => (.error "Invalid ApprovalRequest", desk)
  | .ok decision =>
      if (scopeApprovalPayload P.sha256 request).refined P.isDatetime then
        let desk := desk.use perform
          (.recordApprovalContinuationEnvelope (scopeEnvelope P.sha256 request now))
        (.ok ⟨decision.approvalRequestId, decision.decision⟩,
          { desk with log := .asked request :: desk.log })
      else (.error "Invalid ScopeExpansionApprovalPayload", desk)

/-! ### The files -/

/-- The schema of a status refuses a time that is none. -/
def writeStatusFile (status : RepositoryPlanStatus) :
    Except String RepositoryPlanStatus × ScopeDesk σ ω :=
  if P.isDatetime status.updatedAt then
    (.ok status,
      { desk with files := Function.update desk.files status.planId (.ok (some status)) })
  else (.error "Invalid RepositoryPlanStatus", desk)

def updateScopeStatus (planId requestId : String) (approved : Bool) (now : String) :
    Except String (Option RepositoryPlanStatus) × ScopeDesk σ ω :=
  match desk.files planId with
  | .error message => (.error message, desk)
  | .ok none => (.ok none, desk)
  | .ok (some status) =>
      let (written, desk) := desk.writeStatusFile P (status.markScope requestId approved now)
      (written.map some, desk)

/-! ### A run of the runner -/

/-- The surroundings answer a call. -/
def answered (call : RepositoryCall) : Except String (RepositoryAnswer call) × ScopeDesk σ ω :=
  let (answer, outside) := surroundings.answer call desk.outside
  (answer, { desk with outside })

/-- Who serves the calls of a run that was started at `now`; every call may throw. -/
def serve (now : String) : Prog.Handler RepositoryCall RepositoryAnswer (ScopeDesk σ ω)
  | .createScopeExpansionApproval request, desk =>
      match desk.answered surroundings (.createScopeExpansionApproval request) with
      | (.error message, desk) => (.error message, desk)
      | (.ok _, desk) => desk.createScopeExpansionApproval perform P request now
  | .writeStatus status, desk =>
      match desk.answered surroundings (.writeStatus status) with
      | (.error message, desk) => (.error message, desk)
      | (.ok _, desk) =>
          let (written, desk) := desk.writeStatusFile P status
          (written.map fun _ => (), desk)
  | call, desk => desk.answered surroundings call

def runRepositoryPlan (o : RepositoryPlanRunnerOptions) (now : String) :
    Prog.Exec (ScopeDesk σ ω) RepositoryCall RepositoryPlanRunnerResult :=
  Prog.exec (serve perform surroundings P now) (RepositoryPlanRunner.constructAndRun P o) desk

/-- `applyRepositoryPlanfile`, in a worktree session that was created for it. -/
def applyRepositoryPlanfile (planfile : Planfile) (session : WorktreeSession)
    (hasReviewReportGenerator : Bool) (now : String) : ScopeDesk σ ω :=
  let plan := withCanonicalPlanDigest P.sha256 planfile
  if (validatePlanfile P.toPlatform none plan).ok then
    (desk.runRepositoryPlan perform surroundings P
      { planfile := plan
        session
        initialStatus := none
        resumeFromNodeId := none
        approvedScopeRequest := none
        expandedFiles := none
        expandedVerificationCommands := none
        hasReviewReportGenerator
        now := some now } now).state
  else desk

/-! ### Decisions -/

def decideRequest (requestId : String) (approved : Bool) (decidedBy reason now : String) :
    Except SchemaError (Option ApprovalDecision) × ScopeDesk σ ω :=
  if approved then
    (desk.answerOf perform (.approveRequest requestId decidedBy now reason),
      desk.use perform (.approveRequest requestId decidedBy now reason))
  else
    (desk.answerOf perform (.rejectRequest requestId decidedBy now reason),
      desk.use perform (.rejectRequest requestId decidedBy now reason))

/-- `approveRepositoryScopeRequest` and `rejectRepositoryScopeRequest`; the store throws on a
decision that its schema refuses. -/
def decideRepositoryScopeRequest (requestId : String) (approved : Bool)
    (decidedBy reason now : String) : ScopeDesk σ ω :=
  match desk.decideRequest perform requestId approved decidedBy reason now with
  | (.error _, desk) => desk
  | (.ok _, desk) =>
      match scopeEnvelopeOf perform desk.store requestId with
      | none => desk
      | some envelope => (desk.updateScopeStatus P envelope.projectId requestId approved now).2

/-! ### Resuming -/

/-- What a resume runs the runner with. -/
def resumeOptions (context : ScopeExpansionResumeContext) (session : WorktreeSession)
    (status : RepositoryPlanStatus) (hasReviewReportGenerator : Bool) (now : String) :
    RepositoryPlanRunnerOptions where
  planfile := context.planfile
  session
  initialStatus := some status
  resumeFromNodeId := some context.request.nodeId
  approvedScopeRequest := some context.request
  expandedFiles := some context.requestedFiles
  expandedVerificationCommands := some context.requestedVerificationCommands
  hasReviewReportGenerator
  now := some now

/-- `markScopeExpansionApplied`, on the status that a run has ended with. -/
def markScopeExpansionApplied (status : RepositoryPlanStatus) (requestId now : String) :
    ScopeDesk σ ω :=
  match desk.writeStatusFile P (status.applyScope requestId now) with
  | (.error _, desk) => desk
  | (.ok written, desk) => { desk with log := .applied written.planId requestId :: desk.log }

def resumeRepositoryPlan (planId : String) (hasReviewReportGenerator : Bool) (now : String) :
    ScopeDesk σ ω :=
  match loadApprovedScopeExpansionForResume perform P.isDatetime P.sha256 desk.store
      (desk.files planId) (surroundings.executionCopy desk.outside) planId with
  | .error _ => desk
  | .ok context =>
      match context.status.worktreeSession with
      | none => desk
      | some session =>
          match desk.updateScopeStatus P context.status.planId context.request.requestId true now with
          | (.error _, desk) => desk
          | (.ok updated, desk) =>
              let desk := { desk with log := .resumed context.status.planId context :: desk.log }
              let run := desk.runRepositoryPlan perform surroundings P
                (resumeOptions context session (updated.getD context.status)
                  hasReviewReportGenerator now) now
              match run.outcome with
              | .error _ => run.state
              | .ok result =>
                  run.state.markScopeExpansionApplied P result.status context.request.requestId now

/-! ### Everything that is done -/

/-- The status that a new plan starts with. -/
def createRepositoryPlanfile (planId now : String) (artifactRefs warnings : List String) :
    ScopeDesk σ ω :=
  (desk.writeStatusFile P
    { createRepositoryPlanStatus planId now with artifactRefs, warnings }).2

/-- `cleaned` is the session of the plan's worktree once it was cleaned up. -/
def cleanupRepositoryPlan (planId : String) (cleaned : WorktreeSession) : ScopeDesk σ ω :=
  match desk.files planId with
  | .ok (some status) =>
      match status.worktreeSession with
      | none => desk
      | some _ =>
          (desk.writeStatusFile P
            { status with worktreeSession := some cleaned, updatedAt := cleaned.updatedAt }).2
  | _ => desk

inductive Action where
  | create (planId now : String) (artifactRefs warnings : List String)
  | apply (planfile : Planfile) (session : WorktreeSession) (hasReviewReportGenerator : Bool)
      (now : String)
  | decideScope (requestId : String) (approved : Bool) (decidedBy reason now : String)
  | resume (planId : String) (hasReviewReportGenerator : Bool) (now : String)
  | cleanup (planId : String) (cleaned : WorktreeSession)
  /-- Any other use of the approval store, `approveApprovalRequest` and `rejectApprovalRequest`
  among them; none keeps the content of a scope request. -/
  | use (op : StoreOp)
      (other : ∀ envelope, op = .recordApprovalContinuationEnvelope envelope →
        envelope.kind ≠ "scope_expansion")
  /-- Someone else writes the status file of a plan. -/
  | tamper (planId : String) (file : StatusFile)

def step : Action → ScopeDesk σ ω
  | .create planId now artifactRefs warnings =>
      desk.createRepositoryPlanfile P planId now artifactRefs warnings
  | .apply planfile session hasReviewReportGenerator now =>
      desk.applyRepositoryPlanfile perform surroundings P planfile session
        hasReviewReportGenerator now
  | .decideScope requestId approved decidedBy reason now =>
      desk.decideRepositoryScopeRequest perform P requestId approved decidedBy reason now
  | .resume planId hasReviewReportGenerator now =>
      desk.resumeRepositoryPlan perform surroundings P planId hasReviewReportGenerator now
  | .cleanup planId cleaned => desk.cleanupRepositoryPlan P planId cleaned
  | .use op _ => desk.use perform op
  | .tamper planId file => { desk with files := Function.update desk.files planId file }

def run (actions : List Action) (desk : ScopeDesk σ ω) : ScopeDesk σ ω :=
  actions.foldl (step perform surroundings P) desk

/-- No plan has a status yet. -/
def initial (store : σ) (outside : ω) : ScopeDesk σ ω :=
  ⟨store, fun _ => .ok none, outside, []⟩

end ScopeDesk

end OpenLagrange
