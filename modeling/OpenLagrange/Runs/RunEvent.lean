/-
Run events, and the next actions that some of them carry.

An event is what a run tells its observers.  Its id is a 32-bit FNV-1a hash of the
run, the plan, the type, the node and the time, so two events of one node, type and
millisecond are one event to the store.
-/
import OpenLagrange.Platform

namespace OpenLagrange

structure StructuredError where
  code : String
  message : String
  intentId : Option String
  taskId : Option String
  observedAt : String
  deriving DecidableEq, Repr

inductive NextActionType where
  | approve | reject | resume | retry | configureProvider | inspectArtifact | exportArtifact
  | editPlan | cancel
  deriving DecidableEq, Repr

structure NextAction where
  actionId : String
  label : String
  command : Option String
  actionType : NextActionType
  required : Bool
  targetRef : Option String
  deriving DecidableEq, Repr

/-! ### Next actions -/

/-- Whether `text` begins with `word`, letters compared without case. -/
def beginsWith : List Char → List Char → Bool
  | [], _ => true
  | _ :: _, [] => false
  | c :: word, d :: text => c = d.toLower && beginsWith word text

def mentions (word : List Char) : List Char → Bool
  | [] => beginsWith word []
  | c :: text => beginsWith word (c :: text) || mentions word text

/-- `/provider|secret|credential/i`. -/
def mentionsProvider (message : String) : Bool :=
  ["provider", "secret", "credential"].any fun word => mentions word.toList message.toList

/-- An approval, and an artifact, as far as the next actions look at them. -/
structure ApprovalFacts where
  approvalId : String
  status : String

structure ArtifactFacts where
  artifactId : String
  exportable : Bool

def deriveRunNextActions (runId status : String) (activeNodeId : Option String)
    (approvals : List ApprovalFacts) (artifacts : List ArtifactFacts) (errors : List String) :
    List NextAction :=
  let requested := approvals.filter (·.status = "requested")
  (requested.flatMap fun approval =>
    [⟨"approve:" ++ approval.approvalId, "Approve " ++ approval.approvalId,
        some ("open-lagrange run approve " ++ runId ++ " " ++ approval.approvalId), .approve, true,
        some approval.approvalId⟩,
      ⟨"reject:" ++ approval.approvalId, "Reject " ++ approval.approvalId,
        some ("open-lagrange run reject " ++ runId ++ " " ++ approval.approvalId), .reject, true,
        some approval.approvalId⟩]) ++
  (if status = "yielded" ∨ status = "requires_approval" then
    [⟨"resume:" ++ runId, "Resume run", some ("open-lagrange run resume " ++ runId), .resume,
      requested.length = 0, some runId⟩] else []) ++
  (match activeNodeId with
    | some nodeId =>
        if (status = "failed" ∨ status = "yielded") ∧ nodeId ≠ "" then
          [⟨"retry:" ++ nodeId, "Retry " ++ nodeId, some ("open-lagrange run retry " ++ runId ++ " " ++
            nodeId ++ " --mode reuse-artifacts"), .retry, status = "failed", some nodeId⟩]
        else []
    | none => []) ++
  (if errors.any mentionsProvider then
    [⟨"configure_provider", "Configure provider", some "open-lagrange provider list",
      .configureProvider, true, none⟩] else []) ++
  (match artifacts.head? with
    | some artifact =>
        ⟨"inspect:" ++ artifact.artifactId, "Inspect " ++ artifact.artifactId,
          some ("open-lagrange artifact show " ++ artifact.artifactId), .inspectArtifact, false,
          some artifact.artifactId⟩ ::
        (if artifact.exportable then
          [⟨"export:" ++ artifact.artifactId, "Export " ++ artifact.artifactId,
            some ("open-lagrange artifact export " ++ artifact.artifactId ++
              " --output ./artifact.out"), .exportArtifact, false, some artifact.artifactId⟩] else [])
    | none => []) ++
  [⟨"edit_plan:" ++ runId, "Edit plan", some ("open-lagrange run explain " ++ runId), .editPlan,
    false, some runId⟩] ++
  (if status ∈ ["completed", "failed", "cancelled"] then [] else
    [⟨"cancel:" ++ runId, "Cancel run", some ("open-lagrange run cancel " ++ runId), .cancel, false,
      some runId⟩])

/-! ### Events -/

/-- What every event about a node says: the node, its attempt and its title. -/
structure NodeBase where
  nodeId : String
  attemptId : String
  title : Option String
  deriving DecidableEq, Repr

/-- What an event says beyond its run, plan and time. -/
inductive RunEventBody where
  | runCreated
  | runStarted
  | runCompleted (artifactRefs : List String)
  | runFailed (errors : List StructuredError)
  | runYielded (reason : String) (nextActions : List NextAction)
  | runCancelled (reason : Option String)
  | nodeStarted (base : NodeBase)
  | nodeCompleted (base : NodeBase) (artifactRefs : List String)
  | nodeFailed (base : NodeBase) (errors : List StructuredError)
  | nodeYielded (base : NodeBase) (reason : String) (nextActions : List NextAction)
  | capabilityStarted (base : NodeBase) (capabilityRef : String)
  | capabilityCompleted (base : NodeBase) (capabilityRef : String) (artifactRefs : List String)
  | capabilityFailed (base : NodeBase) (capabilityRef : String) (errors : List StructuredError)
  | policyEvaluated (nodeId capabilityRef : Option String) (decision : String)
  | approvalRequested (nodeId : Option String) (approvalId : String)
  | approvalResolved (nodeId : Option String) (approvalId : String) (approved : Bool)
  | artifactCreated (nodeId : Option String) (artifactId kind : String)
  | modelCallCompleted (nodeId : Option String) (artifactId role model : String)
  | verificationStarted (base : NodeBase) (commandId : String)
  | verificationCompleted (base : NodeBase) (commandId : String) (passed : Bool)
  | repairStarted (base : NodeBase) (repairAttempt : Nat)
  | repairCompleted (base : NodeBase) (repairAttempt : Nat) (status : String)
  deriving DecidableEq, Repr

structure RunEvent where
  eventId : String
  runId : String
  planId : String
  timestamp : String
  body : RunEventBody
  deriving DecidableEq, Repr

namespace RunEventBody

def type : RunEventBody → String
  | runCreated => "run.created"
  | runStarted => "run.started"
  | runCompleted _ => "run.completed"
  | runFailed _ => "run.failed"
  | runYielded _ _ => "run.yielded"
  | runCancelled _ => "run.cancelled"
  | nodeStarted _ => "node.started"
  | nodeCompleted _ _ => "node.completed"
  | nodeFailed _ _ => "node.failed"
  | nodeYielded _ _ _ => "node.yielded"
  | capabilityStarted _ _ => "capability.started"
  | capabilityCompleted _ _ _ => "capability.completed"
  | capabilityFailed _ _ _ => "capability.failed"
  | policyEvaluated _ _ _ => "policy.evaluated"
  | approvalRequested _ _ => "approval.requested"
  | approvalResolved _ _ _ => "approval.resolved"
  | artifactCreated _ _ _ => "artifact.created"
  | modelCallCompleted _ _ _ _ => "model_call.completed"
  | verificationStarted _ _ => "verification.started"
  | verificationCompleted _ _ _ => "verification.completed"
  | repairStarted _ _ => "repair.started"
  | repairCompleted _ _ _ => "repair.completed"

/-- The node an event is about. -/
def nodeId : RunEventBody → Option String
  | nodeStarted base | nodeCompleted base _ | nodeFailed base _ | nodeYielded base _ _
  | capabilityStarted base _ | capabilityCompleted base _ _ | capabilityFailed base _ _
  | verificationStarted base _ | verificationCompleted base _ _ | repairStarted base _
  | repairCompleted base _ _ => some base.nodeId
  | policyEvaluated nodeId _ _ | approvalRequested nodeId _ | approvalResolved nodeId _ _
  | artifactCreated nodeId _ _ | modelCallCompleted nodeId _ _ _ => nodeId
  | _ => none

def title : RunEventBody → Option String
  | nodeStarted base | nodeCompleted base _ | nodeFailed base _ | nodeYielded base _ _
  | capabilityStarted base _ | capabilityCompleted base _ _ | capabilityFailed base _ _
  | verificationStarted base _ | verificationCompleted base _ _ | repairStarted base _
  | repairCompleted base _ _ => base.title
  | _ => none

def capabilityRef : RunEventBody → Option String
  | capabilityStarted _ ref | capabilityCompleted _ ref _ | capabilityFailed _ ref _ => some ref
  | policyEvaluated _ ref _ => ref
  | _ => none

def artifactId : RunEventBody → Option String
  | artifactCreated _ artifactId _ | modelCallCompleted _ artifactId _ _ => some artifactId
  | _ => none

def approvalId : RunEventBody → Option String
  | approvalRequested _ approvalId | approvalResolved _ approvalId _ => some approvalId
  | _ => none

end RunEventBody

/-- 32-bit FNV-1a over the UTF-16 code units, in hexadecimal. -/
def hashString (value : String) : String :=
  let hash := (utf16 value).foldl (fun hash unit => ((hash ^^^ unit) * 0x01000193) % 2 ^ 32) 0x811c9dc5
  let digits := Nat.toDigits 16 hash
  String.ofList (List.replicate (8 - digits.length) '0' ++ digits)

def createRunEvent (runId planId timestamp : String) (body : RunEventBody) : RunEvent :=
  let key := ":".intercalate
    [runId, planId, body.type, body.nodeId.getD "", body.capabilityRef.getD "",
      body.artifactId.getD "", body.approvalId.getD "", timestamp]
  { eventId := "run_event_" ++ firstChars 24 (hashString key)
    runId
    planId
    timestamp
    body }

/-- What `createRunEvent` is given: an id may come with it. -/
structure RunEventInput where
  eventId : Option String
  runId : String
  planId : String
  timestamp : String
  body : RunEventBody

/-- The event made of an input; without an id it is given one. -/
def RunEventInput.event (input : RunEventInput) : RunEvent :=
  let created := createRunEvent input.runId input.planId input.timestamp input.body
  { created with eventId := input.eventId.getD created.eventId }

/-! ### What the event schema accepts

The structures carry the shape; what is left to check are the lengths and formats, and
that the code of an error is one the schema lists.
-/

/-- The error codes the schema lists. -/
def structuredErrorCodes : List String :=
  ["INVALID_ARTIFACT", "INVALID_PLAN", "INVALID_DELEGATION_CONTEXT", "SNAPSHOT_MISMATCH",
    "UNKNOWN_MCP_SERVER", "UNKNOWN_CAPABILITY", "CAPABILITY_DIGEST_MISMATCH",
    "SCHEMA_VALIDATION_FAILED", "POLICY_DENIED", "APPROVAL_REQUIRED", "PRECONDITION_FAILED",
    "BUDGET_EXCEEDED", "MCP_EXECUTION_FAILED", "RESULT_VALIDATION_FAILED", "CRITIC_FAILED",
    "REVISION_UNSUPPORTED", "MODEL_PROVIDER_UNAVAILABLE", "PATCH_PLAN_GENERATION_FAILED",
    "YIELDED"]

section Refined

variable (isDatetime : String → Bool)

def StructuredError.refined (e : StructuredError) : Bool :=
  e.code ∈ structuredErrorCodes && isDatetime e.observedAt

def NextAction.refined (a : NextAction) : Bool :=
  nonempty a.actionId && nonempty a.label && a.command.all nonempty && a.targetRef.all nonempty

def NodeBase.refined (base : NodeBase) : Bool :=
  nonempty base.nodeId && nonempty base.attemptId && base.title.all nonempty

def RunEventBody.refined : RunEventBody → Bool
  | .runCreated | .runStarted => true
  | .runCompleted refs => refs.all nonempty
  | .runFailed errors => errors.all (·.refined isDatetime)
  | .runYielded reason actions => nonempty reason && actions.all (·.refined)
  | .runCancelled reason => reason.all nonempty
  | .nodeStarted base => base.refined
  | .nodeCompleted base refs => base.refined && refs.all nonempty
  | .nodeFailed base errors => base.refined && errors.all (·.refined isDatetime)
  | .nodeYielded base reason actions =>
      base.refined && nonempty reason && actions.all (·.refined)
  | .capabilityStarted base ref => base.refined && nonempty ref
  | .capabilityCompleted base ref refs => base.refined && nonempty ref && refs.all nonempty
  | .capabilityFailed base ref errors =>
      base.refined && nonempty ref && errors.all (·.refined isDatetime)
  | .policyEvaluated nodeId ref decision =>
      nodeId.all nonempty && ref.all nonempty && nonempty decision
  | .approvalRequested nodeId id | .approvalResolved nodeId id _ =>
      nodeId.all nonempty && nonempty id
  | .artifactCreated nodeId id kind => nodeId.all nonempty && nonempty id && nonempty kind
  | .modelCallCompleted nodeId id role model =>
      nodeId.all nonempty && nonempty id && nonempty role && nonempty model
  | .verificationStarted base commandId | .verificationCompleted base commandId _ =>
      base.refined && nonempty commandId
  | .repairStarted base attempt => base.refined && 1 ≤ attempt
  | .repairCompleted base attempt status => base.refined && 1 ≤ attempt && nonempty status

def RunEvent.refined (event : RunEvent) : Bool :=
  nonempty event.eventId && nonempty event.runId && nonempty event.planId &&
    isDatetime event.timestamp && event.body.refined isDatetime

end Refined

@[simp] theorem nonempty_iff {s : String} : nonempty s = true ↔ s ≠ "" := by
  unfold nonempty
  exact decide_eq_true_iff

/-- A text that begins with a non-empty text is not empty. -/
theorem append_ne_empty {s : String} (hs : s ≠ "") (t : String) : s ++ t ≠ "" := by
  intro h
  have hs' : s.toList = [] := by
    have happend : s.toList ++ t.toList = [] := by rw [← String.toList_append, h]; rfl
    exact (List.append_eq_nil_iff.mp happend).1
  exact hs (String.toList_eq_nil_iff.mp hs')

@[simp] theorem createRunEvent_runId (runId planId timestamp : String) (body : RunEventBody) :
    (createRunEvent runId planId timestamp body).runId = runId := rfl

@[simp] theorem createRunEvent_body (runId planId timestamp : String) (body : RunEventBody) :
    (createRunEvent runId planId timestamp body).body = body := rfl

/-- The id of an event is never empty, so only what it is made of can be refused. -/
theorem createRunEvent_refined {isDatetime : String → Bool} {runId planId timestamp : String}
    {body : RunEventBody} (hrun : runId ≠ "") (hplan : planId ≠ "")
    (htime : isDatetime timestamp = true) (hbody : body.refined isDatetime = true) :
    (createRunEvent runId planId timestamp body).refined isDatetime = true := by
  have hid : (createRunEvent runId planId timestamp body).eventId ≠ "" :=
    append_ne_empty (by decide) _
  simp only [RunEvent.refined, Bool.and_eq_true, nonempty_iff]
  exact ⟨⟨⟨⟨hid, hrun⟩, hplan⟩, htime⟩, hbody⟩

end OpenLagrange
