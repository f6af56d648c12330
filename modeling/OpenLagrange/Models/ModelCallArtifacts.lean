/-
The artifacts that model calls leave behind.

A call that is persisted is written to three files: what was asked, what was answered, and what is
known of the call.  The three are entered into the index of artifacts, and the calls of a plan are
found there again.  What a call used is read back from its file into a usage record.

Roles and statuses are fewer on disk than in a record: a role that has no name there is written
as a repair, and a status that is neither a success nor an unavailable provider is read as a
failure.
-/
import OpenLagrange.Artifacts.ArtifactViewer
import OpenLagrange.Models.ProviderUsage

namespace OpenLagrange.Models

open LocalPath
open Artifacts (ViewerPlatform)

/-! ### What is known of a call -/

inductive ModelCallArtifactRole where
  | planner | implementer | repair | reviewer | summarizer | classifier
  deriving DecidableEq, Repr

def ModelCallArtifactRole.text : ModelCallArtifactRole → String
  | .planner => "planner"
  | .implementer => "implementer"
  | .repair => "repair"
  | .reviewer => "reviewer"
  | .summarizer => "summarizer"
  | .classifier => "classifier"

def artifactRoleForModelRole (role : String) : ModelCallArtifactRole :=
  if role = "planner" then .planner
  else if role = "implementer" then .implementer
  else if role = "repair" then .repair
  else if role = "reviewer" then .reviewer
  else if role = "summarizer" then .summarizer
  else if role = "classifier" then .classifier
  else .repair

inductive ModelCallArtifactStatus where
  | success | failed | yielded | validationFailed | providerUnavailable
  deriving DecidableEq, Repr

def ModelCallArtifactStatus.text : ModelCallArtifactStatus → String
  | .success => "success"
  | .failed => "failed"
  | .yielded => "yielded"
  | .validationFailed => "validation_failed"
  | .providerUnavailable => "provider_unavailable"

inductive ModelCallSchemaValidationStatus where
  | notApplicable | passed | failed
  deriving DecidableEq, Repr

def ModelCallSchemaValidationStatus.text : ModelCallSchemaValidationStatus → String
  | .notApplicable => "not_applicable"
  | .passed => "passed"
  | .failed => "failed"

inductive ModelCallRedactionStatus where
  | redacted | noSensitiveContentDetected | redactionFailed
  deriving DecidableEq, Repr

structure TokenUsage where
  inputTokens : Option Nat
  outputTokens : Option Nat
  totalTokens : Option Nat
  cachedInputTokens : Option Nat
  reasoningTokens : Option Nat
  estimated : Bool
  deriving DecidableEq, Repr

structure CallCost where
  estimatedCostUsd : Option JsNumber
  providerReportedCostUsd : Option JsNumber
  estimated : Bool
  deriving DecidableEq, Repr

structure CallFields where
  artifactId : String
  callId : String
  routeId : Option String
  role : ModelCallArtifactRole
  provider : String
  model : String
  status : ModelCallArtifactStatus
  planId : Option String
  nodeId : Option String
  workOrderId : Option String
  scenarioId : Option String
  evalRunId : Option String
  inputArtifactRefs : List String
  outputArtifactRefs : List String
  redactedPromptArtifactId : Option String
  redactedResponseArtifactId : Option String
  outputSchemaName : Option String
  schemaValidationStatus : ModelCallSchemaValidationStatus
  tokenUsage : TokenUsage
  cost : CallCost
  latencyMs : Option Nat
  startedAt : String
  completedAt : Option String
  errorCode : Option String
  errorMessage : Option String
  redactionStatus : ModelCallRedactionStatus
  deriving DecidableEq, Repr

/-- What a file of the store holds: what is known of a call, or what was asked or answered. -/
inductive StoredJson where
  | call (fields : CallFields)
  | exchange (callId role : String) (value : Value)

/-- What the store takes from its platform.  The hash is written in 64 hexadecimal digits, and a
text compares as equal to itself. -/
structure ModelCallPlatform extends ViewerPlatform where
  sha256 : String → String
  sha256_length : ∀ text, (sha256 text).toList.length = 64
  sha256_hex : ∀ text, ∀ c ∈ (sha256 text).toList, '0' ≤ c ∧ c ≤ '9' ∨ 'a' ≤ c ∧ c ≤ 'f'
  localeCompare_self : ∀ text, localeCompare text text = .eq
  redactModelCallValue : Value → Value × ModelCallRedactionStatus
  /-- How long the text of a file is. -/
  jsonSize : StoredJson → Nat

variable (P : ModelCallPlatform)

/-- What the schema asks of a call. -/
def CallFields.accepted (call : CallFields) : Bool :=
  [call.artifactId, call.callId, call.provider, call.model].all (· ≠ "") &&
    [call.routeId, call.planId, call.nodeId, call.workOrderId, call.scenarioId, call.evalRunId,
      call.redactedPromptArtifactId, call.redactedResponseArtifactId, call.outputSchemaName,
      call.errorCode, call.errorMessage].all isNonempty &&
    (call.inputArtifactRefs ++ call.outputArtifactRefs).all (· ≠ "") &&
    [call.tokenUsage.inputTokens, call.tokenUsage.outputTokens, call.tokenUsage.totalTokens,
      call.tokenUsage.cachedInputTokens, call.tokenUsage.reasoningTokens, call.latencyMs].all
        (·.all (· ≤ maxSafeInteger)) &&
    call.cost.estimatedCostUsd.all isAmount && call.cost.providerReportedCostUsd.all isAmount &&
    P.isDatetime call.startedAt && call.completedAt.all P.isDatetime

structure ModelCallArtifact extends CallFields where
  accepted : toCallFields.accepted P = true

/-- `ModelCallArtifact.safeParse(content)`; what was asked or answered lacks most fields. -/
def ModelCallArtifact.parse : StoredJson → Option (ModelCallArtifact P)
  | .exchange _ _ _ => none
  | .call fields =>
      if h : fields.accepted P = true then some { toCallFields := fields, accepted := h } else none

/-! ### Persisting -/

structure PersistModelCallArtifactsInput where
  artifactDir : String
  callId : String
  role : String
  provider : String
  model : String
  status : ModelCallArtifactStatus
  startedAt : String
  completedAt : Option String
  prompt : Value
  response : Value
  usageRecord : Option ModelUsageRecord
  routeId : Option String
  planId : Option String
  nodeId : Option String
  workOrderId : Option String
  scenarioId : Option String
  evalRunId : Option String
  inputArtifactRefs : List String
  outputArtifactRefs : List String
  outputSchemaName : Option String
  schemaValidationStatus : ModelCallSchemaValidationStatus
  latencyMs : Option Nat
  errorCode : Option String
  errorMessage : Option String

/-- The three files of a call. -/
inductive CallPart where
  | prompt | response | call
  deriving DecidableEq, Repr

def CallPart.suffix : CallPart → String
  | .prompt => "_prompt"
  | .response => "_response"
  | .call => ""

def CallPart.kind : CallPart → Output.ArtifactKind
  | .prompt | .response => .rawLog
  | .call => .modelCall

section

variable (input : PersistModelCallArtifactsInput)

/-- A property that is left undefined. -/
def optionalText (text : Option String) : Value := (text.map Value.str).getD .undefined

/-- The part of the hash that names a call. -/
def callDigest : String :=
  firstChars 18 (stableHash P.sha256 (.obj [("call", .str input.callId), ("role", .str input.role),
    ("plan", optionalText input.planId), ("node", optionalText input.nodeId),
    ("status", .str input.status.text)]))

def partId (part : CallPart) : String := "model_call_" ++ callDigest P input ++ part.suffix

theorem callDigest_hex {c : Char} (h : c ∈ (callDigest P input).toList) :
    '0' ≤ c ∧ c ≤ '9' ∨ 'a' ≤ c ∧ c ≤ 'f' := by
  unfold callDigest firstChars at h
  rw [String.toList_ofList] at h
  exact P.sha256_hex _ c (List.mem_of_mem_take h)

/-- An id is the name of a file. -/
def partFile (part : CallPart) : FileName where
  chars := (partId P input part ++ ".json").toList
  nonempty := by simp [partId]
  notDot := by simp [partId]
  notDots := by simp [partId]
  noSlash := by
    simp only [partId, String.toList_append, List.mem_append, not_or]
    refine ⟨⟨⟨by decide, ?_⟩, ?_⟩, by decide⟩
    · intro hslash
      have hhex := callDigest_hex P input hslash
      revert hhex
      decide
    · cases part <;> decide

def partPath (part : CallPart) : List Char := AbsolutePath.join input.artifactDir.toList (partFile P input part)

def combineRedactionStatus (left right : ModelCallRedactionStatus) : ModelCallRedactionStatus :=
  if left = .redactionFailed ∨ right = .redactionFailed then .redactionFailed
  else if left = .redacted ∨ right = .redacted then .redacted
  else .noSensitiveContentDetected

/-- `input.response ?? {}`. -/
def givenResponse : Value := if input.response.isNullish then .obj [] else input.response

def redactionOf : ModelCallRedactionStatus :=
  combineRedactionStatus (P.redactModelCallValue input.prompt).2
    (P.redactModelCallValue (givenResponse input)).2

def callFields : CallFields where
  artifactId := partId P input .call
  callId := input.callId
  routeId := present input.routeId
  role := artifactRoleForModelRole input.role
  provider := input.provider
  model := input.model
  status := input.status
  planId := present input.planId
  nodeId := present input.nodeId
  workOrderId := present input.workOrderId
  scenarioId := present input.scenarioId
  evalRunId := present input.evalRunId
  inputArtifactRefs := input.inputArtifactRefs
  outputArtifactRefs := input.outputArtifactRefs
  redactedPromptArtifactId := some (partId P input .prompt)
  redactedResponseArtifactId := some (partId P input .response)
  outputSchemaName := present input.outputSchemaName
  schemaValidationStatus := input.schemaValidationStatus
  tokenUsage :=
    { inputTokens := input.usageRecord.map (·.inputTokens)
      outputTokens := input.usageRecord.map (·.outputTokens)
      totalTokens := input.usageRecord.map (·.totalTokens)
      cachedInputTokens := input.usageRecord.bind (·.cachedInputTokens)
      reasoningTokens := input.usageRecord.bind (·.reasoningTokens)
      estimated := (input.usageRecord.map (·.estimated)).getD true }
  cost :=
    { estimatedCostUsd := input.usageRecord.bind (·.estimatedCostUsd)
      providerReportedCostUsd := input.usageRecord.bind (·.providerReportedCostUsd)
      estimated := (input.usageRecord.map (·.estimated)).getD true }
  latencyMs := input.latencyMs
  startedAt := input.startedAt
  completedAt := present input.completedAt
  errorCode := present input.errorCode
  errorMessage := present input.errorMessage
  redactionStatus := redactionOf P input

def partJson : CallPart → StoredJson
  | .prompt => .exchange input.callId input.role (P.redactModelCallValue input.prompt).1
  | .response => .exchange input.callId input.role (P.redactModelCallValue (givenResponse input)).1
  | .call => .call (callFields P input)

def partTitle : CallPart → String
  | .prompt => "Model Call Prompt " ++ input.role
  | .response => "Model Call Response " ++ input.role
  | .call => "Model Call " ++ input.role

def partSummary : CallPart → String
  | .prompt => "Redacted model-call prompt/context."
  | .response => "Redacted model-call response."
  | .call => input.status.text ++ " " ++ input.provider ++ "/" ++ input.model

def partInputRefs : CallPart → List String
  | .prompt => input.inputArtifactRefs
  | .response => [partId P input .prompt]
  | .call => input.inputArtifactRefs ++ [partId P input .prompt]

def partOutputRefs : CallPart → Option (List String)
  | .prompt => none
  | .response => some input.outputArtifactRefs
  | .call => some (input.outputArtifactRefs ++ [partId P input .response])

def summaryRedaction : ModelCallRedactionStatus → Output.RedactionStatus
  | .redactionFailed => .unknown
  | .redacted | .noSensitiveContentDetected => .redacted

end

/-- The files and the index. -/
structure CallStore where
  files : AbsolutePath → Option StoredJson
  index : List Artifacts.ArtifactSummary

def CallStore.write (store : CallStore) (path : List Char) (content : StoredJson) : CallStore :=
  { store with files := Function.update store.files (P.processCwd.resolve path) (some content) }

section

variable (input : PersistModelCallArtifactsInput)

def CallStore.writePart (store : CallStore) (part : CallPart) : CallStore :=
  store.write P (partPath P input part) (partJson P input part)

/-- The entry of a part in the index. -/
def createArtifactSummary (store : CallStore) (now : P.Timestamp) (part : CallPart) :
    Artifacts.ArtifactSummary where
  artifactId := partId P input part
  kind := part.kind
  artifactRole := some .debugLog
  title := partTitle input part
  summary := partSummary input part
  pathOrUri := String.ofList (partPath P input part)
  createdAt := now.1
  relatedRunId := none
  relatedPlanId := present input.planId
  producedByPackId := none
  producedByCapabilityId := none
  producedByPlanId := present input.planId
  inputArtifactRefs := some (partInputRefs P input part)
  outputArtifactRefs := partOutputRefs P input part
  redactionStatus := some (summaryRedaction (redactionOf P input))
  redacted := true
  restricted := none
  outputFormat := none
  checksumSha256 := none
  contentType := some "application/json"
  updatedAt := none
  executionMode := .live
  exportable := true
  sizeBytes := (Artifacts.resolvePath P.toViewerPlatform (String.ofList (partPath P input part))).bind
    fun path => (store.files (P.processCwd.resolve path)).map P.jsonSize
  details :=
    ((present input.nodeId).map fun node => ("produced_by_node_id", Value.str node)).toList ++
      (if part = .call then [("validation_status", .str input.schemaValidationStatus.text)] else [])

/-- A call is written and entered.  A call that a schema refuses leaves what was written before. -/
def persistModelCallArtifacts (store : CallStore) : Except CallStore CallStore :=
  let exchanged := (store.writePart P input .prompt).writePart P input .response
  match ModelCallArtifact.parse P (.call (callFields P input)) with
  | none => .error exchanged
  | some _ =>
      let written := exchanged.writePart P input .call
      let now := input.completedAt.getD input.startedAt
      if h : P.isDatetime now = true then
        let summaries := [.prompt, .response, .call].map
          (createArtifactSummary P input written ⟨now, h⟩)
        .ok { written with
          index := Artifacts.registerArtifacts P.toViewerPlatform written.index summaries ⟨now, h⟩ }
      else .error written

end

/-! ### Reading back -/

def readArtifactContent (store : CallStore) (pathOrUri : String) : Option StoredJson :=
  let path := if "file://".toList.isPrefixOf pathOrUri.toList then pathOrUri.toList.drop 7
    else pathOrUri.toList
  store.files (P.callerCwd.resolve path)

def listModelCallArtifactsForPlan (store : CallStore) (planId : String) :
    List (ModelCallArtifact P) :=
  (store.index.filter fun artifact =>
      artifact.kind = .modelCall ∧ artifact.relatedPlanId = some planId).filterMap
    fun artifact => (readArtifactContent P store artifact.pathOrUri).bind (ModelCallArtifact.parse P)

def usageStatusOf : ModelCallArtifactStatus → UsageStatus
  | .success => .completed
  | .providerUnavailable => .skipped
  | .failed | .yielded | .validationFailed => .failed

def rebuiltFields (artifact : CallFields) : UsageFields where
  provider := artifact.provider
  model := artifact.model
  roleLabel := artifact.role.text
  routeId := present artifact.routeId
  scenarioId := present artifact.scenarioId
  planId := present artifact.planId
  nodeId := present artifact.nodeId
  inputTokens := artifact.tokenUsage.inputTokens.getD 0
  outputTokens := artifact.tokenUsage.outputTokens.getD 0
  totalTokens := artifact.tokenUsage.totalTokens.getD 0
  cachedInputTokens := artifact.tokenUsage.cachedInputTokens
  reasoningTokens := artifact.tokenUsage.reasoningTokens
  providerReportedCostUsd := artifact.cost.providerReportedCostUsd
  estimatedCostUsd := artifact.cost.estimatedCostUsd
  requestId := none
  latencyMs := artifact.latencyMs.getD 0
  estimated := artifact.tokenUsage.estimated
  status := some (usageStatusOf artifact.status)
  error := present artifact.errorMessage
  outputArtifactId := some artifact.artifactId

theorem isNonempty_present (text : Option String) : isNonempty (present text) = true := by
  cases text with
  | none => rfl
  | some s =>
      by_cases hs : s = ""
      · subst hs
        decide
      · simp [present, isNonempty, Option.filter, hs]

theorem getD_le {count : Option Nat} (h : count.all (· ≤ maxSafeInteger) = true) :
    count.getD 0 ≤ maxSafeInteger := by
  cases count with
  | none => exact Nat.zero_le _
  | some n => exact of_decide_eq_true h

variable {P} in
theorem rebuiltFields_accepted (artifact : ModelCallArtifact P) :
    (rebuiltFields artifact.toCallFields).accepted = true := by
  have h := artifact.accepted
  simp only [CallFields.accepted, Bool.and_eq_true, List.all_cons, List.all_nil, and_true,
    decide_eq_true_eq] at h
  obtain ⟨⟨⟨⟨⟨⟨⟨htexts, -⟩, -⟩, hcounts⟩, hestimated⟩, hreported⟩, -⟩, -⟩ := h
  obtain ⟨hinput, houtput, htotal, hcached, hreasoning, hlatency⟩ := hcounts
  have hrole : artifact.role.text ≠ "" := by cases artifact.role <;> decide
  simp only [UsageFields.accepted, rebuiltFields, Bool.and_eq_true, List.all_cons, List.all_nil,
    and_true, decide_eq_true_eq, isNonempty_present]
  refine ⟨⟨⟨⟨⟨htexts.2.2.1, htexts.2.2.2, hrole⟩, ?_⟩, ?_⟩, hreported⟩, hestimated⟩
  · refine ⟨trivial, trivial, trivial, trivial, rfl, trivial, ?_⟩
    exact decide_eq_true htexts.1
  · exact ⟨getD_le hinput, getD_le houtput, getD_le htotal, getD_le hcached, getD_le hreasoning,
      getD_le hlatency⟩

/-- The record that is read off an artifact; the schema would take it. -/
def usageRecordFromModelCallArtifact (artifact : ModelCallArtifact P) : ModelUsageRecord where
  toUsageFields := rebuiltFields artifact.toCallFields
  accepted := rebuiltFields_accepted artifact

/-- The summary of a plan's calls: none if there are no calls, and none at all where the summary
is refused. -/
def summarizeModelCallArtifactsForPlan (R : Rounding) (store : CallStore) (planId : String) :
    Option (Option ModelUsageSummary) :=
  let records := (listModelCallArtifactsForPlan P store planId).map
    (usageRecordFromModelCallArtifact P)
  if records.length > 0 then (summarizeModelUsage R records).map some else some none

end OpenLagrange.Models
