/-
What model calls use, and what it adds up to.

A record says what one call used: the tokens in and out, the total the provider gave, and costs.
Where a provider reports nothing, the tokens are estimated from the texts.  The summary adds the
records up twice, once as a whole and once for each role.

The schemas take whole numbers up to `2 ^ 53 - 1`.  A sum that stays below is exact, and one that
does not is refused, rounded or not; so tokens are added up as natural numbers.  Costs are added
up as JavaScript adds them.
-/
import OpenLagrange.Lib.JsNumber
import OpenLagrange.Lib.Table
import OpenLagrange.Util.Text

namespace OpenLagrange.Models

/-- `Number.MAX_SAFE_INTEGER`. -/
def maxSafeInteger : Nat := 2 ^ 53 - 1

/-- `z.number().min(0)`. -/
def isAmount : JsNumber → Bool
  | .finite q => 0 ≤ q
  | _ => false

/-- `a > 0`. -/
def isPositive : JsNumber → Bool
  | .finite q => 0 < q
  | .infinity => true
  | _ => false

/-- `z.string().min(1).optional()`. -/
def isNonempty (text : Option String) : Bool := text.all (· ≠ "")

/-! ### Records -/

inductive UsageStatus where
  | completed | failed | skipped | fallback
  deriving DecidableEq, Repr

structure UsageFields where
  provider : String
  model : String
  roleLabel : String
  routeId : Option String
  scenarioId : Option String
  planId : Option String
  nodeId : Option String
  inputTokens : Nat
  outputTokens : Nat
  totalTokens : Nat
  cachedInputTokens : Option Nat
  reasoningTokens : Option Nat
  providerReportedCostUsd : Option JsNumber
  estimatedCostUsd : Option JsNumber
  requestId : Option String
  latencyMs : Nat
  estimated : Bool
  status : Option UsageStatus
  error : Option String
  outputArtifactId : Option String
  deriving DecidableEq, Repr

/-- What the schema asks of a record. -/
def UsageFields.accepted (record : UsageFields) : Bool :=
  [record.provider, record.model, record.roleLabel].all (· ≠ "") &&
    [record.routeId, record.scenarioId, record.planId, record.nodeId, record.requestId,
      record.error, record.outputArtifactId].all isNonempty &&
    [record.inputTokens, record.outputTokens, record.totalTokens,
      record.cachedInputTokens.getD 0, record.reasoningTokens.getD 0, record.latencyMs].all
        (· ≤ maxSafeInteger) &&
    record.providerReportedCostUsd.all isAmount && record.estimatedCostUsd.all isAmount

structure ModelUsageRecord extends UsageFields where
  accepted : toUsageFields.accepted = true

/-- `ModelUsageRecord.parse(record)`. -/
def ModelUsageRecord.parse (record : UsageFields) : Option ModelUsageRecord :=
  if h : record.accepted = true then some { toUsageFields := record, accepted := h } else none

/-! ### Making records -/

structure ModelRef where
  provider : String
  model : String
  roleLabel : String

/-- Where a call belongs. -/
structure TraceContext where
  routeId : Option String
  scenarioId : Option String
  planId : Option String
  nodeId : Option String

/-- What a provider returns of a call: its request id, and the numbers among the fields that
report the usage. -/
structure ProviderResult where
  requestId : Option String
  usage : String → Option JsNumber

/-- What a record is made of, besides what the provider reports.  The prompt and the output are
their JSON texts. -/
structure UsageInput where
  modelRef : ModelRef
  prompt : String
  output : String
  latencyMs : Nat
  status : Option UsageStatus
  error : Option String
  outputArtifactId : Option String
  trace : TraceContext

/-- What a text costs nothing to leave out: an empty one counts as none. -/
def present (text : Option String) : Option String := text.filter (· ≠ "")

def estimateTokens (text : String) : Nat := ((utf16 text).length + 3) / 4

/-- `numberField(value)`: a finite number, rounded, and zero where it is negative. -/
def numberField : Option JsNumber → Option Nat
  | some (.finite q) => some ⌊q + 1 / 2⌋.toNat
  | _ => none

section

variable (R : Rounding) (toLowerCase : String → String)

/-- A number as it is written in the source. -/
def literal (q : ℚ) : JsNumber := .finite (R.round q)

def priced (inputPrice outputPrice : ℚ) (inputTokens outputTokens : Nat) : JsNumber :=
  JsNumber.add R (JsNumber.mul R (.finite inputTokens) (literal R inputPrice))
    (JsNumber.mul R (.finite outputTokens) (literal R outputPrice))

def estimateCost (model : String) (inputTokens outputTokens : Nat) : Option JsNumber :=
  let lower := toLowerCase model
  if includes lower "gpt-4o-mini" then
    some (priced R (15 / 10 ^ 8) (6 / 10 ^ 7) inputTokens outputTokens)
  else if includes lower "gpt-4o" then
    some (priced R (25 / 10 ^ 7) (1 / 10 ^ 5) inputTokens outputTokens)
  else none

/-- A record of these tokens. -/
def usageFields (input : UsageInput) (inputTokens outputTokens totalTokens : Nat)
    (cached reasoning : Option Nat) (requestId : Option String) (estimated : Bool) :
    UsageFields where
  provider := input.modelRef.provider
  model := input.modelRef.model
  roleLabel := input.modelRef.roleLabel
  routeId := present input.trace.routeId
  scenarioId := present input.trace.scenarioId
  planId := present input.trace.planId
  nodeId := present input.trace.nodeId
  inputTokens
  outputTokens
  totalTokens
  cachedInputTokens := cached
  reasoningTokens := reasoning
  providerReportedCostUsd := none
  estimatedCostUsd := estimateCost R toLowerCase input.modelRef.model inputTokens outputTokens
  requestId
  latencyMs := input.latencyMs
  estimated
  status := input.status
  error := present input.error
  outputArtifactId := present input.outputArtifactId

def createEstimatedUsageRecord (input : UsageInput) : Option ModelUsageRecord :=
  let inputTokens := estimateTokens input.prompt
  let outputTokens := estimateTokens input.output
  ModelUsageRecord.parse (usageFields R toLowerCase input inputTokens outputTokens
    (inputTokens + outputTokens) none none none true)

/-- The first of the fields that is a number. -/
def ProviderResult.firstOf (result : ProviderResult) (names : List String) : Option Nat :=
  names.findSome? fun name => numberField (result.usage name)

def ProviderResult.inputTokens (result : ProviderResult) : Option Nat :=
  result.firstOf ["inputTokens", "promptTokens", "input_tokens"]

def ProviderResult.outputTokens (result : ProviderResult) : Option Nat :=
  result.firstOf ["outputTokens", "completionTokens", "output_tokens"]

def ProviderResult.totalTokens (result : ProviderResult) : Option Nat :=
  result.firstOf ["totalTokens", "total_tokens"]

def usageRecordFromProvider (input : UsageInput) (result : ProviderResult) :
    Option ModelUsageRecord :=
  let inputTokens := result.inputTokens
  let outputTokens := result.outputTokens
  let totalTokens := result.totalTokens
  if inputTokens = none ∧ outputTokens = none ∧ totalTokens = none then
    createEstimatedUsageRecord R toLowerCase input
  else
    let normalizedInput := inputTokens.getD (totalTokens.getD 0 - outputTokens.getD 0)
    let normalizedOutput := outputTokens.getD (totalTokens.getD 0 - normalizedInput)
    ModelUsageRecord.parse (usageFields R toLowerCase input normalizedInput normalizedOutput
      (totalTokens.getD (normalizedInput + normalizedOutput))
      ((result.firstOf ["cachedInputTokens", "cached_input_tokens"]).filter (· ≠ 0))
      ((result.firstOf ["reasoningTokens", "reasoning_tokens"]).filter (· ≠ 0))
      result.requestId false)

end

/-! ### The summary -/

/-- What the calls of a role used: its entries of `calls_by_role`, `model_calls_by_role`,
`tokens_by_role` and `cost_by_role`, which are written together. -/
structure RoleUsage where
  role : String
  calls : Nat
  inputTokens : Nat
  outputTokens : Nat
  totalTokens : Nat
  costUsd : JsNumber
  deriving DecidableEq, Repr

structure SummaryFields where
  provider : String
  modelsUsed : List String
  inputTokens : Nat
  outputTokens : Nat
  totalTokens : Nat
  cachedInputTokens : Option Nat
  reasoningTokens : Option Nat
  estimatedCostUsd : Option JsNumber
  providerReportedCostUsd : Option JsNumber
  byRole : List RoleUsage
  estimated : Bool

def RoleUsage.accepted (row : RoleUsage) : Bool :=
  [row.calls, row.inputTokens, row.outputTokens, row.totalTokens].all (· ≤ maxSafeInteger) &&
    isAmount row.costUsd

/-- What the schema asks of a summary. -/
def SummaryFields.accepted (summary : SummaryFields) : Bool :=
  summary.provider ≠ "" && summary.modelsUsed.all (· ≠ "") &&
    [summary.inputTokens, summary.outputTokens, summary.totalTokens,
      summary.cachedInputTokens.getD 0, summary.reasoningTokens.getD 0].all
        (· ≤ maxSafeInteger) &&
    summary.estimatedCostUsd.all isAmount && summary.providerReportedCostUsd.all isAmount &&
    summary.byRole.all (·.accepted)

structure ModelUsageSummary extends SummaryFields where
  accepted : toSummaryFields.accepted = true

def ModelUsageSummary.parse (summary : SummaryFields) : Option ModelUsageSummary :=
  if h : summary.accepted = true then some { toSummaryFields := summary, accepted := h } else none

/-- The cost a record is charged to its role with. -/
def UsageFields.cost (record : UsageFields) : JsNumber :=
  (record.providerReportedCostUsd.or record.estimatedCostUsd).getD (.finite 0)

def RoleUsage.empty (role : String) : RoleUsage where
  role
  calls := 0
  inputTokens := 0
  outputTokens := 0
  totalTokens := 0
  costUsd := .finite 0

section

variable (R : Rounding)

def RoleUsage.add (row : RoleUsage) (record : ModelUsageRecord) : RoleUsage where
  role := row.role
  calls := row.calls + 1
  inputTokens := row.inputTokens + record.inputTokens
  outputTokens := row.outputTokens + record.outputTokens
  totalTokens := row.totalTokens + record.totalTokens
  costUsd := JsNumber.add R row.costUsd record.cost

/-- The roles that an object answers for with a function; a count added to one is a text. -/
def brokenRoles : List String := Value.inheritedNames.filter (· ≠ "__proto__")

/-- The rows of the roles.  Setting `__proto__` of an object adds no entry to it. -/
def usageByRole (records : List ModelUsageRecord) : Table.Keyed RoleUsage.role :=
  .tally (·.roleLabel) RoleUsage.empty (RoleUsage.add R)
    (records.filter (·.roleLabel ≠ "__proto__"))

/-- `sum(records.map(f))`, for tokens. -/
def sumOf (count : ModelUsageRecord → Nat) (records : List ModelUsageRecord) : Nat :=
  (records.map count).sum

/-- And for costs. -/
def costOf (cost : ModelUsageRecord → JsNumber) (records : List ModelUsageRecord) : JsNumber :=
  JsNumber.total R (records.map cost)

/-- What the records add up to. -/
def summaryFields (records : List ModelUsageRecord) : SummaryFields :=
  let inputTokens := sumOf (·.inputTokens) records
  let outputTokens := sumOf (·.outputTokens) records
  let cached := sumOf (·.cachedInputTokens.getD 0) records
  let reasoning := sumOf (·.reasoningTokens.getD 0) records
  let providerCost := costOf R (·.providerReportedCostUsd.getD (.finite 0)) records
  let estimatedCost := costOf R (·.estimatedCostUsd.getD (.finite 0)) records
  { provider := (records.head?.map (·.provider)).getD "unknown"
    modelsUsed := distinct (records.map (·.model))
    inputTokens
    outputTokens
    totalTokens := inputTokens + outputTokens
    cachedInputTokens := if cached > 0 then some cached else none
    reasoningTokens := if reasoning > 0 then some reasoning else none
    estimatedCostUsd := if isPositive estimatedCost then some estimatedCost else none
    providerReportedCostUsd := if isPositive providerCost then some providerCost else none
    byRole := (usageByRole R records).rows
    estimated := records.any (·.estimated) }

def summarizeModelUsage (records : List ModelUsageRecord) : Option ModelUsageSummary :=
  if records.any (·.roleLabel ∈ brokenRoles) then none
  else ModelUsageSummary.parse (summaryFields R records)

end

end OpenLagrange.Models
