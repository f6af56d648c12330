/-
Tightening the input of the policy gate.

Every question of the gate goes against a tightened input if it goes against the input that was
tightened, so nothing that was refused is allowed later on.

What the gate allows is within the delegation's expiry and risk, and nobody has to approve it.
The capability is another matter: the gate is content when the task names it, so what it allows is
named by the delegation only where the task names no capability beyond the delegation's.
-/
import OpenLagrange.Policy.PolicyGate

namespace OpenLagrange

variable {dateParse : String → Option Int} {input loose tight : PolicyGateInput}

/-! ### Tightened inputs -/

namespace PolicyGateInput

/-- The inputs differ by tightening only. -/
structure Tightens (dateParse : String → Option Int) (loose tight : PolicyGateInput) : Prop where
  delegation : tight.delegationContext =
    { loose.delegationContext with
      allowedCapabilities := tight.delegationContext.allowedCapabilities
      deniedScopes := tight.delegationContext.deniedScopes
      approvalRequiredFor := tight.delegationContext.approvalRequiredFor
      maxRiskLevel := tight.delegationContext.maxRiskLevel
      expiresAt := tight.delegationContext.expiresAt }
  task : tight.scopedTask =
    { loose.scopedTask with
      allowedCapabilities := tight.scopedTask.allowedCapabilities
      maxRiskLevel := tight.scopedTask.maxRiskLevel }
  capability : tight.capability =
    { loose.capability with requiresApproval := tight.capability.requiresApproval }
  sideEffectKind : tight.sideEffectKind = loose.sideEffectKind
  intent : tight.intent = { loose.intent with requiresApproval := tight.intent.requiresApproval }
  bounds : tight.bounds =
    { loose.bounds with
      maxTotalEndpointAttempts := tight.bounds.maxTotalEndpointAttempts
      maxRiskWithoutApproval := tight.bounds.maxRiskWithoutApproval }
  now : tight.now = loose.now
  delegated : tight.delegationContext.allowedCapabilities ⊆
    loose.delegationContext.allowedCapabilities
  tasked : tight.scopedTask.allowedCapabilities ⊆ loose.scopedTask.allowedCapabilities
  denied : loose.delegationContext.deniedScopes ⊆ tight.delegationContext.deniedScopes
  approvals : loose.delegationContext.approvalRequiredFor ⊆
    tight.delegationContext.approvalRequiredFor
  delegatedRisk : tight.delegationContext.maxRiskLevel.order ≤
    loose.delegationContext.maxRiskLevel.order
  taskedRisk : tight.scopedTask.maxRiskLevel.order ≤ loose.scopedTask.maxRiskLevel.order
  unapprovedRisk : tight.bounds.maxRiskWithoutApproval.order ≤
    loose.bounds.maxRiskWithoutApproval.order
  budget : tight.bounds.maxTotalEndpointAttempts ≤ loose.bounds.maxTotalEndpointAttempts
  attempts : loose.endpointAttemptsUsed ≤ tight.endpointAttemptsUsed
  capabilityApproval : loose.capability.requiresApproval = true →
    tight.capability.requiresApproval = true
  intentApproval : loose.intent.requiresApproval = true → tight.intent.requiresApproval = true
  expiry : tight.delegationContext.expiresAt = loose.delegationContext.expiresAt ∨
    ∃ earlier later, dateParse tight.delegationContext.expiresAt = some earlier ∧
      dateParse loose.delegationContext.expiresAt = some later ∧ earlier ≤ later

namespace Tightens

theorem scopes (h : Tightens dateParse loose tight) :
    tight.scopedTask.allowedScopes = loose.scopedTask.allowedScopes := by rw [h.task]

theorem risk (h : Tightens dateParse loose tight) :
    tight.intent.riskLevel = loose.intent.riskLevel := by rw [h.intent]

theorem idempotencyKey (h : Tightens dateParse loose tight) :
    tight.intent.idempotencyKey = loose.intent.idempotencyKey := by rw [h.intent]

theorem capabilityName (h : Tightens dateParse loose tight) :
    tight.capability.capabilityName = loose.capability.capabilityName := by rw [h.capability]

theorem capabilityRef (h : Tightens dateParse loose tight) :
    tight.capabilityRef = loose.capabilityRef := by
  unfold PolicyGateInput.capabilityRef
  rw [h.capability]

/-! ### Each question -/

theorem budgetReached (h : Tightens dateParse loose tight) (hloose : loose.budgetReached = true) :
    tight.budgetReached = true := by
  simp only [PolicyGateInput.budgetReached, decide_eq_true_eq] at hloose ⊢
  exact h.budget.trans (hloose.trans h.attempts)

theorem expired (h : Tightens dateParse loose tight) (hloose : loose.expired dateParse = true) :
    tight.expired dateParse = true := by
  unfold PolicyGateInput.expired at hloose ⊢
  rw [h.now]
  rcases h.expiry with hsame | ⟨earlier, later, htight, hlater, hle⟩
  · rw [hsame]
    exact hloose
  · rw [htight]
    rw [hlater] at hloose
    cases hnow : dateParse loose.now with
    | none => simp [hnow] at hloose
    | some now =>
        simp only [hnow, decide_eq_true_eq] at hloose ⊢
        exact hle.trans hloose

theorem capabilityAllowed (h : Tightens dateParse loose tight)
    (htight : tight.capabilityAllowed = true) : loose.capabilityAllowed = true := by
  simp only [PolicyGateInput.capabilityAllowed, decide_eq_true_eq] at htight ⊢
  rw [h.capabilityName, h.capabilityRef] at htight
  rcases htight with hname | href | hname | href
  · exact Or.inl (h.delegated hname)
  · exact Or.inr (Or.inl (h.delegated href))
  · exact Or.inr (Or.inr (Or.inl (h.tasked hname)))
  · exact Or.inr (Or.inr (Or.inr (h.tasked href)))

theorem deniedScopes (h : Tightens dateParse loose tight) (htight : tight.deniedScopes = []) :
    loose.deniedScopes = [] := by
  unfold PolicyGateInput.deniedScopes at htight ⊢
  rw [h.scopes] at htight
  rw [List.filter_eq_nil_iff] at htight ⊢
  intro scope hscope hdenied
  simp only [decide_eq_true_eq] at hdenied
  exact htight scope hscope (by simpa using h.denied hdenied)

theorem riskExceeded (h : Tightens dateParse loose tight) (hloose : loose.riskExceeded = true) :
    tight.riskExceeded = true := by
  simp only [PolicyGateInput.riskExceeded, decide_eq_true_eq] at hloose ⊢
  rw [h.risk]
  rcases hloose with hdelegated | htasked
  · exact Or.inl (h.delegatedRisk.trans_lt hdelegated)
  · exact Or.inr (h.taskedRisk.trans_lt htasked)

theorem approvalRequired (h : Tightens dateParse loose tight)
    (hloose : loose.approvalRequired = true) : tight.approvalRequired = true := by
  simp only [PolicyGateInput.approvalRequired, decide_eq_true_eq] at hloose ⊢
  rw [h.risk]
  rcases hloose with hcapability | hintent | hlisted | hrisk
  · exact Or.inl (h.capabilityApproval hcapability)
  · exact Or.inr (Or.inl (h.intentApproval hintent))
  · exact Or.inr (Or.inr (Or.inl (h.approvals hlisted)))
  · exact Or.inr (Or.inr (Or.inr (h.unapprovedRisk.trans_lt hrisk)))

/-- **What is allowed once it is tightened was allowed before.** -/
theorem allow (h : Tightens dateParse loose tight)
    (htight : (evaluatePolicy dateParse tight).outcome = .allow) :
    (evaluatePolicy dateParse loose).outcome = .allow := by
  rw [evaluatePolicy_allow] at htight ⊢
  obtain ⟨hbudget, hexpired, hallowed, hdenied, hkey, hrisk, happroval⟩ := htight
  refine ⟨?_, ?_, h.capabilityAllowed hallowed, h.deniedScopes hdenied, ?_, ?_, ?_⟩
  · by_contra hloose
    rw [h.budgetReached (by simpa using hloose)] at hbudget
    cases hbudget
  · by_contra hloose
    rw [h.expired (by simpa using hloose)] at hexpired
    cases hexpired
  · rw [← h.idempotencyKey]
    exact hkey
  · by_contra hloose
    rw [h.riskExceeded (by simpa using hloose)] at hrisk
    cases hrisk
  · by_contra hloose
    rw [h.approvalRequired (by simpa using hloose)] at happroval
    cases happroval

end Tightens

/-! ### What an allowed input satisfies -/

/-- The delegation itself names the capability. -/
def delegationAllows (input : PolicyGateInput) : Bool :=
  input.capability.capabilityName ∈ input.delegationContext.allowedCapabilities ∨
    input.capabilityRef ∈ input.delegationContext.allowedCapabilities

/-- The expiry and the present are dates. -/
def Dated (dateParse : String → Option Int) (input : PolicyGateInput) : Prop :=
  (dateParse input.delegationContext.expiresAt).isSome ∧ (dateParse input.now).isSome

/-- The delegation is one that has not expired and allows the capability, the risk is within both
bounds, and nobody has to approve. -/
structure Granted (dateParse : String → Option Int) (input : PolicyGateInput) : Prop where
  unexpired : ∃ expiresAt now, dateParse input.delegationContext.expiresAt = some expiresAt ∧
    dateParse input.now = some now ∧ now < expiresAt
  allowed : input.delegationAllows = true
  delegatedRisk : input.intent.riskLevel.order ≤ input.delegationContext.maxRiskLevel.order
  taskedRisk : input.intent.riskLevel.order ≤ input.scopedTask.maxRiskLevel.order
  capability : input.capability.requiresApproval = false
  intent : input.intent.requiresApproval = false
  unlisted : input.intent.riskLevel ∉ input.delegationContext.approvalRequiredFor
  unapprovedRisk : input.intent.riskLevel.order ≤ input.bounds.maxRiskWithoutApproval.order

/-- One of the questions goes against the input. -/
def Stopped (dateParse : String → Option Int) (input : PolicyGateInput) : Prop :=
  input.budgetReached = true ∨ input.expired dateParse = true ∨ input.capabilityAllowed = false ∨
    input.deniedScopes ≠ [] ∨ isBlank input.intent.idempotencyKey = true ∨
    input.riskExceeded = true ∨ input.approvalRequired = true

theorem stopped_iff :
    input.Stopped dateParse ↔ ¬ (evaluatePolicy dateParse input).outcome = .allow := by
  rw [evaluatePolicy_allow]
  unfold Stopped
  constructor
  · rintro (h | h | h | h | h | h | h) ⟨hbudget, hexpired, hallowed, hdenied, hkey, hrisk, happroval⟩
    · exact absurd h (by rw [hbudget]; decide)
    · exact absurd h (by rw [hexpired]; decide)
    · exact absurd h (by rw [hallowed]; decide)
    · exact h hdenied
    · exact absurd h (by rw [hkey]; decide)
    · exact absurd h (by rw [hrisk]; decide)
    · exact absurd h (by rw [happroval]; decide)
  · intro h
    by_contra hnone
    push Not at hnone
    obtain ⟨hbudget, hexpired, hallowed, hdenied, hkey, hrisk, happroval⟩ := hnone
    exact h ⟨by simpa using hbudget, by simpa using hexpired, by simpa using hallowed, hdenied,
      by simpa using hkey, by simpa using hrisk, by simpa using happroval⟩

/-- An allowed input is granted as soon as the delegation names the capability and the dates are
dates. -/
theorem granted_iff (h : (evaluatePolicy dateParse input).outcome = .allow) :
    input.Granted dateParse ↔ input.delegationAllows = true ∧ input.Dated dateParse := by
  obtain ⟨-, hexpired, -, -, -, hrisk, happroval⟩ := evaluatePolicy_allow.mp h
  constructor
  · intro hgranted
    obtain ⟨expiresAt, now, hexpires, hnow, -⟩ := hgranted.unexpired
    exact ⟨hgranted.allowed, by rw [hexpires]; rfl, by rw [hnow]; rfl⟩
  · rintro ⟨hallowed, hexpires, hnow⟩
    obtain ⟨expiresAt, hexpires⟩ := Option.isSome_iff_exists.mp hexpires
    obtain ⟨now, hnow⟩ := Option.isSome_iff_exists.mp hnow
    simp only [riskExceeded, decide_eq_false_iff_not, not_or, Nat.not_lt] at hrisk
    simp only [approvalRequired, decide_eq_false_iff_not, not_or, Nat.not_lt,
      Bool.not_eq_true] at happroval
    refine ⟨⟨expiresAt, now, hexpires, hnow, ?_⟩, hallowed, hrisk.1, hrisk.2, happroval.1,
      happroval.2.1, happroval.2.2.1, happroval.2.2.2⟩
    simpa only [expired, hexpires, hnow, decide_eq_false_iff_not, Int.not_le] using hexpired

end PolicyGateInput

/-- **The gate is monotone, and allows more than the delegation only by the task.**  No tightened
input is allowed that was not allowed before.  What the gate allows is granted by the delegation
exactly where the delegation names the capability and the dates are dates, or a question goes
against the input anyway. -/
theorem gate_monotone_iff :
    ((∀ tight, PolicyGateInput.Tightens dateParse input tight →
        (evaluatePolicyWithReport dateParse input).1.outcome ≠ .allow →
          (evaluatePolicyWithReport dateParse tight).1.outcome ≠ .allow) ∧
      ((evaluatePolicyWithReport dateParse input).1.outcome = .allow →
        input.Granted dateParse)) ↔
    (input.delegationAllows = true ∧ input.Dated dateParse) ∨ input.Stopped dateParse := by
  constructor
  · rintro ⟨-, hgranted⟩
    by_cases hallow : (evaluatePolicy dateParse input).outcome = .allow
    · exact Or.inl ((PolicyGateInput.granted_iff hallow).mp (hgranted hallow))
    · exact Or.inr (PolicyGateInput.stopped_iff.mpr hallow)
  · intro hcond
    refine ⟨fun tight htight hloose hallow => hloose (htight.allow hallow), fun hallow => ?_⟩
    rcases hcond with hnamed | hstopped
    · exact (PolicyGateInput.granted_iff hallow).mpr hnamed
    · exact (PolicyGateInput.stopped_iff.mp hstopped hallow).elim

/-- The task names the capability, the delegation names none. -/
def taskNamedInput : PolicyGateInput where
  delegationContext :=
    { principalId := "user", principalType := "human", delegateId := "reconciler",
      delegateType := "reconciler", projectId := "project", workspaceId := "workspace",
      allowedScopes := [], deniedScopes := [], allowedCapabilities := [], maxRiskLevel := .read,
      approvalRequiredFor := [], expiresAt := "2026-01-02T00:00:00Z", traceId := "trace",
      parentRunId := "run", taskRunId := none }
  scopedTask := ⟨"task", "Task", "Read a file.", [], ["read_file"], .read⟩
  capability := ⟨"repo", "read_file", "Read a file.", .obj [], .obj [], .read, false, "digest"⟩
  sideEffectKind := none
  intent := ⟨"intent", "snapshot", "repo", "read_file", "digest", .read, false, "key", []⟩
  bounds := defaultExecutionBounds
  endpointAttemptsUsed := 0
  now := "2026-01-01T00:00:00Z"

/-- The expiry is a day after the present. -/
def taskNamedDates (text : String) : Option Int :=
  if text = taskNamedInput.delegationContext.expiresAt then some 1767312000000
  else if text = taskNamedInput.now then some 1767225600000 else none

theorem taskNamedInput_not_granted :
    (evaluatePolicyWithReport taskNamedDates taskNamedInput).1.outcome = .allow ∧
      ¬ taskNamedInput.Granted taskNamedDates := by
  refine ⟨by decide +kernel, fun h => ?_⟩
  exact absurd h.allowed (by decide +kernel)

end OpenLagrange
