/-
What a delegation lets a step run.

A delegation lists capabilities, scopes and a greatest risk.  The gate compares the risk.
It asks whether the delegation or the task names the capability, and when no task is
given the step makes one that names the capability itself; and it never asks for the
scopes a delegation allows, only for those it denies.  So a step whose other checks pass
runs whatever it is given: the delegation is enforced exactly where it happens to cover
the capability or where another check stops the step.
-/
import OpenLagrange.Proofs.StepEvents

namespace OpenLagrange

namespace CapabilityStep

variable {S : StepPlatform} {o : CapabilityStepRunnerOptions} {env : StepEnv} {input : StepInput}
  {now : String}

/-! ### Inside and outside a delegation -/

/-- The delegation names the capability, in one of the spellings of a filter. -/
def Names (delegation : DelegationContext) (descriptor : CapabilityDescriptor) : Prop :=
  descriptor.name ∈ delegation.allowedCapabilities ∨
    descriptor.packId ++ "." ++ descriptor.name ∈ delegation.allowedCapabilities ∨
    descriptor.capabilityId ∈ delegation.allowedCapabilities

/-- Every scope that the capability requires is allowed. -/
def CoversScopes (delegation : DelegationContext) (descriptor : CapabilityDescriptor) : Prop :=
  ∀ scope ∈ descriptor.scopes, scope ∈ delegation.allowedScopes

/-- The delegation does not give the capability. -/
def Outside (delegation : DelegationContext) (descriptor : CapabilityDescriptor) : Prop :=
  ¬Names delegation descriptor ∨ ¬CoversScopes delegation descriptor ∨
    delegation.maxRiskLevel.order < descriptor.riskLevel.order

variable (S o env input) in
/-- The step does not call an executor. -/
def NotExecuted (s : Nat) : Prop :=
  ∀ c ∈ (stepRun S o env input s).trace, ∀ id data, c.2 ≠ .execute id data

variable (S o env input) in
/-- The delegation is enforced: where it lists capabilities, nothing outside it is executed. -/
def Enforces (s : Nat) : Prop :=
  input.delegationContext.allowedCapabilities ≠ [] →
    ∀ descriptor,
      resolveCapabilityForStep (packs S o).registry S.localeCompare input.capabilityRef
        = some descriptor →
      Outside input.delegationContext descriptor → NotExecuted S o env input s

variable (S o input) in
/-- No check other than the delegation's capabilities and scopes stops the step. -/
structure Unstopped (now : String) (descriptor : CapabilityDescriptor) (data parsed : Value) :
    Prop where
  wellFormed : input.refined S.isDatetime = true
  digest : descriptor.capabilityDigest = input.capabilityDigest
  schema : ((packs S o).definition descriptor.capabilityId).inputSchema input.input = .ok data
  again : ((packs S o).definition descriptor.capabilityId).inputSchema data = .ok parsed
  budget : (policyInput S o input descriptor now).budgetReached = false
  active : (policyInput S o input descriptor now).expired S.dateParse = false
  undenied : (policyInput S o input descriptor now).deniedScopes = []
  key : isBlank input.idempotencyKey = false
  risk : (policyInput S o input descriptor now).riskExceeded = false
  approved : (policyInput S o input descriptor now).approvalRequired = false
  notDry : executionModeFromDryRun input ≠ .dryRun
  mockInTests : executionModeFromDryRun input = .mock → S.nodeEnv = some "test"
  dated : (listener o).isSome → S.isDatetime now = true

/-! ### Where the executor is called -/

/-- Without a task of its own the step allows itself its capability. -/
theorem capabilityAllowed_of_unscoped (hscoped : o.scopedTask = none)
    {descriptor : CapabilityDescriptor} :
    (policyInput S o input descriptor now).capabilityAllowed = true := by
  simp [PolicyGateInput.capabilityAllowed, policyInput, hscoped, scopedTaskFromStep,
    sdkDescriptorToPolicyCapability]

/-- So the gate allows exactly what none of its other questions goes against. -/
theorem allowed_iff_unscoped (hscoped : o.scopedTask = none) {descriptor : CapabilityDescriptor} :
    (evaluatePolicy S.dateParse (policyInput S o input descriptor now)).outcome = .allow ↔
      (policyInput S o input descriptor now).budgetReached = false ∧
        (policyInput S o input descriptor now).expired S.dateParse = false ∧
        (policyInput S o input descriptor now).deniedScopes = [] ∧
        isBlank input.idempotencyKey = false ∧
        (policyInput S o input descriptor now).riskExceeded = false ∧
        (policyInput S o input descriptor now).approvalRequired = false := by
  rw [evaluatePolicy_allow]
  have hallowed : (policyInput S o input descriptor now).capabilityAllowed = true :=
    capabilityAllowed_of_unscoped hscoped
  have hkey : (policyInput S o input descriptor now).intent.idempotencyKey = input.idempotencyKey :=
    rfl
  rw [hallowed, hkey]
  simp

/-- At an instant that is no datetime a step that is listened to makes no mark. -/
theorem undated_unmarked {runId : String} (hlistener : listener o = some runId) {s : Nat}
    (hnow : S.isDatetime (presentAt S o env s) = false) :
    Prog.Shows (stepHandle env) marks (runCapabilityStep S o input) s fun _ _ seen => seen = [] := by
  refine Prog.shows_bind (Prog.shows_perform ?_)
  have hclock : ∀ t, marks (t, .dateNow) = none := fun _ => rfl
  rw [hclock]
  simp only [stepHandle]
  split
  · refine now_shows hclock fun s' => ?_
    split
    · exact unmarked_finish.shows.mono fun _ _ _ h => h.1.1
    · split
      · exact unmarked_finish.shows.mono fun _ _ _ h => h.1.1
      · unfold judgeStep emitRunEvent
        rw [hlistener]
        dsimp only
        rw [if_neg (by simp [RunEvent.refined, createRunEvent, hnow])]
        exact Prog.shows_fail rfl
  · exact Prog.shows_fail rfl

/-- An executor is called only by an unstopped step. -/
theorem unstopped_of_executed (hscoped : o.scopedTask = none) {s : Nat} {descriptor : CapabilityDescriptor}
    (hresolves : resolveCapabilityForStep (packs S o).registry S.localeCompare input.capabilityRef
      = some descriptor)
    {c : Nat × StepCall} (hc : c ∈ (stepRun S o env input s).trace) {id : String} {value : Value}
    (hexecutes : c.2 = .execute id value) :
    ∃ data parsed, Unstopped S o input (presentAt S o env s) descriptor data parsed := by
  have hmarked : Marked S o env input (presentAt S o env s) (stepRun S o env input s).outcome
      ((stepRun S o env input s).trace.filterMap marks) := runCapabilityStep_marked
  have hmem : StepCall.execute id value ∈ (stepRun S o env input s).trace.filterMap marks :=
    mem_marks.mpr ⟨rfl, c.1, by rw [← hexecutes]; exact hc⟩
  have hdated : (listener o).isSome → S.isDatetime (presentAt S o env s) = true := by
    intro hlistens
    obtain ⟨runId, hlistener⟩ := Option.isSome_iff_exists.mp hlistens
    by_contra hnow
    have hnone : (stepRun S o env input s).trace.filterMap marks = [] :=
      undated_unmarked hlistener (by simpa using hnow)
    rw [hnone] at hmem
    cases hmem
  generalize (stepRun S o env input s).trace.filterMap marks = seen at hmarked hmem
  cases hmarked with
  | stopped h => cases hmem
  | asked descriptor' data hadmitted h =>
      have heq := List.mem_singleton.mp hmem
      cases heq
  | executed descriptor' data parsed hadmitted hagain h =>
      have hsame := hadmitted.resolves
      rw [hresolves] at hsame
      obtain rfl := Option.some.inj hsame
      obtain ⟨hbudget, hactive, hdenied, hkey, hrisk, happroved⟩ :=
        (allowed_iff_unscoped hscoped).mp hadmitted.allowed
      exact ⟨data, parsed, hadmitted.wellFormed, hadmitted.digest, hadmitted.schema, hagain, hbudget,
        hactive, hdenied, hkey, hrisk, happroved, hadmitted.notDry, hadmitted.mockInTests, hdated⟩

/-- A part that answers and makes no mark is passed on the way to a mark. -/
theorem Unmarked.reaches {α β : Type} {p : StepProgram α} {f : α → StepProgram β} {Q : α → Prop}
    {call : StepCall} {s : Nat} (hp : Unmarked p Q) (hanswers : Prog.Answers (stepHandle env) p)
    (hf : ∀ a s', Prog.Shows (stepHandle env) marks (f a) s' fun _ _ seen => call ∈ seen) :
    Prog.Shows (stepHandle env) marks (p.bind f) s fun _ _ seen => call ∈ seen := by
  refine Prog.shows_bind (hp.shows.mono ?_)
  rintro out s' seen ⟨⟨rfl, -⟩, hout, -⟩
  obtain ⟨a, ha⟩ := hanswers s
  rw [ha] at hout
  subst hout
  exact hf a s'

/-- An event that nobody hears, or that is dated, is emitted. -/
theorem answers_heard (hsteady : env.Steady S) (hinput : input.refined S.isDatetime = true)
    {event : StepEvent} (hdated : (listener o).isSome → S.isDatetime now = true)
    (hevent : StepEvent.Sound S.isDatetime event) :
    Prog.Answers (stepHandle env) (emitRunEvent S o input event now) := by
  cases hlistener : listener o with
  | none =>
      unfold emitRunEvent
      rw [hlistener]
      exact Prog.answers_done
  | some runId => exact answers_emitRunEvent hsteady hinput (hdated (by simp [hlistener])) hevent

/-- The registry calls the executor of a capability it knows, if the key and the input pass. -/
theorem executeCapability_reaches {α : Type} {descriptor : CapabilityDescriptor}
    {context : PackExecutionContext} {data parsed : Value} {s : Nat}
    {f : CapabilityExecutionResult × List String → StepProgram α}
    (hfound : ((packs S o).registry.resolveCapability descriptor.capabilityId).isSome)
    (hkey : isBlank context.idempotencyKey = false)
    (hagain : ((packs S o).definition descriptor.capabilityId).inputSchema data = .ok parsed) :
    Prog.Shows (stepHandle env) marks
      ((executeCapability S o input descriptor context data).bind f) s
      fun _ _ seen => .execute descriptor.capabilityId parsed ∈ seen := by
  obtain ⟨found, hresolved⟩ := Option.isSome_iff_exists.mp hfound
  have hid : found.capabilityId = descriptor.capabilityId := resolveCapability_id hresolved
  have hmark : (s + 1, StepCall.execute descriptor.capabilityId parsed) ∈
      (Prog.exec (stepHandle env) (executeCapability S o input descriptor context data) s).trace := by
    unfold executeCapability
    rw [Prog.bind_eq]
    refine Prog.mem_trace_bind_right (stepHandle env) (a := ()) ?_ ?_
    · rw [Prog.exec_perform]
      rfl
    · rw [Prog.exec_perform, hresolved]
      dsimp only
      rw [hid, if_neg (by simp [hkey])]
      unfold executeDefinition
      rw [hagain]
      refine Prog.mem_trace_bind_left (stepHandle env) ?_
      rw [Prog.exec_perform]
      exact List.mem_singleton.mpr rfl
  exact mem_marks.mpr ⟨rfl, s + 1, Prog.mem_trace_bind_left _ hmark⟩

/-- **An unstopped step calls the executor.** -/
theorem executed_of_unstopped (hsteady : env.Steady S) (hscoped : o.scopedTask = none) {s : Nat}
    {descriptor : CapabilityDescriptor} {data parsed : Value}
    (hresolves : resolveCapabilityForStep (packs S o).registry S.localeCompare input.capabilityRef
      = some descriptor)
    (h : Unstopped S o input (presentAt S o env s) descriptor data parsed) :
    Prog.Shows (stepHandle env) marks (runCapabilityStep S o input) s fun _ _ seen =>
      .execute descriptor.capabilityId parsed ∈ seen := by
  have hallow : (evaluatePolicy S.dateParse
      (policyInput S o input descriptor (presentAt S o env s))).outcome = .allow :=
    (allowed_iff_unscoped hscoped).mpr
      ⟨h.budget, h.active, h.undenied, h.key, h.risk, h.approved⟩
  have hmem : descriptor ∈ (packs S o).registry.capabilities := resolveCapabilityForStep_mem hresolves
  have hid : descriptor.capabilityId ≠ "" := by
    have hdescriptor := (packs S o).refined descriptor hmem
    simp only [CapabilityDescriptor.refined, Bool.and_eq_true, nonempty_iff] at hdescriptor
    exact hdescriptor.1.1.1
  have hdecision : ∀ outcome : PolicyOutcome, outcome.text ≠ "" := by
    intro outcome
    cases outcome <;> decide
  refine Prog.shows_bind (Prog.shows_perform ?_)
  have hclock : ∀ t, marks (t, .dateNow) = none := fun _ => rfl
  rw [hclock]
  simp only [stepHandle]
  rw [if_pos h.wellFormed]
  refine now_shows hclock fun s₁ => ?_
  rw [hresolves]
  dsimp only
  rw [if_neg (by simp [h.digest])]
  refine (plain_emitRunEvent rfl).unmarked.reaches
    (answers_heard hsteady h.wellFormed h.dated trivial) fun _ s₂ => ?_
  rw [h.schema]
  refine (plain_emitRunEvent rfl).unmarked.reaches
    (answers_heard hsteady h.wellFormed h.dated (hdecision _)) fun _ s₃ => ?_
  unfold afterGate
  dsimp only
  rw [← evaluatePolicy, hallow]
  dsimp only
  rw [if_neg (fun hmock => hmock.2 (h.mockInTests hmock.1)), if_neg h.notDry]
  exact executeCapability_reaches (resolveCapability_isSome hmem hid) h.key h.again

/-! ### Enforcement -/

variable (S o env input) in
/-- The delegation happens to cover what the step resolves to, or another check stops it. -/
def CoveredOrStopped (s : Nat) : Prop :=
  ∀ descriptor,
    resolveCapabilityForStep (packs S o).registry S.localeCompare input.capabilityRef
      = some descriptor →
    input.delegationContext.allowedCapabilities = [] ∨
      (Names input.delegationContext descriptor ∧ CoversScopes input.delegationContext descriptor) ∨
      ∀ data parsed, ¬Unstopped S o input (presentAt S o env s) descriptor data parsed

/-- The gate compares the risk with the delegation's. -/
theorem riskExceeded_of_outside {descriptor : CapabilityDescriptor}
    (h : input.delegationContext.maxRiskLevel.order < descriptor.riskLevel.order) :
    (policyInput S o input descriptor now).riskExceeded = true := by
  simp [PolicyGateInput.riskExceeded, policyInput, intentFromStep, h]

/-- **Delegation.**  A step without a task of its own enforces its delegation where the
delegation covers the capability or another check stops the step; and where the hooks
answer it enforces it nowhere else. -/
theorem runCapabilityStep_enforces (S : StepPlatform) (o : CapabilityStepRunnerOptions)
    (input : StepInput) (s : Nat) (hscoped : o.scopedTask = none) :
    (∀ env, CoveredOrStopped S o env input s → Enforces S o env input s) ∧
      ∀ env : StepEnv, env.Steady S →
        (Enforces S o env input s ↔ CoveredOrStopped S o env input s) := by
  have henforces : ∀ env, CoveredOrStopped S o env input s → Enforces S o env input s := by
    intro env hcovered hlists descriptor hresolves houtside c hc id value hexecutes
    obtain ⟨data, parsed, hunstopped⟩ := unstopped_of_executed hscoped hresolves hc hexecutes
    rcases hcovered descriptor hresolves with hempty | ⟨hnames, hscopes⟩ | hstopped
    · exact hlists hempty
    · rcases houtside with hnot | hnot | hrisk
      · exact hnot hnames
      · exact hnot hscopes
      · have hexceeded := hunstopped.risk
        rw [riskExceeded_of_outside hrisk] at hexceeded
        cases hexceeded
    · exact hstopped data parsed hunstopped
  refine ⟨henforces, fun env hsteady => ⟨fun hall descriptor hresolves => ?_, henforces env⟩⟩
  by_cases hempty : input.delegationContext.allowedCapabilities = []
  · exact Or.inl hempty
  · by_cases hinside : Names input.delegationContext descriptor ∧
        CoversScopes input.delegationContext descriptor
    · exact Or.inr (Or.inl hinside)
    · refine Or.inr (Or.inr fun data parsed hunstopped => ?_)
      have houtside : Outside input.delegationContext descriptor := by
        unfold Outside
        tauto
      have hcalled : StepCall.execute descriptor.capabilityId parsed ∈
          (stepRun S o env input s).trace.filterMap marks :=
        executed_of_unstopped hsteady hscoped hresolves hunstopped
      obtain ⟨tick, hmem⟩ := (mem_marks.mp hcalled).2
      exact hall hempty descriptor hresolves houtside _ hmem _ _ rfl

/-- A delegation that covers the sample's capability is enforced. -/
theorem sampleStep_enforces :
    sampleStepOptions.scopedTask = none ∧
      Enforces (sampleSteps "artifact") sampleStepOptions sampleStepEnv
        (sampleStep (sampleContext ["echo"] ["test:read"])) 0 := by
  refine ⟨rfl, (runCapabilityStep_enforces (sampleSteps "artifact") sampleStepOptions
    (sampleStep (sampleContext ["echo"] ["test:read"])) 0 rfl).1 sampleStepEnv ?_⟩
  intro descriptor hresolves
  obtain rfl : sampleDescriptor = descriptor := Option.some.inj hresolves
  have hnamed : sampleDescriptor.name ∈ ["echo"] := by decide
  refine Or.inr (Or.inl ⟨Or.inl hnamed, ?_⟩)
  intro scope hscope
  exact hscope

/-- **A delegation that gives another capability.**  The sample's capability is executed under
a delegation that names only another one and allows no scope. -/
theorem sampleStep_undelegated :
    ¬Enforces (sampleSteps "artifact") sampleStepOptions sampleStepEnv
      (sampleStep (sampleContext ["other"] [])) 0 := by
  intro hall
  have hadmitted : Admitted (sampleSteps "artifact") sampleStepOptions
      (sampleStep (sampleContext ["other"] [])) "2026-01-01T00:00:00.000Z" sampleDescriptor
      (.str "text") := sampleStep_admitted "artifact" ["other"] []
  obtain ⟨hbudget, hactive, hdenied, hkey, hrisk, happroved⟩ :=
    (allowed_iff_unscoped rfl).mp hadmitted.allowed
  have hunstopped : Unstopped (sampleSteps "artifact") sampleStepOptions
      (sampleStep (sampleContext ["other"] [])) "2026-01-01T00:00:00.000Z" sampleDescriptor
      (.str "text") (.str "text") :=
    ⟨hadmitted.wellFormed, rfl, rfl, rfl, hbudget, hactive, hdenied, hkey, hrisk, happroved,
      hadmitted.notDry, hadmitted.mockInTests, fun _ => rfl⟩
  have hcalled : StepCall.execute "test.echo" (.str "text") ∈
      (stepRun (sampleSteps "artifact") sampleStepOptions sampleStepEnv
        (sampleStep (sampleContext ["other"] [])) 0).trace.filterMap marks :=
    executed_of_unstopped (sampleStepEnv_steady "artifact") rfl hadmitted.resolves hunstopped
  obtain ⟨tick, hmem⟩ := (mem_marks.mp hcalled).2
  have houtside : Outside (sampleContext ["other"] []) sampleDescriptor := by
    refine Or.inl ?_
    unfold Names
    decide
  exact hall (by decide) sampleDescriptor hadmitted.resolves houtside _ hmem _ _ rfl

end CapabilityStep

end OpenLagrange
