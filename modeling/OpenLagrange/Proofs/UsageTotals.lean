/-
What the summary of model usage keeps of the records.

The rows of the roles are a tally, so a sum over the roles is a sum over the records.  The
summary's own total is made of the tokens in and out, and the totals of the roles of the totals
that the records carry; nothing makes the two agree, and a provider that counts more in its total
than it reports in and out makes them differ.

Adding up costs rounds, so where the records are cut in two the costs add up as they do in one
piece only if rounding lets them.
-/
import OpenLagrange.Models.ProviderUsage

namespace OpenLagrange.Models

open JsNumber (total)

variable {R : Rounding} {records xs ys : List ModelUsageRecord}

/-! ### The rows of the roles -/

/-- The records of a role. -/
def ofRole (role : String) (records : List ModelUsageRecord) : List ModelUsageRecord :=
  records.filter (·.roleLabel = role)

theorem role_empty (role : String) : (RoleUsage.empty role).role = role := rfl

variable (R) in
theorem role_add (row : RoleUsage) (record : ModelUsageRecord) :
    (RoleUsage.add R row record).role = row.role := rfl

variable (R) in
theorem foldl_add (row : RoleUsage) (records : List ModelUsageRecord) :
    records.foldl (RoleUsage.add R) row =
      { role := row.role
        calls := row.calls + records.length
        inputTokens := row.inputTokens + sumOf (·.inputTokens) records
        outputTokens := row.outputTokens + sumOf (·.outputTokens) records
        totalTokens := row.totalTokens + sumOf (·.totalTokens) records
        costUsd := (records.map fun record => record.cost).foldl (JsNumber.add R) row.costUsd } := by
  unfold sumOf
  induction records generalizing row with
  | nil => rfl
  | cons record rest ih =>
      rw [List.foldl_cons, ih]
      simp only [RoleUsage.add, List.map_cons, List.sum_cons, List.length_cons, List.foldl_cons,
        RoleUsage.mk.injEq, true_and, and_true]
      refine ⟨?_, ?_, ?_, ?_⟩ <;> omega

/-- What the records of a role add up to. -/
def roleTotal (R : Rounding) (role : String) (records : List ModelUsageRecord) : RoleUsage where
  role
  calls := (ofRole role records).length
  inputTokens := sumOf (·.inputTokens) (ofRole role records)
  outputTokens := sumOf (·.outputTokens) (ofRole role records)
  totalTokens := sumOf (·.totalTokens) (ofRole role records)
  costUsd := costOf R (·.cost) (ofRole role records)

theorem foldl_add_empty (role : String) :
    (ofRole role records).foldl (RoleUsage.add R) (RoleUsage.empty role) =
      roleTotal R role records := by
  rw [foldl_add]
  simp only [RoleUsage.empty, Nat.zero_add]
  rfl

theorem filter_named {role : String} (h : role ≠ "__proto__") :
    ((records.filter (·.roleLabel ≠ "__proto__")).filter fun record => record.roleLabel = role) =
      ofRole role records := by
  unfold ofRole
  rw [List.filter_filter]
  refine List.filter_congr ?_
  intro record _
  by_cases hrole : record.roleLabel = role
  · simp [hrole, h]
  · simp [hrole]

theorem get_usageByRole {role : String} (h : role ≠ "__proto__") :
    (usageByRole R records).get role =
      if ofRole role records = [] then none else some (roleTotal R role records) := by
  rw [usageByRole, Table.Keyed.get_tally role_empty (role_add R), filter_named h,
    foldl_add_empty]

theorem get_usageByRole_proto : (usageByRole R records).get "__proto__" = none := by
  rw [usageByRole, Table.Keyed.get_tally role_empty (role_add R), if_pos]
  rw [List.filter_filter, List.filter_eq_nil_iff]
  intro record _
  simp

theorem mem_usageByRole {row : RoleUsage} :
    row ∈ (usageByRole R records).rows ↔
      ∃ role ≠ "__proto__", ofRole role records ≠ [] ∧ row = roleTotal R role records := by
  constructor
  · intro hrow
    have hget := Table.Keyed.get_of_mem hrow
    by_cases hproto : row.role = "__proto__"
    · rw [hproto, get_usageByRole_proto] at hget
      cases hget
    · rw [get_usageByRole hproto] at hget
      split at hget
      · cases hget
      · rename_i hsome
        exact ⟨row.role, hproto, hsome, (Option.some.inj hget).symm⟩
  · rintro ⟨role, hproto, hsome, rfl⟩
    have hget := @get_usageByRole R records role hproto
    rw [if_neg hsome] at hget
    exact (Table.mem_of_get hget).1

/-- A sum over the rows is a sum over the records of the roles that get a row. -/
theorem sum_usageByRole {f : RoleUsage → Nat} {count : ModelUsageRecord → Nat}
    (hzero : ∀ role, f (RoleUsage.empty role) = 0)
    (hadd : ∀ row record, f (RoleUsage.add R row record) = f row + count record) :
    ((usageByRole R records).rows.map f).sum =
      sumOf count (records.filter (·.roleLabel ≠ "__proto__")) :=
  Table.Keyed.sum_tally role_empty (role_add R) hzero hadd _

/-! ### What the schema lets through -/

theorem isAmount_iff {a : JsNumber} (h : JsNumber.Le (.finite 0) a) :
    isAmount a = true ↔ a ≠ .infinity := by
  cases a with
  | finite q =>
      refine iff_of_true ?_ (by simp)
      exact decide_eq_true (JsNumber.le_finite.mp h)
  | infinity => simp [isAmount]
  | negInfinity => exact (Bool.false_ne_true h).elim
  | nan => exact (Bool.false_ne_true h).elim

theorem isAmount_positive {a : JsNumber} (h : JsNumber.Le (.finite 0) a) :
    (if isPositive a then some a else none).all isAmount = true ↔ a ≠ .infinity := by
  rw [← isAmount_iff h]
  split
  · rfl
  · rename_i hzero
    refine iff_of_true rfl ?_
    cases a with
    | finite q => exact decide_eq_true (JsNumber.le_finite.mp h)
    | infinity => exact absurd rfl hzero
    | negInfinity => exact (Bool.false_ne_true h).elim
    | nan => exact (Bool.false_ne_true h).elim

theorem le_of_isAmount {a : JsNumber} (h : isAmount a = true) : JsNumber.Le (.finite 0) a := by
  cases a with
  | finite q => exact JsNumber.le_finite.mpr (of_decide_eq_true h)
  | _ => exact (Bool.false_ne_true h).elim

theorem getD_amount {cost : Option JsNumber} (h : cost.all isAmount = true) :
    JsNumber.Le (.finite 0) (cost.getD (.finite 0)) := by
  cases cost with
  | none => exact JsNumber.le_finite.mpr le_rfl
  | some a => exact le_of_isAmount h

section

variable (record : ModelUsageRecord)

theorem accepted_parts :
    (record.provider ≠ "" ∧ record.model ≠ "" ∧ record.roleLabel ≠ "") ∧
      record.providerReportedCostUsd.all isAmount = true ∧
      record.estimatedCostUsd.all isAmount = true := by
  have h := record.accepted
  simp only [UsageFields.accepted, Bool.and_eq_true] at h
  obtain ⟨⟨⟨⟨htexts, -⟩, -⟩, hprovider⟩, hestimated⟩ := h
  refine ⟨?_, hprovider, hestimated⟩
  simpa using htexts

theorem providerCost_nonneg :
    JsNumber.Le (.finite 0) (record.providerReportedCostUsd.getD (.finite 0)) :=
  getD_amount (accepted_parts record).2.1

theorem estimatedCost_nonneg :
    JsNumber.Le (.finite 0) (record.estimatedCostUsd.getD (.finite 0)) :=
  getD_amount (accepted_parts record).2.2

theorem cost_nonneg : JsNumber.Le (.finite 0) record.cost := by
  obtain ⟨-, hprovider, hestimated⟩ := accepted_parts record
  unfold UsageFields.cost
  cases hcost : record.providerReportedCostUsd with
  | none => exact getD_amount hestimated
  | some a =>
      rw [hcost] at hprovider
      exact le_of_isAmount hprovider

end

theorem costOf_nonneg {cost : ModelUsageRecord → JsNumber}
    (h : ∀ record, JsNumber.Le (.finite 0) (cost record)) (records : List ModelUsageRecord) :
    JsNumber.Le (.finite 0) (costOf R cost records) := by
  refine JsNumber.zero_le_total ?_
  intro a ha
  obtain ⟨record, -, rfl⟩ := List.mem_map.mp ha
  exact h record

/-- The sums of the records are numbers that the schema takes. -/
structure Fits (R : Rounding) (records : List ModelUsageRecord) : Prop where
  tokens : sumOf (·.inputTokens) records + sumOf (·.outputTokens) records ≤ maxSafeInteger
  cached : sumOf (·.cachedInputTokens.getD 0) records ≤ maxSafeInteger
  reasoning : sumOf (·.reasoningTokens.getD 0) records ≤ maxSafeInteger
  providerCost : costOf R (·.providerReportedCostUsd.getD (.finite 0)) records ≠ .infinity
  estimatedCost : costOf R (·.estimatedCostUsd.getD (.finite 0)) records ≠ .infinity
  calls : ∀ role ≠ "__proto__", (ofRole role records).length ≤ maxSafeInteger
  roleTokens : ∀ role ≠ "__proto__", sumOf (·.totalTokens) (ofRole role records) ≤ maxSafeInteger
  roleCost : ∀ role ≠ "__proto__", costOf R (·.cost) (ofRole role records) ≠ .infinity

theorem roleTotal_accepted {role : String} :
    (roleTotal R role records).accepted = true ↔
      (ofRole role records).length ≤ maxSafeInteger ∧
        sumOf (·.inputTokens) (ofRole role records) ≤ maxSafeInteger ∧
        sumOf (·.outputTokens) (ofRole role records) ≤ maxSafeInteger ∧
        sumOf (·.totalTokens) (ofRole role records) ≤ maxSafeInteger ∧
        costOf R (·.cost) (ofRole role records) ≠ .infinity := by
  rw [← isAmount_iff (costOf_nonneg cost_nonneg _)]
  simp only [RoleUsage.accepted, roleTotal, List.all_cons, List.all_nil, Bool.and_eq_true,
    decide_eq_true_eq, Bool.and_true, and_assoc]

/-- A part of the records uses no more than all of them. -/
theorem sumOf_ofRole_le (count : ModelUsageRecord → Nat) (role : String) :
    sumOf count (ofRole role records) ≤ sumOf count records :=
  (List.Sublist.map count List.filter_sublist).sum_le_sum fun _ _ => Nat.zero_le _

theorem optional_le {n : Nat} :
    (if n > 0 then some n else none : Option Nat).getD 0 = n := by
  split
  · rfl
  · rw [Option.getD_none]
    omega

/-- **A summary is made of the records whose sums fit.** -/
theorem summaryFields_accepted :
    (summaryFields R records).accepted = true ↔ Fits R records := by
  have hprovider : (summaryFields R records).provider ≠ "" := by
    cases records with
    | nil =>
        show "unknown" ≠ ""
        decide
    | cons record rest => exact (accepted_parts record).1.1
  have hmodels : (summaryFields R records).modelsUsed.all (· ≠ "") = true := by
    rw [List.all_eq_true]
    intro model hmem
    obtain ⟨record, -, rfl⟩ := List.mem_map.mp (mem_distinct.mp hmem)
    exact decide_eq_true (accepted_parts record).1.2.1
  have hestimated := @isAmount_positive _ (@costOf_nonneg R _ estimatedCost_nonneg records)
  have hreported := @isAmount_positive _ (@costOf_nonneg R _ providerCost_nonneg records)
  unfold SummaryFields.accepted
  rw [hmodels, decide_eq_true hprovider]
  simp only [Bool.and_eq_true, Bool.true_and, List.all_cons, List.all_nil,
    Bool.and_true, decide_eq_true_eq, and_assoc]
  simp only [summaryFields, optional_le, hestimated, hreported, List.all_eq_true]
  constructor
  · rintro ⟨-, -, htokens, hcached, hreasoning, hcost, hcost', hrows⟩
    have hrole : ∀ role ≠ "__proto__", (roleTotal R role records).accepted = true := by
      intro role hproto
      by_cases hnone : ofRole role records = []
      · rw [roleTotal_accepted, hnone]
        refine ⟨Nat.zero_le _, Nat.zero_le _, Nat.zero_le _, Nat.zero_le _, ?_⟩
        intro hinf
        cases hinf
      · exact hrows _ (mem_usageByRole.mpr ⟨role, hproto, hnone, rfl⟩)
    exact
      { tokens := htokens
        cached := hcached
        reasoning := hreasoning
        providerCost := hcost'
        estimatedCost := hcost
        calls := fun role h => (roleTotal_accepted.mp (hrole role h)).1
        roleTokens := fun role h => (roleTotal_accepted.mp (hrole role h)).2.2.2.1
        roleCost := fun role h => (roleTotal_accepted.mp (hrole role h)).2.2.2.2 }
  · intro h
    have htokens := h.tokens
    refine ⟨by omega, by omega, htokens, h.cached, h.reasoning, h.estimatedCost, h.providerCost,
      ?_⟩
    intro row hrow
    obtain ⟨role, hproto, -, rfl⟩ := mem_usageByRole.mp hrow
    have hinput := @sumOf_ofRole_le records (·.inputTokens) role
    have houtput := @sumOf_ofRole_le records (·.outputTokens) role
    rw [roleTotal_accepted]
    exact ⟨h.calls role hproto, by omega, by omega, h.roleTokens role hproto, h.roleCost role hproto⟩

/-- No record is of a role that every object answers for with a function. -/
def NamesCount (records : List ModelUsageRecord) : Prop :=
  ∀ record ∈ records, record.roleLabel ∉ brokenRoles

theorem summarizeModelUsage_iff {summary : ModelUsageSummary} :
    summarizeModelUsage R records = some summary ↔
      NamesCount records ∧ Fits R records ∧ summary.toSummaryFields = summaryFields R records := by
  have hnames : records.any (·.roleLabel ∈ brokenRoles) = true ↔ ¬ NamesCount records := by
    simp [NamesCount]
  unfold summarizeModelUsage
  constructor
  · intro h
    split at h
    · cases h
    · rename_i hany
      rw [hnames, not_not] at hany
      unfold ModelUsageSummary.parse at h
      split at h
      · rename_i haccepted
        cases h
        exact ⟨hany, summaryFields_accepted.mp haccepted, rfl⟩
      · cases h
  · rintro ⟨hany, hfits, hfields⟩
    rw [if_neg (mt hnames.mp (not_not.mpr hany)), ModelUsageSummary.parse,
      dif_pos (summaryFields_accepted.mpr hfits)]
    cases summary
    cases hfields
    rfl

theorem summarizeModelUsage_isSome (hnames : NamesCount records) (hfits : Fits R records) :
    ∃ summary, summarizeModelUsage R records = some summary ∧
      summary.toSummaryFields = summaryFields R records :=
  ⟨⟨summaryFields R records, summaryFields_accepted.mpr hfits⟩,
    summarizeModelUsage_iff.mpr ⟨hnames, hfits, rfl⟩, rfl⟩

/-! ### What is conserved -/

/-- The rows of the roles add up to the records and to the summary's own totals. -/
structure Conserved (records : List ModelUsageRecord) (summary : ModelUsageSummary) : Prop where
  calls : (summary.byRole.map (·.calls)).sum = records.length
  inputTokens : (summary.byRole.map (·.inputTokens)).sum = summary.inputTokens
  outputTokens : (summary.byRole.map (·.outputTokens)).sum = summary.outputTokens
  totalTokens : (summary.byRole.map (·.totalTokens)).sum = summary.totalTokens

theorem mem_brokenRoles {role : String} :
    role ∈ brokenRoles ↔ role ∈ Value.inheritedNames ∧ role ≠ "__proto__" := by
  simp [brokenRoles]

theorem filter_eq_self_of_names (h : ∀ record ∈ records, record.roleLabel ∉ Value.inheritedNames) :
    records.filter (·.roleLabel ≠ "__proto__") = records := by
  refine List.filter_eq_self.mpr ?_
  intro record hmem
  refine decide_eq_true ?_
  intro hproto
  refine h record hmem ?_
  rw [hproto]
  decide

theorem sum_calls : ((usageByRole R records).rows.map (·.calls)).sum =
    (records.filter (·.roleLabel ≠ "__proto__")).length := by
  have hsum := @sum_usageByRole R records (·.calls) (fun _ => 1) (fun _ => rfl) (fun _ _ => rfl)
  rw [hsum, sumOf, List.map_const', List.sum_replicate, smul_eq_mul, Nat.mul_one]

/-- **The rows add up exactly where every role gets a row and the totals are what they add to.** -/
theorem conserved_iff :
    (∃ summary, summarizeModelUsage R records = some summary ∧ Conserved records summary) ↔
      (∀ record ∈ records, record.roleLabel ∉ Value.inheritedNames) ∧ Fits R records ∧
        sumOf (·.totalTokens) records = sumOf (·.inputTokens) records +
          sumOf (·.outputTokens) records := by
  have htotal := @sum_usageByRole R records (·.totalTokens) (·.totalTokens) (fun _ => rfl)
    (fun _ _ => rfl)
  have hinput := @sum_usageByRole R records (·.inputTokens) (·.inputTokens) (fun _ => rfl)
    (fun _ _ => rfl)
  have houtput := @sum_usageByRole R records (·.outputTokens) (·.outputTokens) (fun _ => rfl)
    (fun _ _ => rfl)
  have hcalls := @sum_calls R records
  constructor
  · rintro ⟨summary, hsummary, hkept⟩
    obtain ⟨hnames, hfits, hfields⟩ := summarizeModelUsage_iff.mp hsummary
    have hrows : summary.byRole = (usageByRole R records).rows := by rw [hfields]; rfl
    have hall : ∀ record ∈ records, record.roleLabel ≠ "__proto__" := by
      have hlength := hkept.calls
      rw [hrows, hcalls] at hlength
      intro record hmem
      exact of_decide_eq_true (List.length_filter_eq_length_iff.mp hlength record hmem)
    have hclean : ∀ record ∈ records, record.roleLabel ∉ Value.inheritedNames := by
      intro record hmem hinherited
      exact hnames record hmem (mem_brokenRoles.mpr ⟨hinherited, hall record hmem⟩)
    refine ⟨hclean, hfits, ?_⟩
    have hsum := hkept.totalTokens
    rw [hrows, htotal, filter_eq_self_of_names hclean, hfields] at hsum
    exact hsum
  · rintro ⟨hclean, hfits, hsum⟩
    have hnames : NamesCount records := fun record hmem hbroken =>
      hclean record hmem (mem_brokenRoles.mp hbroken).1
    obtain ⟨summary, hsummary, hfields⟩ := summarizeModelUsage_isSome hnames hfits
    rw [filter_eq_self_of_names hclean] at htotal hinput houtput hcalls
    refine ⟨summary, hsummary, ?_, ?_, ?_, ?_⟩
    · rw [hfields]
      exact hcalls
    · rw [hfields]
      exact hinput
    · rw [hfields]
      exact houtput
    · rw [hfields]
      exact htotal.trans hsum

/-- A provider that reports all its numbers makes the totals agree by making them agree itself,
and where it leaves one out they agree unless its total is too small. -/
theorem usageRecordFromProvider_balanced {toLowerCase : String → String} {input : UsageInput}
    {result : ProviderResult} {record : ModelUsageRecord}
    (h : usageRecordFromProvider R toLowerCase input result = some record) :
    record.totalTokens = record.inputTokens + record.outputTokens ↔
      ∀ n, result.totalTokens = some n → match result.inputTokens, result.outputTokens with
        | some a, some b => a + b = n
        | some a, none => a ≤ n
        | none, some b => b ≤ n
        | none, none => True := by
  have hparse : ∀ {fields : UsageFields} {record : ModelUsageRecord},
      ModelUsageRecord.parse fields = some record → record.toUsageFields = fields := by
    intro fields record hparse
    unfold ModelUsageRecord.parse at hparse
    split at hparse
    · cases hparse
      rfl
    · cases hparse
  unfold usageRecordFromProvider createEstimatedUsageRecord at h
  dsimp only at h
  split at h
  · rename_i hnone
    rw [hparse h, hnone.2.2]
    simp [usageFields]
  · rw [hparse h]
    simp only [usageFields]
    cases result.totalTokens with
    | none => simp
    | some n =>
        cases result.inputTokens <;> cases result.outputTokens <;> simp <;> omega

/-! ### What adds up -/

/-- The row of a role, an empty one if it has none. -/
def SummaryFields.row (summary : SummaryFields) (role : String) : RoleUsage :=
  (Table.get RoleUsage.role summary.byRole role).getD (RoleUsage.empty role)

def RoleUsage.plus (R : Rounding) (row row' : RoleUsage) : RoleUsage where
  role := row.role
  calls := row.calls + row'.calls
  inputTokens := row.inputTokens + row'.inputTokens
  outputTokens := row.outputTokens + row'.outputTokens
  totalTokens := row.totalTokens + row'.totalTokens
  costUsd := JsNumber.add R row.costUsd row'.costUsd

/-- A summary is the sum of two, component by component; what is left out counts as nothing. -/
structure IsSum (R : Rounding) (first second both : SummaryFields) : Prop where
  inputTokens : both.inputTokens = first.inputTokens + second.inputTokens
  outputTokens : both.outputTokens = first.outputTokens + second.outputTokens
  totalTokens : both.totalTokens = first.totalTokens + second.totalTokens
  cachedInputTokens : both.cachedInputTokens.getD 0 =
    first.cachedInputTokens.getD 0 + second.cachedInputTokens.getD 0
  reasoningTokens : both.reasoningTokens.getD 0 =
    first.reasoningTokens.getD 0 + second.reasoningTokens.getD 0
  providerCost : both.providerReportedCostUsd.getD (.finite 0) =
    JsNumber.add R (first.providerReportedCostUsd.getD (.finite 0))
      (second.providerReportedCostUsd.getD (.finite 0))
  estimatedCost : both.estimatedCostUsd.getD (.finite 0) =
    JsNumber.add R (first.estimatedCostUsd.getD (.finite 0))
      (second.estimatedCostUsd.getD (.finite 0))
  rows : ∀ role, both.row role = (first.row role).plus R (second.row role)
  modelsUsed : both.modelsUsed = distinct (first.modelsUsed ++ second.modelsUsed)
  estimated : both.estimated = (first.estimated || second.estimated)

/-- Adding the numbers up in two parts rounds to what adding them up in one does. -/
def AddsUp (R : Rounding) (numbers numbers' : List JsNumber) : Prop :=
  total R (numbers ++ numbers') = JsNumber.add R (total R numbers) (total R numbers')

/-- So it is with the costs of the records, and with those of each role. -/
structure CostsAddUp (R : Rounding) (xs ys : List ModelUsageRecord) : Prop where
  provider : AddsUp R (xs.map (·.providerReportedCostUsd.getD (.finite 0)))
    (ys.map (·.providerReportedCostUsd.getD (.finite 0)))
  estimated : AddsUp R (xs.map (·.estimatedCostUsd.getD (.finite 0)))
    (ys.map (·.estimatedCostUsd.getD (.finite 0)))
  roles : ∀ role ≠ "__proto__", AddsUp R ((ofRole role xs).map (·.cost))
    ((ofRole role ys).map (·.cost))

theorem positive_getD {a : JsNumber} (h : JsNumber.Le (.finite 0) a) :
    (if isPositive a then some a else none).getD (.finite 0) = a := by
  split
  · rfl
  · rename_i hzero
    cases a with
    | finite q =>
        have hle := JsNumber.le_finite.mp h
        have hge : ¬ 0 < q := fun hpos => hzero (decide_eq_true hpos)
        rw [Option.getD_none, le_antisymm hle (not_lt.mp hge)]
    | infinity => exact absurd rfl hzero
    | negInfinity => exact (Bool.false_ne_true h).elim
    | nan => exact (Bool.false_ne_true h).elim

theorem summaryFields_providerCost :
    (summaryFields R records).providerReportedCostUsd.getD (.finite 0) =
      costOf R (·.providerReportedCostUsd.getD (.finite 0)) records :=
  positive_getD (costOf_nonneg providerCost_nonneg records)

theorem summaryFields_estimatedCost :
    (summaryFields R records).estimatedCostUsd.getD (.finite 0) =
      costOf R (·.estimatedCostUsd.getD (.finite 0)) records :=
  positive_getD (costOf_nonneg estimatedCost_nonneg records)

theorem summaryFields_row {role : String} (h : role ≠ "__proto__") :
    (summaryFields R records).row role = roleTotal R role records := by
  have hget := @get_usageByRole R records role h
  unfold Table.Keyed.get at hget
  unfold SummaryFields.row summaryFields
  dsimp only
  rw [hget]
  split
  · rename_i hnone
    rw [Option.getD_none, roleTotal, hnone]
    rfl
  · rfl

theorem summaryFields_row_proto :
    (summaryFields R records).row "__proto__" = RoleUsage.empty "__proto__" := by
  have hget := @get_usageByRole_proto R records
  unfold Table.Keyed.get at hget
  unfold SummaryFields.row summaryFields
  dsimp only
  rw [hget]
  rfl

theorem sumOf_append (count : ModelUsageRecord → Nat) :
    sumOf count (xs ++ ys) = sumOf count xs + sumOf count ys := by
  unfold sumOf
  rw [List.map_append, List.sum_append]

theorem ofRole_append (role : String) :
    ofRole role (xs ++ ys) = ofRole role xs ++ ofRole role ys := List.filter_append ..

theorem roleTotal_append {role : String} :
    roleTotal R role (xs ++ ys) = (roleTotal R role xs).plus R (roleTotal R role ys) ↔
      AddsUp R ((ofRole role xs).map (·.cost)) ((ofRole role ys).map (·.cost)) := by
  unfold roleTotal RoleUsage.plus AddsUp costOf
  simp only [ofRole_append, sumOf_append, List.length_append, List.map_append,
    RoleUsage.mk.injEq, true_and]

section Distinct

/-- `seen.add(item)`. -/
def noted (seen : List String) (item : String) : List String :=
  if item ∈ seen then seen else seen ++ [item]

theorem mem_foldl_noted {seen items : List String} {item : String} :
    item ∈ items.foldl noted seen ↔ item ∈ seen ∨ item ∈ items := by
  induction items generalizing seen with
  | nil => simp
  | cons first rest ih =>
      rw [List.foldl_cons, ih, noted, List.mem_cons]
      split
      · rename_i hfirst
        constructor
        · rintro (hseen | hrest)
          · exact Or.inl hseen
          · exact Or.inr (Or.inr hrest)
        · rintro (hseen | rfl | hrest)
          · exact Or.inl hseen
          · exact Or.inl hfirst
          · exact Or.inr hrest
      · rw [List.mem_append, List.mem_singleton, or_assoc]

/-- Items noted twice are noted once. -/
theorem foldl_noted_distinct (seen items : List String) :
    (distinct items).foldl noted seen = items.foldl noted seen := by
  induction items using List.reverseRecOn with
  | nil => rfl
  | append_singleton items last ih =>
      have hstep : distinct (items ++ [last]) = noted (distinct items) last := List.foldl_concat ..
      rw [hstep, List.foldl_concat]
      by_cases hlast : last ∈ distinct items
      · have hseen : last ∈ items.foldl noted seen :=
          mem_foldl_noted.mpr (Or.inr (mem_distinct.mp hlast))
        have hsame : noted (distinct items) last = distinct items := if_pos hlast
        have hsame' : noted (items.foldl noted seen) last = items.foldl noted seen := if_pos hseen
        rw [hsame, hsame', ih]
      · have hmore : noted (distinct items) last = distinct items ++ [last] := if_neg hlast
        rw [hmore, List.foldl_concat, ih]

theorem distinct_append (items items' : List String) :
    distinct (items ++ items') = distinct (distinct items ++ distinct items') := by
  have hfold : ∀ list, distinct list = list.foldl noted [] := fun _ => rfl
  rw [hfold, hfold (_ ++ _), List.foldl_append, List.foldl_append, foldl_noted_distinct,
    foldl_noted_distinct]

end Distinct

theorem plus_empty (role : String) :
    (RoleUsage.empty role).plus R (RoleUsage.empty role) = RoleUsage.empty role := by
  have hzero : JsNumber.add R (.finite 0) (.finite 0) = .finite 0 := by
    rw [JsNumber.add, add_zero, R.round_zero]
    exact JsNumber.ofResult_of_lt le_rfl JsNumber.limit_pos
  simp only [RoleUsage.plus, RoleUsage.empty, hzero, Nat.add_zero]

theorem isSum_iff :
    IsSum R (summaryFields R xs) (summaryFields R ys) (summaryFields R (xs ++ ys)) ↔
      CostsAddUp R xs ys := by
  have hcost : ∀ cost : ModelUsageRecord → JsNumber,
      costOf R cost (xs ++ ys) = JsNumber.add R (costOf R cost xs) (costOf R cost ys) ↔
        AddsUp R (xs.map cost) (ys.map cost) := by
    intro cost
    unfold costOf AddsUp
    rw [List.map_append]
  constructor
  · intro h
    have hprovider := h.providerCost
    have hestimated := h.estimatedCost
    simp only [summaryFields_providerCost, hcost] at hprovider
    simp only [summaryFields_estimatedCost, hcost] at hestimated
    refine ⟨hprovider, hestimated, ?_⟩
    intro role hproto
    have hrow := h.rows role
    rwa [summaryFields_row hproto, summaryFields_row hproto, summaryFields_row hproto,
      roleTotal_append] at hrow
  · intro h
    refine
      { inputTokens := sumOf_append _
        outputTokens := sumOf_append _
        totalTokens := ?_
        cachedInputTokens := ?_
        reasoningTokens := ?_
        providerCost := ?_
        estimatedCost := ?_
        rows := ?_
        modelsUsed := ?_
        estimated := List.any_append }
    · simp only [summaryFields, sumOf_append]
      omega
    · simp only [summaryFields, optional_le, sumOf_append]
    · simp only [summaryFields, optional_le, sumOf_append]
    · rw [summaryFields_providerCost, summaryFields_providerCost, summaryFields_providerCost, hcost]
      exact h.provider
    · rw [summaryFields_estimatedCost, summaryFields_estimatedCost, summaryFields_estimatedCost,
        hcost]
      exact h.estimated
    · intro role
      by_cases hproto : role = "__proto__"
      · subst hproto
        rw [summaryFields_row_proto, summaryFields_row_proto, summaryFields_row_proto, plus_empty]
      · rw [summaryFields_row hproto, summaryFields_row hproto, summaryFields_row hproto,
          roleTotal_append]
        exact h.roles role hproto
    · simp only [summaryFields, List.map_append]
      exact distinct_append _ _

/-- **The summary of two lists is the sum of theirs exactly where all three are made and the costs
add up.** -/
theorem additive_iff :
    (∃ first second both, summarizeModelUsage R xs = some first ∧
        summarizeModelUsage R ys = some second ∧ summarizeModelUsage R (xs ++ ys) = some both ∧
        IsSum R first.toSummaryFields second.toSummaryFields both.toSummaryFields) ↔
      NamesCount (xs ++ ys) ∧ Fits R xs ∧ Fits R ys ∧ Fits R (xs ++ ys) ∧ CostsAddUp R xs ys := by
  constructor
  · rintro ⟨first, second, both, hfirst, hsecond, hboth, hsum⟩
    obtain ⟨-, hfits, hfields⟩ := summarizeModelUsage_iff.mp hfirst
    obtain ⟨-, hfits', hfields'⟩ := summarizeModelUsage_iff.mp hsecond
    obtain ⟨hnames, hfits'', hfields''⟩ := summarizeModelUsage_iff.mp hboth
    rw [hfields, hfields', hfields'', isSum_iff] at hsum
    exact ⟨hnames, hfits, hfits', hfits'', hsum⟩
  · rintro ⟨hnames, hfits, hfits', hfits'', hcosts⟩
    have hxs : NamesCount xs := fun record hmem => hnames record (List.mem_append_left _ hmem)
    have hys : NamesCount ys := fun record hmem => hnames record (List.mem_append_right _ hmem)
    obtain ⟨first, hfirst, hfields⟩ := summarizeModelUsage_isSome hxs hfits
    obtain ⟨second, hsecond, hfields'⟩ := summarizeModelUsage_isSome hys hfits'
    obtain ⟨both, hboth, hfields''⟩ := summarizeModelUsage_isSome hnames hfits''
    refine ⟨first, second, both, hfirst, hsecond, hboth, ?_⟩
    rw [hfields, hfields', hfields'', isSum_iff]
    exact hcosts

end OpenLagrange.Models
