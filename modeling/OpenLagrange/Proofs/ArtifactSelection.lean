/-
The selection of artifacts is exact.

Every candidate is on one side.  What is selected is related to the request, may be put out, and
comes first in the order of the candidates; what is put aside for want of room stands behind as
many as were asked for.  The order is total as far as the collation of texts is, so this says that
nothing that was put aside for want of room is worth more than what was selected.
-/
import OpenLagrange.Output.ArtifactSelector

namespace OpenLagrange.Output

variable {localeCompare : String → String → Ordering} {input : ArtifactSelectionInput}
  {index : List ArtifactSummary} {snapshot : Option RunSnapshot}

/-! ### The candidates -/

/-- What the request is about: what it names, what lists its plan, and what its run shows or owns.
An artifact that names no plan counts as one of a run that has no snapshot. -/
inductive Related (input : ArtifactSelectionInput) (index : List ArtifactSummary)
    (snapshot : Option RunSnapshot) (artifact : ArtifactSummary) : Prop where
  | named (h : artifact.artifactId ∈ input.named)
  | planned (planId : String) (hplan : input.plan = some planId)
      (h : artifact ∈ listArtifactsForPlan planId index)
  | shown (runId : String) (hrun : input.run = some runId) (s : RunSnapshot)
      (hsnapshot : snapshot = some s) (h : artifact.artifactId ∈ s.artifacts.map (·.artifactId))
  | owned (runId : String) (hrun : input.run = some runId)
      (h : ofRun runId snapshot artifact = true)

theorem byId_some {artifactId : String} {artifact : ArtifactSummary}
    (h : byId index artifactId = some artifact) :
    artifact ∈ index ∧ artifact.artifactId = artifactId := by
  unfold byId at h
  have hid := List.find?_some h
  exact ⟨List.mem_reverse.mp (List.mem_of_find?_eq_some h), of_decide_eq_true hid⟩

/-- **What is collected is in the index and related to the request.** -/
theorem related_of_collected {artifact : ArtifactSummary}
    (h : artifact ∈ collected input index snapshot) :
    artifact ∈ index ∧ Related input index snapshot artifact := by
  unfold collected at h
  rcases List.mem_append.mp h with h | h
  · rcases List.mem_append.mp h with h | h
    · obtain ⟨artifactId, hnamed, hfound⟩ := List.mem_filterMap.mp h
      obtain ⟨hindex, hid⟩ := byId_some hfound
      exact ⟨hindex, .named (hid ▸ hnamed)⟩
    · cases hplan : input.plan with
      | none =>
          rw [hplan] at h
          exact absurd h List.not_mem_nil
      | some planId =>
          rw [hplan] at h
          exact ⟨(List.mem_filter.mp h).1, .planned planId hplan h⟩
  · cases hrun : input.run with
    | none =>
        rw [hrun] at h
        exact absurd h List.not_mem_nil
    | some runId =>
        rw [hrun] at h
        rcases List.mem_append.mp h with h | h
        · obtain ⟨item, hitem, hfound⟩ := List.mem_filterMap.mp h
          obtain ⟨hindex, hid⟩ := byId_some hfound
          cases snapshot with
          | none => exact absurd hitem List.not_mem_nil
          | some s => exact ⟨hindex, .shown runId hrun s rfl (hid ▸ List.mem_map_of_mem hitem)⟩
        · obtain ⟨hindex, hof⟩ := List.mem_filter.mp h
          exact ⟨hindex, .owned runId hrun hof⟩

/-- An artifact of the index has an artifact of its id. -/
theorem byId_of_mem {artifact : ArtifactSummary} (h : artifact ∈ index) :
    ∃ found, byId index artifact.artifactId = some found := by
  cases hfound : byId index artifact.artifactId with
  | some found => exact ⟨found, rfl⟩
  | none =>
      unfold byId at hfound
      have hnone := List.find?_eq_none.mp hfound artifact (List.mem_reverse.mpr h)
      exact absurd (decide_eq_true rfl) hnone

/-- **The id of every artifact that is related to the request is collected.** -/
theorem collected_of_related {artifact : ArtifactSummary} (hindex : artifact ∈ index)
    (h : Related input index snapshot artifact) :
    ∃ found ∈ collected input index snapshot, found.artifactId = artifact.artifactId := by
  obtain ⟨found, hfound⟩ := byId_of_mem hindex
  have hid := (byId_some hfound).2
  unfold collected
  cases h with
  | named hnamed =>
      refine ⟨found, ?_, hid⟩
      exact List.mem_append_left _ (List.mem_append_left _
        (List.mem_filterMap.mpr ⟨artifact.artifactId, hnamed, hfound⟩))
  | planned planId hplan hlisted =>
      refine ⟨artifact, ?_, rfl⟩
      rw [hplan]
      exact List.mem_append_left _ (List.mem_append_right _ hlisted)
  | shown runId hrun s hsnapshot hshown =>
      obtain ⟨item, hitem, hsame⟩ := List.mem_map.mp hshown
      refine ⟨found, ?_, hid⟩
      rw [hrun, hsnapshot]
      refine List.mem_append_right _ (List.mem_append_left _ ?_)
      exact List.mem_filterMap.mpr ⟨item, hitem, hsame ▸ hfound⟩
  | owned runId hrun hof =>
      refine ⟨artifact, ?_, rfl⟩
      rw [hrun]
      exact List.mem_append_right _ (List.mem_append_right _ (List.mem_filter.mpr ⟨hindex, hof⟩))

theorem mem_sortedCandidates {artifact : ArtifactSummary} :
    artifact ∈ sortedCandidates localeCompare input index snapshot ↔
      artifact ∈ (candidateMap input index snapshot).rows :=
  List.mem_insertionSort _

theorem collected_of_candidate {artifact : ArtifactSummary}
    (h : artifact ∈ sortedCandidates localeCompare input index snapshot) :
    artifact ∈ collected input index snapshot := by
  rcases Table.Keyed.mem_foldl_upsert (mem_sortedCandidates.mp h) with hrow | hempty
  · exact hrow
  · exact absurd hempty List.not_mem_nil

theorem candidate_of_collected {artifact : ArtifactSummary}
    (h : artifact ∈ collected input index snapshot) :
    ∃ candidate ∈ sortedCandidates localeCompare input index snapshot,
      candidate.artifactId = artifact.artifactId := by
  obtain ⟨last, -, hid, hin⟩ := @Table.Keyed.exists_foldl_upsert _ _ _
    ArtifactSummary.artifactId _ _ Table.Keyed.empty h
  exact ⟨last, mem_sortedCandidates.mpr hin, hid⟩

/-- No two candidates have one id. -/
theorem nodup_candidates :
    ((sortedCandidates localeCompare input index snapshot).map (·.artifactId)).Nodup := by
  have hperm : (sortedCandidates localeCompare input index snapshot).Perm
      (candidateMap input index snapshot).rows := List.perm_insertionSort _ _
  exact (hperm.map _).nodup_iff.mpr (candidateMap input index snapshot).nodup

/-! ### The order -/

theorem transCmp_on {α β : Type} {cmp : β → β → Ordering} [Std.TransCmp cmp] (f : α → β) :
    Std.TransCmp fun a b => cmp (f a) (f b) where
  eq_swap := Std.OrientedCmp.eq_swap
  isLE_trans hab hbc := Std.TransCmp.isLE_trans hab hbc

theorem transCmp_compareArtifacts [Std.TransCmp localeCompare] :
    Std.TransCmp (compareArtifacts localeCompare) := by
  have hscore : Std.TransCmp fun a b : ArtifactSummary => compare (score b) (score a) :=
    @Std.TransCmp.opposite _ _ (@transCmp_on _ _ compare _ score)
  have hcreated := @transCmp_on _ _ localeCompare _ ArtifactSummary.createdAt
  have hid := @transCmp_on _ _ localeCompare _ ArtifactSummary.artifactId
  exact inferInstanceAs (Std.TransCmp (compareLex
    (fun a b : ArtifactSummary => compare (score b) (score a))
    (compareLex (fun a b : ArtifactSummary => localeCompare a.createdAt b.createdAt)
      fun a b : ArtifactSummary => localeCompare a.artifactId b.artifactId)))

variable (localeCompare) in
/-- The one is sorted no later than the other. -/
def NoLater (a b : ArtifactSummary) : Prop := compareArtifacts localeCompare a b ≠ .gt

/-- **The candidates are sorted.** -/
theorem pairwise_candidates [Std.TransCmp localeCompare] :
    (sortedCandidates localeCompare input index snapshot).Pairwise (NoLater localeCompare) := by
  have htrans : Std.TransCmp (compareArtifacts localeCompare) := transCmp_compareArtifacts
  have htotal : Std.Total fun a b : ArtifactSummary => compareArtifacts localeCompare a b ≠ .gt := by
    refine ⟨fun a b => ?_⟩
    by_cases hab : compareArtifacts localeCompare a b = .gt
    · refine Or.inr ?_
      rw [Std.OrientedCmp.gt_iff_lt.mp hab]
      decide
    · exact Or.inl hab
  have hle : IsTrans ArtifactSummary fun a b => compareArtifacts localeCompare a b ≠ .gt := by
    refine ⟨fun a b c hab hbc => ?_⟩
    have hac := Std.TransCmp.isLE_trans (Ordering.isLE_iff_ne_gt.mpr hab)
      (Ordering.isLE_iff_ne_gt.mpr hbc)
    exact Ordering.isLE_iff_ne_gt.mp hac
  have hsorted := (candidateMap input index snapshot).rows.pairwise_insertionSort
    fun a b => compareArtifacts localeCompare a b ≠ .gt
  exact hsorted

/-! ### The selection -/

variable (localeCompare input index snapshot) in
/-- The candidates that may be put out, in their order. -/
def admissible : List ArtifactSummary :=
  (sortedCandidates localeCompare input index snapshot).filter fun a => (input.barred a).isNone

theorem judged_limited : input.judged =
    Triage.limited input.barred .limitExceeded input.maxArtifacts := rfl

/-- **The first admissible candidates are selected.** -/
theorem selected_eq :
    (selectArtifacts localeCompare input index snapshot).selectedArtifacts =
      (admissible localeCompare input index snapshot).take input.maxArtifacts := by
  unfold selectArtifacts admissible
  rw [judged_limited]
  exact Triage.kept_limited _

variable (localeCompare input index snapshot) in
/-- The candidates that are put aside, each with its reason. -/
def turnedDown : List (ArtifactSummary × ExcludedArtifactReason) :=
  Triage.aside (Triage.run input.judged (sortedCandidates localeCompare input index snapshot))

theorem excluded_eq : (selectArtifacts localeCompare input index snapshot).excludedArtifacts =
    notFound input index ++ (turnedDown localeCompare input index snapshot).map fun entry =>
      ⟨entry.1.artifactId, entry.2⟩ := rfl

variable (localeCompare input index snapshot) in
/-- What a selection is. -/
structure SelectionExact (result : ArtifactSelectionResult) : Prop where
  /-- No more are selected than may be. -/
  bounded : result.selectedArtifacts.length ≤ input.maxArtifacts
  /-- What is selected is in the index, related to the request, and may be put out. -/
  fit : ∀ artifact ∈ result.selectedArtifacts, artifact ∈ index ∧
    Related input index snapshot artifact ∧ input.barred artifact = none
  sorted : result.selectedArtifacts.Pairwise (NoLater localeCompare)
  /-- The ids of what is related to the request are on one side each, and the ids that the index
  does not list are put aside as not found. -/
  sides : ∃ aside : List ExcludedArtifact,
    result.excludedArtifacts = notFound input index ++ aside ∧
    (result.selectedArtifacts.map (·.artifactId) ++ aside.map (·.artifactId)).Nodup ∧
    (∀ artifactId, artifactId ∈ result.selectedArtifacts.map (·.artifactId) ++
        aside.map (·.artifactId) ↔
      ∃ artifact ∈ index, artifact.artifactId = artifactId ∧ Related input index snapshot artifact) ∧
    ∀ entry ∈ aside, ∃ artifact ∈ index, artifact.artifactId = entry.artifactId ∧
      Related input index snapshot artifact ∧
      (input.barred artifact = some entry.reason ∨
        (input.barred artifact = none ∧ entry.reason = .limitExceeded ∧
          result.selectedArtifacts.length = input.maxArtifacts ∧
          ∀ selected ∈ result.selectedArtifacts, NoLater localeCompare selected artifact))

theorem selected_sub {artifact : ArtifactSummary}
    (h : artifact ∈ (selectArtifacts localeCompare input index snapshot).selectedArtifacts) :
    artifact ∈ sortedCandidates localeCompare input index snapshot ∧
      input.barred artifact = none := by
  rw [selected_eq] at h
  obtain ⟨hin, hbarred⟩ := List.mem_filter.mp (List.mem_of_mem_take h)
  exact ⟨hin, Option.isNone_iff_eq_none.mp hbarred⟩

/-- What stands behind as many admissible candidates as may be selected is worth no more than
what is selected. -/
theorem behind_selected [Std.TransCmp localeCompare] {front back : List ArtifactSummary}
    {artifact : ArtifactSummary}
    (hsplit : sortedCandidates localeCompare input index snapshot = front ++ artifact :: back)
    (hfull : input.maxArtifacts ≤ (front.filter fun a => (input.barred a).isNone).length) :
    (selectArtifacts localeCompare input index snapshot).selectedArtifacts.length =
        input.maxArtifacts ∧
      ∀ selected ∈ (selectArtifacts localeCompare input index snapshot).selectedArtifacts,
        NoLater localeCompare selected artifact := by
  have hselected : (selectArtifacts localeCompare input index snapshot).selectedArtifacts =
      (front.filter fun a => (input.barred a).isNone).take input.maxArtifacts := by
    rw [selected_eq]
    unfold admissible
    rw [hsplit, List.filter_append, List.take_append_of_le_length hfull]
  have hsorted := @pairwise_candidates localeCompare input index snapshot _
  rw [hsplit] at hsorted
  refine ⟨?_, ?_⟩
  · rw [hselected, List.length_take]
    omega
  · intro selected hin
    rw [hselected] at hin
    have hfront := (List.mem_filter.mp (List.mem_of_mem_take hin)).1
    exact (List.pairwise_append.mp hsorted).2.2 selected hfront artifact List.mem_cons_self

/-- The ids of the candidates are those on the two sides. -/
theorem sides_perm : ((selectArtifacts localeCompare input index snapshot).selectedArtifacts.map
      (·.artifactId) ++ (turnedDown localeCompare input index snapshot).map
        fun entry => entry.1.artifactId).Perm
    ((sortedCandidates localeCompare input index snapshot).map (·.artifactId)) := by
  have hperm := (Triage.sides_perm (Triage.run input.judged
    (sortedCandidates localeCompare input index snapshot))).map ArtifactSummary.artifactId
  rw [Triage.run_map_fst, List.map_append, List.map_map] at hperm
  exact hperm

/-- **A selection is exact**, for every index, request and snapshot. -/
theorem selectArtifacts_exact (localeCompare : String → String → Ordering)
    [Std.TransCmp localeCompare] (input : ArtifactSelectionInput) (index : List ArtifactSummary)
    (snapshot : Option RunSnapshot) :
    SelectionExact localeCompare input index snapshot
      (selectArtifacts localeCompare input index snapshot) where
  bounded := by
    rw [selected_eq]
    exact List.length_take_le _ _
  fit := by
    intro artifact h
    obtain ⟨hcandidate, hbarred⟩ := selected_sub h
    obtain ⟨hindex, hrelated⟩ := related_of_collected (collected_of_candidate hcandidate)
    exact ⟨hindex, hrelated, hbarred⟩
  sorted := by
    rw [selected_eq]
    exact (pairwise_candidates.filter _).sublist (List.take_sublist _ _)
  sides := by
    refine ⟨_, excluded_eq, ?_, ?_, ?_⟩
    · rw [List.map_map]
      exact sides_perm.nodup_iff.mpr nodup_candidates
    · intro artifactId
      rw [List.map_map]
      refine sides_perm.mem_iff.trans ⟨?_, ?_⟩
      · intro h
        obtain ⟨artifact, hcandidate, rfl⟩ := List.mem_map.mp h
        obtain ⟨hindex, hrelated⟩ := related_of_collected (collected_of_candidate hcandidate)
        exact ⟨artifact, hindex, rfl, hrelated⟩
      · rintro ⟨artifact, hindex, rfl, hrelated⟩
        obtain ⟨found, hfound, hid⟩ := collected_of_related hindex hrelated
        obtain ⟨candidate, hcandidate, hsame⟩ := candidate_of_collected hfound
        exact List.mem_map.mpr ⟨candidate, hcandidate, hsame.trans hid⟩
    · intro entry hentry
      obtain ⟨⟨artifact, reason⟩, haside, rfl⟩ := List.mem_map.mp hentry
      have hcandidate : artifact ∈ sortedCandidates localeCompare input index snapshot := by
        have hmem : artifact ∈ (Triage.run input.judged
            (sortedCandidates localeCompare input index snapshot)).map (·.1) :=
          List.mem_map.mpr ⟨(artifact, some reason), Triage.mem_aside_iff.mp haside, rfl⟩
        rwa [Triage.run_map_fst] at hmem
      obtain ⟨hindex, hrelated⟩ := related_of_collected (collected_of_candidate hcandidate)
      refine ⟨artifact, hindex, rfl, hrelated, ?_⟩
      rcases Triage.aside_limited haside with hbarred | ⟨hbarred, hreason, front, back, hsplit, hfull⟩
      · exact Or.inl hbarred
      · obtain ⟨hlength, hbefore⟩ := behind_selected hsplit hfull
        exact Or.inr ⟨hbarred, hreason, hlength, hbefore⟩

def sampleArtifact (artifactId : String) (kind : ArtifactKind) : ArtifactSummary where
  artifactId
  kind
  artifactRole := none
  title := artifactId
  summary := ""
  pathOrUri := artifactId
  createdAt := "2026-01-01T00:00:00Z"
  relatedRunId := none
  relatedPlanId := none
  producedByPackId := none
  producedByCapabilityId := none
  producedByPlanId := none
  inputArtifactRefs := none
  outputArtifactRefs := none
  redactionStatus := none
  redacted := true
  restricted := none
  outputFormat := none
  checksumSha256 := none
  contentType := none

/-- One of three, by their ids. -/
def sampleSelection : ArtifactSelectionInput where
  runId := none
  planId := none
  artifactIds := some ["report", "log", "brief", "gone"]
  includeKinds := none
  excludeKinds := none
  includeModelCalls := false
  includeRawLogs := false
  includeRedactedOnly := true
  maxArtifacts := 1
  preset := .finalOutputs

def sampleIndex : List ArtifactSummary :=
  [sampleArtifact "log" .rawLog, sampleArtifact "report" .reviewReport,
    sampleArtifact "brief" .researchBrief]

/-- The brief is worth more than the report, and there is room for one. -/
theorem sampleSelection_exact :
    (selectArtifacts compare sampleSelection sampleIndex none).excludedArtifacts =
        [⟨"gone", .notFound⟩, ⟨"report", .limitExceeded⟩, ⟨"log", .kindExcluded⟩] ∧
      SelectionExact compare sampleSelection sampleIndex none
        (selectArtifacts compare sampleSelection sampleIndex none) :=
  ⟨by decide +kernel, selectArtifacts_exact compare sampleSelection sampleIndex none⟩

end OpenLagrange.Output
