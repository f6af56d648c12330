/-
What a source set says about every source.

The four collections of the pass are four readings of one trail: the sources with the verdict at
each.  So a source is on one side only, its reason stands at its place, and it was rejected for
nothing but what had been selected before it.
-/
import OpenLagrange.Lib.Triage
import OpenLagrange.Research.SourceSet

namespace OpenLagrange.Research

/-! ### The trail of the pass -/

/-- Why a source is rejected, given the sources selected before it. -/
def rejectionOf (max : Nat) (requireDiverse : Bool) (before : List ExtractedSource)
    (source : ExtractedSource) : Option SourceSelectionReasonKind :=
  if before.length ≥ max then some .limitExceeded
  else if requireDiverse ∧ source.domain ∈ before.map (·.domain) then some .duplicate
  else none

/-- The reason left behind at an element of the trail. -/
def reasonOf (max : Nat) (requireDiverse : Bool) :
    ExtractedSource × Option SourceSelectionReasonKind → SourceSelectionReason
  | (source, none) =>
      ⟨source.sourceId, true,
        if (source.citation.publishedAt.getD "") ≠ "" then .recent
        else if requireDiverse then .diverseDomain
        else .highRank,
        if requireDiverse then "Selected to preserve domain diversity for " ++ source.domain ++ "."
        else "Selected within the ranked source limit."⟩
  | (source, some .limitExceeded) =>
      ⟨source.sourceId, false, .limitExceeded,
        "Maximum source count reached: " ++ toString max ++ "."⟩
  | (source, some reason) =>
      ⟨source.sourceId, false, reason, "Domain already represented: " ++ source.domain ++ "."⟩

section Pass

variable (max : Nat) (requireDiverse : Bool)

/-- The sources with the verdict at each. -/
abbrev trail (sources : List ExtractedSource) :
    List (ExtractedSource × Option SourceSelectionReasonKind) :=
  Triage.run (rejectionOf max requireDiverse) sources

/-- The collections of the pass are readings of a trail. -/
structure Reads (state : Selection)
    (entries : List (ExtractedSource × Option SourceSelectionReasonKind)) : Prop where
  selected : state.selected = (Triage.kept entries).map summaryOf
  rejected : state.rejected = (Triage.aside entries).map fun e => ⟨e.1.sourceId, e.2.text⟩
  reasons : state.selectionReasons = entries.map (reasonOf max requireDiverse)
  domains : ∀ domain, domain ∈ state.domains ↔ domain ∈ (Triage.kept entries).map (·.domain)

variable {max requireDiverse}

theorem Reads.reject {state : Selection}
    {entries : List (ExtractedSource × Option SourceSelectionReasonKind)}
    (h : Reads max requireDiverse state entries) {source : ExtractedSource}
    {reason : SourceSelectionReasonKind} {detail : String}
    (hreason : reasonOf max requireDiverse (source, some reason) =
      ⟨source.sourceId, false, reason, detail⟩) :
    Reads max requireDiverse (state.reject source reason detail)
      (entries ++ [(source, some reason)]) where
  selected := by
    rw [Triage.kept_append]
    exact h.selected.trans (by simp [Triage.kept])
  rejected := by
    rw [Triage.aside_append, List.map_append, ← h.rejected]
    rfl
  reasons := by
    rw [List.map_append, ← h.reasons, List.map_singleton, hreason]
    rfl
  domains := by
    intro domain
    rw [Triage.kept_append]
    exact (h.domains domain).trans (by simp [Triage.kept])

theorem Reads.select {state : Selection}
    {entries : List (ExtractedSource × Option SourceSelectionReasonKind)}
    (h : Reads max requireDiverse state entries) (source : ExtractedSource) :
    Reads max requireDiverse (state.select requireDiverse source) (entries ++ [(source, none)]) where
  selected := by
    rw [Triage.kept_append, List.map_append, ← h.selected]
    rfl
  rejected := by
    rw [Triage.aside_append]
    exact h.rejected.trans (by simp [Triage.aside])
  reasons := by
    rw [List.map_append, ← h.reasons]
    rfl
  domains := by
    intro domain
    rw [Triage.kept_append, List.map_append, List.mem_append, ← h.domains]
    show domain ∈ state.domains.insert source.domain ↔ _
    rw [List.mem_insert_iff, or_comm]
    simp [Triage.kept]

/-- A turn of the loop is a step of the trail. -/
theorem Reads.consider {state : Selection}
    {entries : List (ExtractedSource × Option SourceSelectionReasonKind)}
    (h : Reads max requireDiverse state entries) (source : ExtractedSource) :
    Reads max requireDiverse (considerSource max requireDiverse state source)
      (Triage.step (rejectionOf max requireDiverse) entries source) := by
  have hlength : state.selected.length = (Triage.kept entries).length := by
    rw [h.selected, List.length_map]
  have hdomain := h.domains source.domain
  unfold considerSource Triage.step rejectionOf
  rw [hlength]
  by_cases hfull : (Triage.kept entries).length ≥ max
  · rw [if_pos hfull, if_pos hfull]
    exact h.reject rfl
  · rw [if_neg hfull, if_neg hfull]
    by_cases hseen : requireDiverse = true ∧ source.domain ∈ state.domains
    · rw [if_pos hseen, if_pos ⟨hseen.1, hdomain.mp hseen.2⟩]
      exact h.reject rfl
    · rw [if_neg hseen, if_neg fun hb => hseen ⟨hb.1, hdomain.mpr hb.2⟩]
      exact h.select source

variable (max requireDiverse) in
/-- **The pass reads its trail.** -/
theorem selectSources_reads (sources : List ExtractedSource) :
    Reads max requireDiverse (selectSources max requireDiverse sources)
      (trail max requireDiverse sources) := by
  unfold selectSources trail Triage.run
  refine List.foldl_rel ⟨rfl, rfl, rfl, fun _ => Iff.rfl⟩ ?_
  intro source _ state entries h
  exact h.consider source

end Pass

/-! ### What the trail keeps -/

section Trail

variable {max : Nat} {requireDiverse : Bool}

theorem rejectionOf_none_iff {before : List ExtractedSource} {source : ExtractedSource} :
    rejectionOf max requireDiverse before source = none ↔
      before.length < max ∧
        (requireDiverse = true → source.domain ∉ before.map (·.domain)) := by
  unfold rejectionOf
  split
  · rename_i hfull
    refine iff_of_false (by intro h; cases h) ?_
    intro h
    omega
  · rename_i hroom
    split
    · rename_i hseen
      refine iff_of_false (by intro h; cases h) ?_
      intro h
      exact h.2 hseen.1 hseen.2
    · rename_i hnew
      refine iff_of_true rfl ⟨by omega, ?_⟩
      intro hdiverse hmem
      exact hnew ⟨hdiverse, hmem⟩

theorem rejectionOf_some {before : List ExtractedSource} {source : ExtractedSource}
    {reason : SourceSelectionReasonKind}
    (h : rejectionOf max requireDiverse before source = some reason) :
    reason = .limitExceeded ∧ max ≤ before.length ∨
      reason = .duplicate ∧ requireDiverse = true ∧ source.domain ∈ before.map (·.domain) := by
  unfold rejectionOf at h
  split at h
  · rename_i hfull
    exact Or.inl ⟨(Option.some.inj h).symm, hfull⟩
  · split at h
    · rename_i hseen
      exact Or.inr ⟨(Option.some.inj h).symm, hseen⟩
    · cases h

theorem kept_length_le (sources : List ExtractedSource) :
    (Triage.kept (trail max requireDiverse sources)).length ≤ max := by
  refine Triage.kept_induction (P := fun kept => kept.length ≤ max) (Nat.zero_le _) ?_ sources
  intro front _ source h
  have hroom := (rejectionOf_none_iff.mp h).1
  rw [List.length_append, List.length_singleton]
  omega

theorem kept_domains_nodup (hdiverse : requireDiverse = true) (sources : List ExtractedSource) :
    ((Triage.kept (trail max requireDiverse sources)).map (·.domain)).Nodup := by
  refine Triage.kept_induction (P := fun kept => (kept.map (·.domain)).Nodup) List.nodup_nil ?_
    sources
  intro front hfront source h
  rw [List.map_append, List.map_singleton]
  rw [← List.concat_eq_append, List.nodup_concat]
  exact ⟨(rejectionOf_none_iff.mp h).2 hdiverse, hfront⟩

end Trail

/-! ### The set -/

section Set

variable {P : ResearchPlatform}

/-- The sources, each beside the reason at its place. -/
def placed (input : CreateSourceSetInput P) (output : CreateSourceSetOutput) :
    List (ExtractedSource × SourceSelectionReason) :=
  input.sources.zip output.selectionReasons

def chosen (places : List (ExtractedSource × SourceSelectionReason)) : List ExtractedSource :=
  (places.filter (·.2.selected)).map (·.1)

def turnedAway (places : List (ExtractedSource × SourceSelectionReason)) :
    List (ExtractedSource × SourceSelectionReason) :=
  places.filter (!·.2.selected)

/-- Every source is sorted to one side, for the reason given at its place. -/
structure SourcesSorted (input : CreateSourceSetInput P) (output : CreateSourceSetOutput) : Prop where
  reasons : output.selectionReasons.map (·.sourceId) = input.sources.map (·.sourceId)
  selected : output.selectedSources = (chosen (placed input output)).map summaryOf
  rejected : output.rejectedSources =
    (turnedAway (placed input output)).map fun place => ⟨place.1.sourceId, place.2.reason.text⟩
  most : output.selectedSources.length ≤ input.max
  diverse : input.requireDiverse = true → (output.selectedSources.map (·.domain)).Nodup
  /-- A source is selected exactly when there is room and its domain may be selected. -/
  admitted : ∀ front source reason back,
    placed input output = front ++ (source, reason) :: back →
      (reason.selected = true ↔ (chosen front).length < input.max ∧
        (input.requireDiverse = true → source.domain ∉ (chosen front).map (·.domain)))
  /-- A source is rejected for the limit, or for its domain, and only where it is so. -/
  refused : ∀ front source reason back,
    placed input output = front ++ (source, reason) :: back → reason.selected = false →
      reason.reason = .limitExceeded ∧ input.max ≤ (chosen front).length ∨
      reason.reason = .duplicate ∧ input.requireDiverse = true ∧
        source.domain ∈ (chosen front).map (·.domain)
  welcomed : ∀ place ∈ placed input output, place.2.selected = true →
    place.2.reason ∈ [SourceSelectionReasonKind.recent, .diverseDomain, .highRank]
  warned : "selected_sources_below_minimum" ∈ output.warnings ↔
    output.selectedSources.length < input.min

variable {max : Nat} {requireDiverse : Bool}

theorem reasonOf_sourceId (entry : ExtractedSource × Option SourceSelectionReasonKind) :
    (reasonOf max requireDiverse entry).sourceId = entry.1.sourceId := by
  fun_cases reasonOf max requireDiverse entry <;> rfl

theorem reasonOf_selected (entry : ExtractedSource × Option SourceSelectionReasonKind) :
    (reasonOf max requireDiverse entry).selected = entry.2.isNone := by
  fun_cases reasonOf max requireDiverse entry <;> rfl

variable (max requireDiverse) in
theorem reasonOf_reason (source : ExtractedSource) (reason : SourceSelectionReasonKind) :
    (reasonOf max requireDiverse (source, some reason)).reason = reason := by
  cases reason <;> rfl

/-- The places of a trail. -/
def placesOf (max : Nat) (requireDiverse : Bool)
    (entries : List (ExtractedSource × Option SourceSelectionReasonKind)) :
    List (ExtractedSource × SourceSelectionReason) :=
  entries.map fun entry => (entry.1, reasonOf max requireDiverse entry)

variable (max requireDiverse) in
theorem chosen_placesOf (entries : List (ExtractedSource × Option SourceSelectionReasonKind)) :
    chosen (placesOf max requireDiverse entries) = Triage.kept entries := by
  induction entries with
  | nil => rfl
  | cons entry entries ih =>
      obtain ⟨source, verdict⟩ := entry
      unfold chosen placesOf at ih ⊢
      rw [List.map_cons, List.filter_cons, reasonOf_selected]
      cases verdict with
      | none => exact congrArg (source :: ·) ih
      | some reason => exact ih

theorem turnedAway_placesOf
    (entries : List (ExtractedSource × Option SourceSelectionReasonKind)) :
    (turnedAway (placesOf max requireDiverse entries)).map
        (fun place => SourceRejection.mk place.1.sourceId place.2.reason.text) =
      (Triage.aside entries).map fun entry => ⟨entry.1.sourceId, entry.2.text⟩ := by
  induction entries with
  | nil => rfl
  | cons entry entries ih =>
      obtain ⟨source, verdict⟩ := entry
      unfold turnedAway placesOf at ih ⊢
      rw [List.map_cons, List.filter_cons, reasonOf_selected]
      cases verdict with
      | none => exact ih
      | some reason =>
          have hreason := reasonOf_reason max requireDiverse source reason
          simp only [Option.isNone_some, Bool.not_false, if_true, List.map_cons, hreason,
            Triage.aside, ih]

variable (input : CreateSourceSetInput P)

/-- What is put through the schema of the output passes it. -/
theorem sourceSetDraft_parse :
    CreateSourceSetOutput.parse P (sourceSetDraft input) = .ok (sourceSetDraft input) := by
  have hreads := selectSources_reads input.max input.requireDiverse input.sources
  have haccepted : ∀ source ∈ input.sources, source.accepted P = true :=
    List.all_eq_true.mp input.sources_accepted
  have hurls : (sourceSetDraft input).selectedSources.all (fun source => P.isUrl source.url) = true := by
    show (selectSources input.max input.requireDiverse input.sources).selected.all _ = true
    rw [hreads.selected, List.all_map, List.all_eq_true]
    intro source hsource
    have hmem := (Triage.kept_sublist _).subset hsource
    rw [Triage.run_map_fst] at hmem
    have h := haccepted source hmem
    unfold ExtractedSource.accepted at h
    simp only [Bool.and_eq_true] at h
    exact h.1.1.1.1.1.2
  have hids : (sourceSetDraft input).selectionReasons.all
      (fun reason => nonempty reason.sourceId) = true := by
    show (selectSources input.max input.requireDiverse input.sources).selectionReasons.all _ = true
    rw [hreads.reasons, List.all_map, List.all_eq_true]
    intro entry hentry
    have hmem := List.mem_map_of_mem (f := (·.1)) hentry
    rw [Triage.run_map_fst] at hmem
    have h := haccepted entry.1 hmem
    unfold ExtractedSource.accepted at h
    simp only [Bool.and_eq_true] at h
    show nonempty (reasonOf _ _ entry).sourceId = true
    rw [reasonOf_sourceId]
    exact h.1.1.1.1.1.1
  unfold CreateSourceSetOutput.parse
  rw [hurls, hids]
  rfl

theorem placed_draft : placed input (sourceSetDraft input) =
    placesOf input.max input.requireDiverse
      (trail input.max input.requireDiverse input.sources) := by
  have hreads := selectSources_reads input.max input.requireDiverse input.sources
  unfold placed placesOf
  show input.sources.zip (selectSources input.max input.requireDiverse
    input.sources).selectionReasons = _
  have hsources : (trail input.max input.requireDiverse input.sources).map (·.1) = input.sources :=
    Triage.run_map_fst _ _
  rw [hreads.reasons]
  exact (congrArg (List.zip · _) hsources.symm).trans (List.zip_map' ..)

/-- A place of the draft is an element of the trail. -/
theorem place_of_draft {front back : List (ExtractedSource × SourceSelectionReason)}
    {source : ExtractedSource} {reason : SourceSelectionReason}
    (h : placed input (sourceSetDraft input) = front ++ (source, reason) :: back) :
    ∃ verdict, reason = reasonOf input.max input.requireDiverse (source, verdict) ∧
      verdict = rejectionOf input.max input.requireDiverse (chosen front) source := by
  rw [placed_draft] at h
  obtain ⟨before, after, htrail, rfl, hafter⟩ := List.map_eq_append_iff.mp h
  obtain ⟨entry, rest, rfl, hentry, -⟩ := List.map_eq_cons_iff.mp hafter
  obtain ⟨source', verdict⟩ := entry
  obtain ⟨rfl, hreason⟩ := Prod.mk.inj hentry
  refine ⟨verdict, hreason.symm, ?_⟩
  have hverdict := Triage.verdict_of_split htrail
  rw [← chosen_placesOf input.max input.requireDiverse] at hverdict
  exact hverdict

theorem sourceSetDraft_sorted : SourcesSorted input (sourceSetDraft input) := by
  have hreads := selectSources_reads input.max input.requireDiverse input.sources
  have hselected : (sourceSetDraft input).selectedSources =
      (Triage.kept (trail input.max input.requireDiverse input.sources)).map summaryOf :=
    hreads.selected
  refine {
    reasons := ?_, selected := ?_, rejected := ?_, most := ?_, diverse := ?_
    admitted := ?_, refused := ?_, welcomed := ?_, warned := ?_ }
  · show (selectSources input.max input.requireDiverse input.sources).selectionReasons.map _ = _
    rw [hreads.reasons, List.map_map]
    have hids : ((·.sourceId) : SourceSelectionReason → String) ∘
        reasonOf input.max input.requireDiverse = (·.sourceId) ∘ (·.1) := by
      funext entry
      exact reasonOf_sourceId entry
    rw [hids, ← List.map_map, Triage.run_map_fst]
  · rw [placed_draft, chosen_placesOf]
    exact hselected
  · rw [placed_draft, turnedAway_placesOf]
    exact hreads.rejected
  · rw [hselected, List.length_map]
    exact kept_length_le _
  · intro hdiverse
    rw [hselected, List.map_map]
    exact kept_domains_nodup hdiverse _
  · intro front source reason back h
    obtain ⟨verdict, rfl, hverdict⟩ := place_of_draft input h
    rw [reasonOf_selected, Option.isNone_iff_eq_none, ← rejectionOf_none_iff, hverdict]
  · intro front source reason back h hrejected
    obtain ⟨verdict, rfl, hverdict⟩ := place_of_draft input h
    rw [reasonOf_selected] at hrejected
    cases verdict with
    | none => cases hrejected
    | some kind =>
        rw [reasonOf_reason]
        exact rejectionOf_some hverdict.symm
  · intro place hplace hchosen
    obtain ⟨source, reason⟩ := place
    obtain ⟨front, back, h⟩ := List.append_of_mem hplace
    obtain ⟨verdict, rfl, -⟩ := place_of_draft input h
    rw [reasonOf_selected, Option.isNone_iff_eq_none] at hchosen
    subst hchosen
    show (if _ then _ else if _ then _ else _) ∈ _
    split
    · simp
    · split <;> simp
  · show _ ∈ (if _ then _ else _) ↔ (selectSources _ _ _).selected.length < _
    split <;> simp_all

/-- **Every source of an input is sorted.**  The set is made for every input, and is returned
wherever the store takes its artifact. -/
theorem createSourceSet_sorted : ∃ output, SourcesSorted input output ∧
    ∀ store, createSourceSet input store =
      (writeArtifact store (sourceSetArtifact input output)).map fun _ => output := by
  refine ⟨sourceSetDraft input, sourceSetDraft_sorted input, ?_⟩
  intro store
  unfold createSourceSet
  rw [sourceSetDraft_parse]
  show (writeArtifact store _ >>= fun _ => Except.ok _) = _
  cases writeArtifact store (sourceSetArtifact input (sourceSetDraft input)) <;> rfl

end Set

end OpenLagrange.Research
