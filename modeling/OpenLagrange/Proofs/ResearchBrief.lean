/-
What a brief cites.

The coverage of a brief is judged as a whole: it is empty or it is not.  The findings and the
viewpoints are printed one by one, each with the labels of the sources it names that were
supplied.  So a brief that passes may print a finding with no source at all, as soon as another
one names one; and where none does, the coverage lists sources nobody cites.  These are the two
ways, and the theorem says that there is no third.
-/
import OpenLagrange.Research.ResearchBrief

namespace OpenLagrange.Research

/-! ### Recorded uses -/

/-- The uses recorded are those of a relation. -/
structure Records (used : Uses) (uses : String → String → Prop) : Prop where
  nodup : ∀ sourceId, (used.of sourceId).Nodup
  exact : ∀ sourceId use, use ∈ used.of sourceId ↔ uses use sourceId
  nonempty : ∀ row ∈ used.rows, row.2 ≠ []

theorem mem_addUse {uses : List String} {use use' : String} :
    use' ∈ addUse uses use ↔ use' ∈ uses ∨ use' = use := by
  unfold addUse
  split
  · rename_i hmem
    refine ⟨Or.inl, ?_⟩
    rintro (h | rfl)
    · exact h
    · exact hmem
  · simp

theorem addUse_nodup {uses : List String} (h : uses.Nodup) (use : String) :
    (addUse uses use).Nodup := by
  unfold addUse
  split
  · exact h
  · rename_i hnew
    rw [← List.concat_eq_append, List.nodup_concat]
    exact ⟨hnew, h⟩

theorem of_add (used : Uses) (use sourceId sourceId' : String) :
    (used.add use sourceId).of sourceId' =
      if sourceId' = sourceId then addUse (used.of sourceId) use else used.of sourceId' := by
  unfold Uses.add
  rw [Uses.of, Table.Keyed.get_upsert]
  split
  · rename_i heq
    subst heq
    rw [Function.update_self]
    rfl
  · rename_i hne
    rw [Function.update_of_ne hne]
    rfl

theorem Records.empty : Records Table.Keyed.empty fun _ _ => False where
  nodup := fun _ => List.nodup_nil
  exact := fun _ _ => ⟨fun h => (List.not_mem_nil h).elim, False.elim⟩
  nonempty := fun _ h => (List.not_mem_nil h).elim

theorem Records.add {used : Uses} {uses : String → String → Prop} (h : Records used uses)
    (use sourceId : String) :
    Records (used.add use sourceId) fun use' sourceId' =>
      uses use' sourceId' ∨ use' = use ∧ sourceId' = sourceId where
  nodup := by
    intro sourceId'
    rw [of_add]
    split
    · exact addUse_nodup (h.nodup _) _
    · exact h.nodup _
  exact := by
    intro sourceId' use'
    rw [of_add]
    split
    · rename_i heq
      subst heq
      rw [mem_addUse, h.exact]
      simp
    · rename_i hne
      rw [h.exact]
      simp [hne]
  nonempty := by
    intro row hrow
    rcases Table.mem_upsert hrow with rfl | ⟨hold, -⟩
    · intro hnil
      have hmem : use ∈ addUse (used.of sourceId) use := mem_addUse.mpr (Or.inr rfl)
      rw [show addUse (used.of sourceId) use = [] from hnil] at hmem
      cases hmem
    · exact h.nonempty row hold

theorem Records.addAll {used : Uses} {uses : String → String → Prop} (h : Records used uses)
    (use : String) (sourceIds : List String) :
    Records (sourceIds.foldl (·.add use ·) used) fun use' sourceId =>
      uses use' sourceId ∨ use' = use ∧ sourceId ∈ sourceIds := by
  induction sourceIds generalizing used uses with
  | nil => simpa using h
  | cons sourceId sourceIds ih =>
      have hrest := ih (h.add use sourceId)
      simp only [or_assoc, ← and_or_left] at hrest
      simpa only [List.mem_cons, List.foldl_cons] using hrest

/-! ### The coverage -/

section Coverage

variable {P : ResearchPlatform} (input : CreateBriefInput P) (synthesis : ModelResearchBrief)

/-- A source of this id was supplied. -/
def CreateBriefInput.Supplied (sourceId : String) : Prop :=
  ∃ source ∈ input.sources, source.sourceId = sourceId

/-- The synthesis cites a source id for a use. -/
def ModelResearchBrief.Cites (use sourceId : String) : Prop :=
  (use = "finding" ∧ ∃ finding ∈ synthesis.keyFindings, sourceId ∈ finding.sourceIds) ∨
  (use = "viewpoint" ∧ ∃ viewpoint ∈ synthesis.viewpoints, sourceId ∈ viewpoint.sourceIds)

/-- The source ids of the findings and of the viewpoints, one list for each. -/
def ModelResearchBrief.claimIds : List (List String) :=
  synthesis.keyFindings.map (·.sourceIds) ++ synthesis.viewpoints.map (·.sourceIds)

/-- A coverage lists the supplied sources the synthesis cites, and what it cites them for. -/
structure CoverageExact (coverage : List SourceCoverage) : Prop where
  distinct : (coverage.map (·.sourceId)).Nodup
  listed : ∀ sourceId, sourceId ∈ coverage.map (·.sourceId) ↔
    input.Supplied sourceId ∧ ∃ use, synthesis.Cites use sourceId
  uses : ∀ entry ∈ coverage, entry.usedFor.Nodup ∧
    ∀ use, use ∈ entry.usedFor ↔ synthesis.Cites use entry.sourceId
  citation : ∀ entry ∈ coverage, ∃ source ∈ input.sources,
    source.sourceId = entry.sourceId ∧ entry.citationId = source.citation.citationId

theorem citationOf_isSome_iff (sourceId : String) :
    (input.citationOf sourceId).isSome = true ↔ input.Supplied sourceId := by
  unfold CreateBriefInput.citationOf CreateBriefInput.Supplied
  simp [List.find?_isSome]

theorem citationOf_mem {sourceId : String} {citation : Citation}
    (h : input.citationOf sourceId = some citation) :
    ∃ source ∈ input.sources, source.sourceId = sourceId ∧ source.citation = citation := by
  unfold CreateBriefInput.citationOf at h
  obtain ⟨source, hfind, hcitation⟩ := Option.map_eq_some_iff.mp h
  have hid := List.find?_some hfind
  exact ⟨source, List.mem_reverse.mp (List.mem_of_find?_eq_some hfind), of_decide_eq_true hid,
    hcitation⟩

theorem Records.addCoverage {used : Uses} {uses : String → String → Prop} (h : Records used uses)
    (use : String) (sourceIds : List String) :
    Records (addCoverage input used sourceIds use) fun use' sourceId =>
      uses use' sourceId ∨ use' = use ∧ sourceId ∈ sourceIds ∧ input.Supplied sourceId := by
  have hall := h.addAll use
    (sourceIds.filter fun sourceId => (input.citationOf sourceId).isSome)
  simp only [List.mem_filter, citationOf_isSome_iff] at hall
  exact hall

theorem Records.addEach {α : Type} {used : Uses} {uses : String → String → Prop}
    (h : Records used uses) (use : String) (ids : α → List String) (claims : List α) :
    Records (claims.foldl (fun used claim => Research.addCoverage input used (ids claim) use) used)
      fun use' sourceId => uses use' sourceId ∨
        use' = use ∧ (∃ claim ∈ claims, sourceId ∈ ids claim) ∧ input.Supplied sourceId := by
  induction claims generalizing used uses with
  | nil => simpa using h
  | cons claim claims ih =>
      have hrest := ih (h.addCoverage input use (ids claim))
      simp only [or_assoc, ← and_or_left, ← or_and_right] at hrest
      simpa only [List.mem_cons, exists_eq_or_imp, List.foldl_cons] using hrest

/-- **What is recorded is what is cited, of the supplied sources.** -/
theorem sourceUses_records : Records (sourceUses input synthesis) fun use sourceId =>
    input.Supplied sourceId ∧ synthesis.Cites use sourceId := by
  have h := (Records.empty.addEach input "finding" (·.sourceIds) synthesis.keyFindings).addEach
    input "viewpoint" (·.sourceIds) synthesis.viewpoints
  have hrelation : (fun use sourceId => (False ∨ use = "finding" ∧
      (∃ finding ∈ synthesis.keyFindings, sourceId ∈ finding.sourceIds) ∧ input.Supplied sourceId) ∨
      use = "viewpoint" ∧ (∃ viewpoint ∈ synthesis.viewpoints, sourceId ∈ viewpoint.sourceIds) ∧
        input.Supplied sourceId) =
      fun use sourceId => input.Supplied sourceId ∧ synthesis.Cites use sourceId := by
    funext use sourceId
    unfold ModelResearchBrief.Cites
    refine propext ⟨?_, ?_⟩
    · rintro ((h | ⟨huse, hcited, hsupplied⟩) | ⟨huse, hcited, hsupplied⟩)
      · exact h.elim
      · exact ⟨hsupplied, Or.inl ⟨huse, hcited⟩⟩
      · exact ⟨hsupplied, Or.inr ⟨huse, hcited⟩⟩
    · rintro ⟨hsupplied, ⟨huse, hcited⟩ | ⟨huse, hcited⟩⟩
      · exact Or.inl (Or.inr ⟨huse, hcited, hsupplied⟩)
      · exact Or.inr ⟨huse, hcited, hsupplied⟩
  exact hrelation ▸ h

theorem of_row {used : Uses} {row : String × List String} (h : row ∈ used.rows) :
    used.of row.1 = row.2 := by
  unfold Uses.of
  rw [Table.Keyed.get_of_mem h]
  rfl

theorem mem_rows_iff {used : Uses} {uses : String → String → Prop} (h : Records used uses)
    (sourceId : String) : sourceId ∈ used.rows.map (·.1) ↔ ∃ use, uses use sourceId := by
  constructor
  · intro hmem
    obtain ⟨row, hrow, rfl⟩ := List.mem_map.mp hmem
    obtain ⟨use, huse⟩ := List.exists_mem_of_ne_nil _ (h.nonempty row hrow)
    rw [← of_row hrow] at huse
    exact ⟨use, (h.exact _ _).mp huse⟩
  · rintro ⟨use, huse⟩
    have hmem := (h.exact sourceId use).mpr huse
    unfold Uses.of at hmem
    cases hget : used.get sourceId with
    | none =>
        rw [hget] at hmem
        cases hmem
    | some row =>
        obtain ⟨hrow, hkey⟩ := Table.mem_of_get hget
        exact List.mem_map.mpr ⟨row, hrow, hkey⟩

theorem sourceCoverage_exact : CoverageExact input synthesis (sourceCoverage input synthesis) := by
  have h := sourceUses_records input synthesis
  have hids : (sourceCoverage input synthesis).map (·.sourceId) =
      (sourceUses input synthesis).rows.map (·.1) := by
    unfold sourceCoverage
    rw [List.map_map]
    rfl
  have hlisted : ∀ sourceId, sourceId ∈ (sourceUses input synthesis).rows.map (·.1) ↔
      input.Supplied sourceId ∧ ∃ use, synthesis.Cites use sourceId := by
    intro sourceId
    rw [mem_rows_iff h, exists_and_left]
  refine ⟨?_, ?_, ?_, ?_⟩
  · rw [hids]
    exact (sourceUses input synthesis).nodup
  · intro sourceId
    rw [hids]
    exact hlisted sourceId
  · intro entry hentry
    obtain ⟨row, hrow, rfl⟩ := List.mem_map.mp hentry
    have hsupplied := ((hlisted row.1).mp (List.mem_map_of_mem hrow)).1
    refine ⟨of_row hrow ▸ h.nodup row.1, ?_⟩
    intro use
    rw [← of_row hrow, h.exact]
    exact and_iff_right hsupplied
  · intro entry hentry
    obtain ⟨row, hrow, rfl⟩ := List.mem_map.mp hentry
    have hsupplied := ((hlisted row.1).mp (List.mem_map_of_mem hrow)).1
    obtain ⟨citation, hcitation⟩ := Option.isSome_iff_exists.mp
      ((citationOf_isSome_iff input row.1).mpr hsupplied)
    obtain ⟨source, hsource, hid, rfl⟩ := citationOf_mem input hcitation
    refine ⟨source, hsource, hid, ?_⟩
    show ((input.citationOf row.1).map (·.citationId)).getD row.1 = _
    rw [hcitation]
    rfl

/-- Some finding or viewpoint names a supplied source. -/
def ModelResearchBrief.CitesSupplied : Prop :=
  ∃ sourceIds ∈ synthesis.claimIds, ∃ source ∈ input.sources, source.sourceId ∈ sourceIds

theorem claimIds_iff (sourceId : String) :
    (∃ sourceIds ∈ synthesis.claimIds, sourceId ∈ sourceIds) ↔
      ∃ use, synthesis.Cites use sourceId := by
  unfold ModelResearchBrief.claimIds ModelResearchBrief.Cites
  simp [or_and_right, exists_or]

theorem sourceCoverage_ne_nil_iff :
    sourceCoverage input synthesis ≠ [] ↔ synthesis.CitesSupplied input := by
  have hlisted := (sourceCoverage_exact input synthesis).listed
  constructor
  · intro hne
    obtain ⟨entry, hentry⟩ := List.exists_mem_of_ne_nil _ hne
    obtain ⟨⟨source, hsource, hid⟩, hcited⟩ :=
      (hlisted entry.sourceId).mp (List.mem_map_of_mem hentry)
    obtain ⟨sourceIds, hclaim, hmem⟩ := (claimIds_iff synthesis _).mpr hcited
    exact ⟨sourceIds, hclaim, source, hsource, hid ▸ hmem⟩
  · rintro ⟨sourceIds, hclaim, source, hsource, hmem⟩ hnil
    have hcited := (claimIds_iff synthesis source.sourceId).mp ⟨sourceIds, hclaim, hmem⟩
    have h := (hlisted source.sourceId).mpr ⟨⟨source, hsource, rfl⟩, hcited⟩
    rw [hnil] at h
    cases h

end Coverage

/-! ### The labels -/

section Labels

variable {P : ResearchPlatform} (input : CreateBriefInput P)

theorem citationLabel_nonempty (citation : Citation) : nonempty (citationLabel citation) = true := by
  unfold nonempty citationLabel
  rw [decide_eq_true_iff]
  intro h
  have hchars := congrArg String.toList h
  simp at hchars

theorem labelOf_iff (sourceId : String) :
    (∃ label, input.labelOf sourceId = some label) ↔
      ∃ source ∈ input.sources, source.citation.sourceId = sourceId := by
  unfold CreateBriefInput.labelOf
  rw [← Option.isSome_iff_exists]
  simp [List.find?_isSome]

theorem labelOf_mem {sourceId label : String} (h : input.labelOf sourceId = some label) :
    ∃ source ∈ input.sources, source.citation.sourceId = sourceId ∧
      label = citationLabel source.citation := by
  unfold CreateBriefInput.labelOf at h
  obtain ⟨citation, hfind, hlabel⟩ := Option.map_eq_some_iff.mp h
  have hid := List.find?_some hfind
  obtain ⟨source, hsource, rfl⟩ := List.mem_map.mp
    (List.mem_reverse.mp (List.mem_of_find?_eq_some hfind))
  exact ⟨source, hsource, of_decide_eq_true hid, hlabel.symm⟩

/-- A line is printed with the labels of supplied sources it names. -/
theorem citedLabels_supplied {sourceIds : List String} {label : String}
    (h : label ∈ citedLabels input sourceIds) :
    ∃ source ∈ input.sources, source.citation.sourceId ∈ sourceIds ∧
      label = citationLabel source.citation := by
  obtain ⟨sourceId, hmem, hlabel⟩ := List.mem_filterMap.mp (List.mem_filter.mp h).1
  obtain ⟨source, hsource, rfl, heq⟩ := labelOf_mem input hlabel
  exact ⟨source, hsource, hmem, heq⟩

theorem citedLabels_ne_nil_iff (sourceIds : List String) :
    citedLabels input sourceIds ≠ [] ↔
      ∃ source ∈ input.sources, source.citation.sourceId ∈ sourceIds := by
  constructor
  · intro hne
    obtain ⟨label, hlabel⟩ := List.exists_mem_of_ne_nil _ hne
    obtain ⟨source, hsource, hmem, -⟩ := citedLabels_supplied input hlabel
    exact ⟨source, hsource, hmem⟩
  · rintro ⟨source, hsource, hmem⟩
    obtain ⟨label, hlabel⟩ := (labelOf_iff input _).mpr ⟨source, hsource, rfl⟩
    obtain ⟨other, -, -, hother⟩ := labelOf_mem input hlabel
    have hnonempty : nonempty label = true := hother ▸ citationLabel_nonempty _
    exact List.ne_nil_of_mem
      (List.mem_filter.mpr ⟨List.mem_filterMap.mpr ⟨_, hmem, hlabel⟩, hnonempty⟩)

end Labels

/-! ### The brief -/

section Brief

variable {P : ResearchPlatform} (input : CreateBriefInput P) (synthesis : ModelResearchBrief)

/-- Every line of a brief that passes cites a source, no line cites another than a supplied one,
and the coverage is exact. -/
structure BriefSound (output : CreateBriefOutput) (artifact : ArtifactWrite String) : Prop where
  cited : artifact.validationStatus = .pass →
    ∀ sourceIds ∈ synthesis.claimIds, citedLabels input sourceIds ≠ []
  supplied : ∀ sourceIds ∈ synthesis.claimIds, ∀ label ∈ citedLabels input sourceIds,
    ∃ source ∈ input.sources, source.citation.sourceId ∈ sourceIds ∧
      label = citationLabel source.citation
  coverage : CoverageExact input synthesis output.sourceCoverage

/-- Every finding and viewpoint names the source of a supplied citation. -/
def ModelResearchBrief.EachCited : Prop :=
  ∀ sourceIds ∈ synthesis.claimIds, ∃ source ∈ input.sources, source.citation.sourceId ∈ sourceIds

theorem renderModelBrief_nonempty : nonempty (renderModelBrief input synthesis) = true := by
  have hfirst : ∀ text : String, nonempty ("# " ++ text) = true := by
    intro text
    unfold nonempty
    rw [decide_eq_true_iff]
    intro h
    have hchars := congrArg String.toList h
    simp at hchars
  have hjoin : ∀ (line : String) (rest : List String), nonempty line = true →
      nonempty ("\n".intercalate (line :: rest)) = true := by
    intro line rest hline
    cases rest with
    | nil => rwa [String.intercalate_singleton]
    | cons next rest =>
        rw [String.intercalate_cons_cons]
        unfold nonempty at hline ⊢
        simp only [decide_eq_true_iff] at hline ⊢
        intro h
        have hchars := congrArg String.toList h
        simp only [String.toList_append, String.toList_empty, List.append_eq_nil_iff] at hchars
        exact hline (String.toList_inj.mp hchars.1.1)
  unfold renderModelBrief briefLines
  simp only [List.cons_append]
  rw [List.filter_cons_of_pos (hfirst _)]
  exact hjoin _ _ (hfirst _)

variable (warnings : List String)

theorem briefDraft_parse : CreateBriefOutput.parse P (briefDraft input synthesis warnings) =
    .ok (briefDraft input synthesis warnings) := by
  have haccepted : ∀ source ∈ input.sources, source.accepted P = true :=
    List.all_eq_true.mp input.sources_accepted
  have hcitations : (input.sources.map (·.citation)).all (fun citation =>
      nonempty citation.citationId && nonempty citation.sourceId && nonempty citation.title &&
        P.isUrl citation.url) = true := by
    rw [List.all_map, List.all_eq_true]
    intro source hsource
    have h := haccepted source hsource
    unfold ExtractedSource.accepted at h
    simp only [Bool.and_eq_true] at h
    simp [h]
  have hne : input.sources.map (·.citation) ≠ [] := by simpa using input.sources_nonempty
  unfold CreateBriefOutput.parse
  rw [if_pos]
  show (nonempty (renderModelBrief input synthesis) && decide (input.sources.map (·.citation) ≠ []) &&
    (input.sources.map (·.citation)).all _) = true
  rw [renderModelBrief_nonempty, decide_eq_true hne]
  exact hcitations

/-- A brief passes when it has coverage and came without a warning. -/
theorem brief_pass_iff :
    (briefArtifact input (briefDraft input synthesis warnings)).validationStatus = .pass ↔
      warnings = [] ∧ sourceCoverage input synthesis ≠ [] := by
  unfold briefArtifact briefDraft
  by_cases h : sourceCoverage input synthesis = []
  · simp [h]
  · simp [h]

theorem brief_coverage_exact_iff :
    CoverageExact input synthesis (briefDraft input synthesis warnings).sourceCoverage ↔
      synthesis.CitesSupplied input := by
  rw [← sourceCoverage_ne_nil_iff]
  constructor
  · intro h hnil
    -- the first source is listed, and so it would be cited
    obtain ⟨source, hsource⟩ := List.exists_mem_of_ne_nil _ input.sources_nonempty
    have hlisted : source.sourceId ∈
        (briefDraft input synthesis warnings).sourceCoverage.map (·.sourceId) := by
      have hcoverage : (briefDraft input synthesis warnings).sourceCoverage =
          input.sources.map fun source =>
            ⟨source.sourceId, source.citation.citationId, ["context"]⟩ := if_neg (not_not.mpr hnil)
      rw [hcoverage, List.map_map]
      exact List.mem_map_of_mem hsource
    have hcited := (h.listed source.sourceId).mp hlisted
    have hcovered := ((sourceCoverage_exact input synthesis).listed source.sourceId).mpr hcited
    rw [hnil] at hcovered
    cases hcovered
  · intro hne
    have hcoverage : (briefDraft input synthesis warnings).sourceCoverage =
        sourceCoverage input synthesis := if_pos hne
    rw [hcoverage]
    exact sourceCoverage_exact input synthesis

theorem briefDraft_sound_iff :
    BriefSound input synthesis (briefDraft input synthesis warnings)
        (briefArtifact input (briefDraft input synthesis warnings)) ↔
      synthesis.CitesSupplied input ∧ (warnings = [] → synthesis.EachCited input) := by
  constructor
  · intro h
    have hcites := (brief_coverage_exact_iff input synthesis warnings).mp h.coverage
    refine ⟨hcites, ?_⟩
    intro hwarnings sourceIds hclaim
    have hpass := (brief_pass_iff input synthesis warnings).mpr
      ⟨hwarnings, (sourceCoverage_ne_nil_iff input synthesis).mpr hcites⟩
    exact (citedLabels_ne_nil_iff input sourceIds).mp (h.cited hpass sourceIds hclaim)
  · rintro ⟨hcites, heach⟩
    refine ⟨?_, ?_, (brief_coverage_exact_iff input synthesis warnings).mpr hcites⟩
    · intro hpass sourceIds hclaim
      have hwarnings := ((brief_pass_iff input synthesis warnings).mp hpass).1
      exact (citedLabels_ne_nil_iff input sourceIds).mpr (heach hwarnings sourceIds hclaim)
    · intro sourceIds _ label hlabel
      exact citedLabels_supplied input hlabel

end Brief

/-! ### A finding without a source -/

def plainResearchPlatform : ResearchPlatform where
  sha256 := fun _ => "0123456789abcdef"
  isUrl := fun _ => true

def citedSource : ExtractedSource where
  sourceId := "source_a"
  title := some "A"
  url := "https://a.example/"
  domain := "a.example"
  excerpt := "A says so."
  citation := ⟨"cite_a", "source_a", "A", "https://a.example/", none⟩
  artifactId := "artifact_a"

def oneSourceInput : CreateBriefInput plainResearchPlatform where
  topic := "topic"
  sources := [citedSource]
  briefStyle := .standard
  includeRecommendations := false
  topic_nonempty := by decide
  sources_nonempty := by decide
  sources_accepted := by decide

/-- The second finding rests on a source nobody supplied. -/
def halfCited : ModelResearchBrief where
  title := "Topic"
  overview := "Overview."
  keyFindings := [⟨"A says so.", ["source_a"], .high⟩, ⟨"B says so.", ["source_b"], .high⟩]
  viewpoints := []
  uncertainties := []
  recommendations := []

end OpenLagrange.Research
