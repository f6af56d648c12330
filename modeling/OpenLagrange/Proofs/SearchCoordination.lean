/-
What a search comes to.

The calls of a run are read against the product of the chosen providers and the queries: they are
some of its pairs, in order.  What the loops collect is a function of the calls that were made, so
everything about the result set can be said of what the providers returned: each candidate is
judged on those before it, and kept if it is admitted and its URL is new.
-/
import OpenLagrange.Lib.Triage
import OpenLagrange.Proofs.SearchUrls
import OpenLagrange.Search.SearchCoordinator

namespace OpenLagrange.Search

open Research (ArtifactStore writeArtifact)

variable {P : SearchPlatform} {C : SearchCoordinator P} {plan : SearchPlan} {urls : List String}

/-! ### Choosing -/

theorem lastById_ids (kept : List SearchProvider) (provider : SearchProvider) :
    (kept.map fun other =>
        if other.providerId = provider.providerId then provider else other).map (·.providerId) =
      kept.map (·.providerId) := by
  rw [List.map_map]
  refine List.map_congr_left fun other _ => ?_
  show (if other.providerId = provider.providerId then provider else other).providerId = _
  split
  · rename_i h
    exact h.symm
  · rfl

/-- A map has each of its keys once. -/
theorem nodup_lastById (providers : List SearchProvider) :
    ((lastById providers).map (·.providerId)).Nodup := by
  unfold lastById
  induction providers using List.reverseRecOn with
  | nil => exact List.nodup_nil
  | append_singleton providers provider ih =>
      rw [List.foldl_append, List.foldl_cons, List.foldl_nil]
      split
      · rw [lastById_ids]
        exact ih
      · rename_i hnew
        rw [List.map_append, List.map_singleton, ← List.concat_eq_append, List.nodup_concat]
        refine ⟨?_, ih⟩
        intro hmem
        obtain ⟨other, hother, hid⟩ := List.mem_map.mp hmem
        exact hnew (List.any_eq_true.mpr ⟨other, hother, decide_eq_true hid⟩)

/-- **No provider is chosen twice**: the chosen ones are some of the registry's, in its order, or
they have different ids. -/
theorem chooseProviders_once (C : SearchCoordinator P) (plan : SearchPlan) (urls : List String) :
    (chooseProviders C plan urls).Sublist C.registry ∨
      ((chooseProviders C plan urls).map (·.providerId)).Nodup := by
  unfold chooseProviders
  split
  · cases hfind : C.registry.find? (·.providerId = "manual-urls") with
    | none => exact Or.inl (List.nil_sublist _)
    | some provider =>
        exact Or.inl (List.singleton_sublist.mpr (List.mem_of_find?_eq_some hfind))
  · simp only
    split
    · exact Or.inl (List.filter_sublist.trans List.filter_sublist)
    · exact Or.inr (nodup_lastById _)

/-! ### What was returned -/

/-- What a call is answered with, when it succeeds. -/
def answered (plan : SearchPlan) (urls : List String) (before : Nat) (provider : SearchProvider)
    (query : String) : List SourceCandidate :=
  match provider.search before (searchInput plan urls query) with
  | .ok output => output.candidates
  | .error _ => []

/-- The candidates of all calls, in order. -/
def returnedBy (plan : SearchPlan) (urls : List String) (made : List (SearchProvider × String)) :
    List SourceCandidate :=
  made.zipIdx.flatMap fun call => answered plan urls call.2 call.1.1 call.1.2

theorem returnedBy_concat (made : List (SearchProvider × String)) (provider : SearchProvider)
    (query : String) :
    returnedBy plan urls (made ++ [(provider, query)]) =
      returnedBy plan urls made ++ answered plan urls made.length provider query := by
  unfold returnedBy
  rw [List.zipIdx_append, List.flatMap_append]
  simp

theorem mem_returnedBy {made : List (SearchProvider × String)} {candidate : SourceCandidate} :
    candidate ∈ returnedBy plan urls made →
      ∃ k, ∃ provider : SearchProvider, ∃ query, ∃ output : SearchOutput,
      made[k]? = some (provider, query) ∧
      provider.search k (searchInput plan urls query) = .ok output ∧
      candidate ∈ output.candidates := by
  intro h
  obtain ⟨⟨⟨provider, query⟩, k⟩, hcall, hmem⟩ := List.mem_flatMap.mp h
  have hk := List.mk_mem_zipIdx_iff_getElem?.mp hcall
  have hmem : candidate ∈ answered plan urls k provider query := hmem
  unfold answered at hmem
  cases hsearch : provider.search k (searchInput plan urls query) with
  | error thrown =>
      rw [hsearch] at hmem
      cases hmem
  | ok output =>
      rw [hsearch] at hmem
      exact ⟨k, provider, query, output, hk, hsearch, hmem⟩

/-! ### The loops -/

/-- What holds of the state in the loops. -/
structure Collects (plan : SearchPlan) (urls : List String) (state : SearchState) : Prop where
  counted : state.providerCalls = state.made.length
  within : state.providerCalls ≤ plan.limits.maxProviderCalls
  candidates : state.candidates = returnedBy plan urls state.made
  reported : (state.calls.map (·.resultCount)).sum = state.candidates.length

variable (plan urls) in
theorem Collects.empty : Collects plan urls SearchState.empty := ⟨rfl, Nat.zero_le _, rfl, rfl⟩

theorem Collects.skip {state : SearchState} (h : Collects plan urls state)
    (provider : SearchProvider) : Collects plan urls (state.skip plan provider) where
  counted := h.counted
  within := h.within
  candidates := h.candidates
  reported := by
    show ((state.calls ++ [_]).map SearchProviderCall.resultCount).sum = _
    rw [List.map_append, List.sum_append, h.reported]
    rfl

theorem Collects.asked {state : SearchState} (h : Collects plan urls state)
    (provider : SearchProvider) (query : String)
    (hless : state.providerCalls < plan.limits.maxProviderCalls) :
    Collects plan urls (state.asked plan urls provider query) ∧
      (state.asked plan urls provider query).made = state.made ++ [(provider, query)] := by
  have hreturned : returnedBy plan urls (state.made ++ [(provider, query)]) =
      state.candidates ++ answered plan urls state.providerCalls provider query := by
    rw [returnedBy_concat, ← h.candidates, h.counted]
  have hcounted : state.providerCalls + 1 = (state.made ++ [(provider, query)]).length := by
    rw [List.length_append, h.counted]
    rfl
  unfold SearchState.asked
  cases hsearch : provider.search state.providerCalls (searchInput plan urls query) with
  | ok output =>
      have hanswered : answered plan urls state.providerCalls provider query =
          output.candidates := by
        unfold answered
        rw [hsearch]
      refine ⟨⟨hcounted, hless, ?_, ?_⟩, rfl⟩
      · rw [hreturned, hanswered]
      · simp [h.reported]
  | error thrown =>
      have hanswered : answered plan urls state.providerCalls provider query = [] := by
        unfold answered
        rw [hsearch]
      refine ⟨⟨hcounted, hless, ?_, ?_⟩, rfl⟩
      · rw [hreturned, hanswered, List.append_nil]
      · simp [h.reported]

/-- The loop over the queries asks some of them, in order. -/
theorem queryLoop_collects (provider : SearchProvider) (queries : List String)
    {state : SearchState} (h : Collects plan urls state) :
    Collects plan urls (queryLoop plan urls P provider queries state) ∧
      ∃ asked : List String, asked.Sublist queries ∧
        (queryLoop plan urls P provider queries state).made =
          state.made ++ asked.map fun query => (provider, query) := by
  induction queries generalizing state with
  | nil => exact ⟨h, [], List.Sublist.slnil, (List.append_nil _).symm⟩
  | cons query rest ih =>
      unfold queryLoop
      split
      · exact ⟨h, [], List.nil_sublist _, (List.append_nil _).symm⟩
      · rename_i hless
        have hread : Collects plan urls { state with readings := state.readings + 1 } :=
          ⟨h.counted, h.within, h.candidates, h.reported⟩
        simp only
        split
        · exact ⟨hread, [], List.nil_sublist _, (List.append_nil _).symm⟩
        · obtain ⟨hnext, hmade⟩ := hread.asked provider query (Nat.not_le.mp hless)
          split
          · exact ⟨hnext, [query], List.singleton_sublist.mpr List.mem_cons_self, hmade⟩
          · obtain ⟨hrest, asked, hasked, hmore⟩ := ih hnext
            refine ⟨hrest, query :: asked, hasked.cons_cons query, ?_⟩
            rw [hmore, hmade]
            simp

/-- The loop over the providers asks some pairs of the product, in order. -/
theorem providerLoop_collects (providers : List SearchProvider) {state : SearchState}
    (h : Collects plan urls state) :
    Collects plan urls (providerLoop plan urls P providers state).1 ∧
      ∃ asked : List (SearchProvider × String), asked.Sublist (providers ×ˢ plan.queries) ∧
        (providerLoop plan urls P providers state).1.made = state.made ++ asked := by
  induction providers generalizing state with
  | nil => exact ⟨h, [], List.nil_sublist _, (List.append_nil _).symm⟩
  | cons provider rest ih =>
      have hproduct : (provider :: rest) ×ˢ plan.queries =
          plan.queries.map (fun query => (provider, query)) ++ rest ×ˢ plan.queries :=
        List.product_cons _ _ _
      unfold providerLoop
      split
      · exact ⟨h, [], List.nil_sublist _, (List.append_nil _).symm⟩
      · cases provider.isConfigured with
        | error thrown => exact ⟨h, [], List.nil_sublist _, (List.append_nil _).symm⟩
        | ok configured =>
            cases configured with
            | false =>
                obtain ⟨hrest, asked, hasked, hmade⟩ := ih (h.skip provider)
                refine ⟨hrest, asked, ?_, hmade⟩
                rw [hproduct]
                exact hasked.trans (List.sublist_append_right _ _)
            | true =>
                obtain ⟨hnext, queried, hqueried, hmade⟩ :=
                  queryLoop_collects (P := P) provider plan.queries h
                simp only
                split
                · refine ⟨hnext, _, ?_, hmade⟩
                  rw [hproduct]
                  exact (hqueried.map _).trans (List.sublist_append_left _ _)
                · obtain ⟨hrest, asked, hasked, hmore⟩ := ih hnext
                  refine ⟨hrest, _, ?_, by rw [hmore, hmade, List.append_assoc]⟩
                  rw [hproduct]
                  exact (hqueried.map _).append hasked

/-! ### The candidates -/

/-- What a plan asks of the domain of a candidate. -/
structure Admitted (P : SearchPlatform) (plan : SearchPlan) (candidate : SourceCandidate) :
    Prop where
  undenied : ∀ domain ∈ plan.domainsDenylist,
    P.toLowerCase candidate.domain ≠ P.toLowerCase domain
  allowed : plan.domainsAllowlist ≠ [] → ∃ domain ∈ plan.domainsAllowlist,
    P.toLowerCase candidate.domain = P.toLowerCase domain

theorem admits_iff {candidate : SourceCandidate} :
    admits plan P candidate = true ↔ Admitted P plan candidate := by
  unfold admits
  simp only [Bool.and_eq_true, Bool.or_eq_true, Bool.not_eq_true', List.contains_eq_mem,
    decide_eq_true_eq, decide_eq_false_iff_not, List.isEmpty_iff, List.map_eq_nil_iff,
    List.mem_map, not_exists, not_and]
  constructor
  · rintro ⟨hdenied, hallowed⟩
    refine ⟨fun domain hdomain heq => hdenied domain hdomain heq.symm, fun hne => ?_⟩
    obtain ⟨domain, hdomain, heq⟩ := hallowed.resolve_left hne
    exact ⟨domain, hdomain, heq.symm⟩
  · rintro ⟨hdenied, hallowed⟩
    refine ⟨fun domain hdomain heq => hdenied domain hdomain heq.symm, ?_⟩
    by_cases hempty : plan.domainsAllowlist = []
    · exact Or.inl hempty
    · obtain ⟨domain, hdomain, heq⟩ := hallowed hempty
      exact Or.inr ⟨domain, hdomain, heq.symm⟩

/-- Two texts that are URLs, and the same one. -/
def SameAddress (P : SearchPlatform) (a b : String) : Prop :=
  ∃ u v, P.parseUrl a = some u ∧ P.parseUrl b = some v ∧ SameUrl u v

theorem normalizedUrl_eq_iff {a b : String} (ha : normalizedUrl P a ≠ none) :
    normalizedUrl P a = normalizedUrl P b ↔ SameAddress P a b := by
  unfold normalizedUrl at ha ⊢
  unfold SameAddress
  cases hu : P.parseUrl a with
  | none =>
      rw [hu] at ha
      exact (ha rfl).elim
  | some u =>
      cases hv : P.parseUrl b with
      | none =>
          refine iff_of_false (fun h => by cases h) ?_
          rintro ⟨_, v, -, h, -⟩
          cases h
      | some v =>
          have hkey := urlKey_eq_iff (P.address_plain hu) (P.address_plain hv)
          constructor
          · intro h
            exact ⟨u, v, rfl, rfl, hkey.mp (Option.some.inj h)⟩
          · rintro ⟨_, _, hu', hv', hsame⟩
            cases hu'
            cases hv'
            exact congrArg some (hkey.mpr hsame)

/-- A candidate is kept if it is admitted and its key is new. -/
def verdictOn (P : SearchPlatform) (plan : SearchPlan) (kept : List SourceCandidate)
    (candidate : SourceCandidate) : Option Unit :=
  if admits plan P candidate = true ∧
      normalizedUrl P candidate.url ∉ kept.map fun other => normalizedUrl P other.url then none
  else some ()

/-- The candidates with the verdict at each. -/
abbrev searchTrail (P : SearchPlatform) (plan : SearchPlan) (returned : List SourceCandidate) :
    List (SourceCandidate × Option Unit) :=
  Triage.run (verdictOn P plan) returned

theorem kept_next (front : List SourceCandidate) {candidate : SourceCandidate}
    (h : verdictOn P plan (Triage.kept (searchTrail P plan front)) candidate = none) :
    Triage.kept (searchTrail P plan (front ++ [candidate])) =
      Triage.kept (searchTrail P plan front) ++ [candidate] := by
  unfold searchTrail
  rw [Triage.run_concat, h, Triage.kept_append]
  rfl

theorem kept_same (front : List SourceCandidate) {candidate : SourceCandidate}
    (h : verdictOn P plan (Triage.kept (searchTrail P plan front)) candidate ≠ none) :
    Triage.kept (searchTrail P plan (front ++ [candidate])) =
      Triage.kept (searchTrail P plan front) := by
  obtain ⟨reason, hreason⟩ := Option.ne_none_iff_exists'.mp h
  unfold searchTrail
  rw [Triage.run_concat, hreason, Triage.kept_append]
  exact List.append_nil _

/-- Filter and dedupe together keep what the trail keeps. -/
theorem dedupeFrom_trail (front rest : List SourceCandidate) {seen : List (List Char)}
    (hseen : ∀ key, key ∈ seen ↔
      some key ∈
        (Triage.kept (searchTrail P plan front)).map fun other => normalizedUrl P other.url)
    {deduped : List SourceCandidate}
    (h : dedupeFrom P seen (Triage.kept (searchTrail P plan front)) (filterCandidates plan P rest) =
      some deduped) :
    deduped = Triage.kept (searchTrail P plan (front ++ rest)) ∧
      ∀ candidate ∈ rest, Admitted P plan candidate → normalizedUrl P candidate.url ≠ none := by
  induction rest generalizing front seen with
  | nil =>
      rw [List.append_nil]
      exact ⟨(Option.some.inj h).symm, fun _ hmem => (List.not_mem_nil hmem).elim⟩
  | cons candidate rest ih =>
      rw [List.append_cons]
      unfold filterCandidates at h
      by_cases hadmits : admits plan P candidate = true
      · rw [List.filter_cons_of_pos hadmits] at h
        unfold dedupeFrom at h
        cases hkey : normalizedUrl P candidate.url with
        | none =>
            rw [hkey] at h
            cases h
        | some key =>
            rw [hkey] at h
            simp only at h
            have hparsed : ∀ other ∈ candidate :: rest, Admitted P plan other →
                (∀ other ∈ rest, Admitted P plan other → normalizedUrl P other.url ≠ none) →
                normalizedUrl P other.url ≠ none := by
              intro other hmem hadmitted hrest
              rcases List.mem_cons.mp hmem with rfl | hmem
              · rw [hkey]
                exact Option.some_ne_none _
              · exact hrest other hmem hadmitted
            split at h
            · rename_i hold
              have hverdict : verdictOn P plan (Triage.kept (searchTrail P plan front))
                  candidate ≠ none := by
                unfold verdictOn
                rw [if_neg fun hnew => hnew.2 (by rw [hkey]; exact (hseen key).mp hold)]
                exact Option.some_ne_none _
              rw [← kept_same front hverdict] at h hseen
              obtain ⟨heq, hrest⟩ := ih (front ++ [candidate]) hseen h
              exact ⟨heq, fun other hmem hadmitted => hparsed other hmem hadmitted hrest⟩
            · rename_i hnew
              have hverdict : verdictOn P plan (Triage.kept (searchTrail P plan front))
                  candidate = none := by
                unfold verdictOn
                rw [if_pos ⟨hadmits, by rw [hkey]; exact fun hmem => hnew ((hseen key).mpr hmem)⟩]
              rw [← kept_next front hverdict] at h
              obtain ⟨heq, hrest⟩ := ih (front ++ [candidate]) (fun other => by
                rw [kept_next front hverdict, List.map_append, List.mem_append, ← hseen other,
                  List.mem_cons, List.map_singleton, List.mem_singleton, hkey, or_comm,
                  Option.some_inj]) h
              exact ⟨heq, fun other hmem hadmitted => hparsed other hmem hadmitted hrest⟩
      · rw [List.filter_cons_of_neg hadmits] at h
        have hverdict : verdictOn P plan (Triage.kept (searchTrail P plan front))
            candidate ≠ none := by
          unfold verdictOn
          rw [if_neg fun hnew => hadmits hnew.1]
          exact Option.some_ne_none _
        rw [← kept_same front hverdict] at h hseen
        obtain ⟨heq, hrest⟩ := ih (front ++ [candidate]) hseen h
        refine ⟨heq, fun other hmem hadmitted => ?_⟩
        rcases List.mem_cons.mp hmem with rfl | hmem
        · exact (hadmits (admits_iff.mpr hadmitted)).elim
        · exact hrest other hmem hadmitted

/-- What the two passes over the candidates leave. -/
theorem dedupeCandidates_trail {returned deduped : List SourceCandidate}
    (h : dedupeCandidates P (filterCandidates plan P returned) = some deduped) :
    deduped = Triage.kept (searchTrail P plan returned) ∧
      ∀ candidate ∈ returned, Admitted P plan candidate →
        normalizedUrl P candidate.url ≠ none :=
  dedupeFrom_trail [] returned (fun _ => iff_of_false List.not_mem_nil List.not_mem_nil) h

/-- The key of an admitted candidate is that of a kept one. -/
theorem key_kept (returned : List SourceCandidate) {candidate : SourceCandidate}
    (hmem : candidate ∈ returned) (hadmitted : Admitted P plan candidate) :
    normalizedUrl P candidate.url ∈
      (Triage.kept (searchTrail P plan returned)).map fun other => normalizedUrl P other.url := by
  induction returned using List.reverseRecOn with
  | nil => cases hmem
  | append_singleton returned last ih =>
      by_cases hverdict : verdictOn P plan (Triage.kept (searchTrail P plan returned)) last = none
      · rw [kept_next returned hverdict, List.map_append]
        rcases List.mem_append.mp hmem with hmem | hmem
        · exact List.mem_append_left _ (ih hmem)
        · rw [List.mem_singleton.mp hmem]
          exact List.mem_append_right _ (List.mem_singleton_self _)
      · rw [kept_same returned hverdict]
        rcases List.mem_append.mp hmem with hmem | hmem
        · exact ih hmem
        · rw [List.mem_singleton] at hmem
          subst hmem
          by_contra hnew
          refine hverdict ?_
          unfold verdictOn
          rw [if_pos ⟨admits_iff.mpr hadmitted, hnew⟩]

/-- The verdict at a candidate, in terms of all that came before it. -/
theorem verdict_none_iff {returned : List SourceCandidate}
    (hparsed : ∀ candidate ∈ returned, Admitted P plan candidate →
      normalizedUrl P candidate.url ≠ none)
    {before after : List (SourceCandidate × Option Unit)} {candidate : SourceCandidate}
    {verdict : Option Unit}
    (h : searchTrail P plan returned = before ++ (candidate, verdict) :: after) :
    verdict = none ↔ Admitted P plan candidate ∧
      ∀ other ∈ before.map (·.1), Admitted P plan other →
        ¬ SameAddress P other.url candidate.url := by
  have hitems := congrArg (List.map (·.1)) h
  rw [Triage.run_map_fst, List.map_append, List.map_cons] at hitems
  have hbefore : before = searchTrail P plan (before.map (·.1)) := by
    obtain ⟨rest, hrest, -⟩ :=
      Triage.run_split (verdictOn P plan) (before.map (·.1)) (after.map (·.1)) candidate
    have hsplit := h.symm.trans ((congrArg (searchTrail P plan) hitems).trans hrest)
    refine (List.append_inj hsplit ?_).1
    rw [Triage.run_length, List.length_map]
  have hverdict : verdict = verdictOn P plan (Triage.kept before) candidate :=
    Triage.verdict_of_split h
  have hmem : ∀ other ∈ before.map (·.1), other ∈ returned := by
    intro other hother
    rw [hitems]
    exact List.mem_append_left _ hother
  have hkeys : (normalizedUrl P candidate.url ∉
        (Triage.kept before).map fun other => normalizedUrl P other.url) ↔
      ∀ other ∈ before.map (·.1), Admitted P plan other →
        normalizedUrl P other.url ≠ normalizedUrl P candidate.url := by
    constructor
    · intro hnew other hother hadmitted heq
      refine hnew ?_
      rw [← heq, hbefore]
      exact key_kept _ hother hadmitted
    · intro hall hold
      obtain ⟨other, hother, heq⟩ := List.mem_map.mp hold
      have hentry := Triage.mem_kept_iff.mp hother
      refine hall other (List.mem_map.mpr ⟨_, hentry, rfl⟩) ?_ heq
      -- what was kept had been admitted
      rw [hbefore] at hentry
      obtain ⟨front, back, -, hnone⟩ := Triage.run_verdict hentry
      by_contra hadmitted
      unfold verdictOn at hnone
      rw [if_neg fun hnew => hadmitted (admits_iff.mp hnew.1)] at hnone
      cases hnone
  rw [hverdict]
  unfold verdictOn
  rw [← admits_iff]
  have hsame : ∀ other ∈ before.map (·.1), Admitted P plan other →
      (normalizedUrl P other.url ≠ normalizedUrl P candidate.url ↔
        ¬ SameAddress P other.url candidate.url) := fun other hother hadmitted =>
    not_congr (normalizedUrl_eq_iff (hparsed other (hmem other hother) hadmitted))
  have hall : (∀ other ∈ before.map (·.1), Admitted P plan other →
        normalizedUrl P other.url ≠ normalizedUrl P candidate.url) ↔
      ∀ other ∈ before.map (·.1), Admitted P plan other →
        ¬ SameAddress P other.url candidate.url := by
    constructor
    · intro hne other hother hadmitted
      exact (hsame other hother hadmitted).mp (hne other hother hadmitted)
    · intro hne other hother hadmitted
      exact (hsame other hother hadmitted).mpr (hne other hother hadmitted)
  rw [← hall, ← hkeys]
  split
  · rename_i hkept
    exact iff_of_true rfl hkept
  · rename_i haside
    exact iff_of_false (Option.some_ne_none _) haside

/-! ### The result set -/

/-- What a result set says of the calls it comes from. -/
structure ResultSound (P : SearchPlatform) (plan : SearchPlan) (urls : List String)
    (made : List (SearchProvider × String)) (set : SearchResultSet) : Prop where
  admitted : ∀ candidate ∈ set.candidates, Admitted P plan candidate
  distinct : set.candidates.Pairwise fun a b => ¬ SameAddress P a.url b.url
  returned : ∀ candidate ∈ set.candidates,
    ∃ k, ∃ provider : SearchProvider, ∃ query, ∃ output : SearchOutput,
      made[k]? = some (provider, query) ∧
      provider.search k (searchInput plan urls query) = .ok output ∧
      candidate ∈ output.candidates
  /-- What was returned, with the verdict at each: a candidate is kept exactly if it is admitted
  and none before it is admitted and has its URL. -/
  first : ∃ trail : List (SourceCandidate × Option Unit),
    trail.map (·.1) = returnedBy plan urls made ∧ Triage.kept trail = set.candidates ∧
    ∀ before candidate verdict after, trail = before ++ (candidate, verdict) :: after →
      (verdict = none ↔ Admitted P plan candidate ∧
        ∀ other ∈ before.map (·.1), Admitted P plan other →
          ¬ SameAddress P other.url candidate.url)
  selected : set.selectedCandidates = set.candidates.take plan.limits.maxSourcesToFetch
  reported : (set.providerCalls.map (·.resultCount)).sum = (returnedBy plan urls made).length
  accounted : set.filteredCount + set.dedupedCount + set.candidates.length =
    (returnedBy plan urls made).length

theorem kept_admitted {returned : List SourceCandidate} {candidate : SourceCandidate}
    (h : candidate ∈ Triage.kept (searchTrail P plan returned)) : Admitted P plan candidate := by
  obtain ⟨front, back, -, hnone⟩ := Triage.run_verdict (Triage.mem_kept_iff.mp h)
  by_contra hadmitted
  unfold verdictOn at hnone
  rw [if_neg fun hnew => hadmitted (admits_iff.mp hnew.1)] at hnone
  cases hnone

variable (plan) in
theorem kept_distinct (returned : List SourceCandidate) :
    (Triage.kept (searchTrail P plan returned)).Pairwise fun a b =>
      normalizedUrl P a.url ≠ normalizedUrl P b.url := by
  refine Triage.kept_induction List.Pairwise.nil ?_ returned
  intro front hfront candidate hverdict
  refine List.pairwise_append.mpr ⟨hfront, List.pairwise_singleton _ _, ?_⟩
  intro other hother last hlast heq
  rw [List.mem_singleton.mp hlast] at heq
  unfold verdictOn at hverdict
  split at hverdict
  · rename_i hnew
    exact hnew.2 (List.mem_map.mpr ⟨other, hother, heq⟩)
  · cases hverdict

/-- The result set that is drafted from what the loops have collected. -/
theorem resultDraft_sound {state : SearchState} (hstate : Collects plan urls state)
    (providers : List SearchProvider) {deduped : List SourceCandidate}
    (h : dedupeCandidates P (filterCandidates plan P state.candidates) = some deduped)
    (artifactId : Option String) :
    ResultSound P plan urls state.made { resultDraft plan P providers state
      (filterCandidates plan P state.candidates) deduped with artifactId := artifactId } := by
  obtain ⟨hkept, hparsed⟩ := dedupeCandidates_trail h
  have hsub : deduped.Sublist state.candidates := by
    have hsub := Triage.kept_sublist (searchTrail P plan state.candidates)
    rwa [← hkept, Triage.run_map_fst] at hsub
  have hadmitted : ∀ candidate ∈ deduped, Admitted P plan candidate := by
    intro candidate hmem
    rw [hkept] at hmem
    exact kept_admitted hmem
  refine ⟨hadmitted, ?_, ?_, ?_, rfl, ?_, ?_⟩
  · show deduped.Pairwise _
    have hdistinct := kept_distinct (P := P) plan state.candidates
    rw [← hkept] at hdistinct
    refine hdistinct.imp_of_mem fun ha _ hne => ?_
    rwa [← normalizedUrl_eq_iff (hparsed _ (hsub.subset ha) (hadmitted _ ha))]
  · intro candidate hmem
    refine mem_returnedBy ?_
    rw [← hstate.candidates]
    exact hsub.subset hmem
  · rw [← hstate.candidates]
    exact ⟨searchTrail P plan state.candidates, Triage.run_map_fst _ _, hkept.symm,
      fun _ _ _ _ hsplit => verdict_none_iff hparsed hsplit⟩
  · rw [← hstate.candidates]
    exact hstate.reported
  · have hfiltered : (filterCandidates plan P state.candidates).length ≤
        state.candidates.length := List.length_filter_le _ _
    have hdeduped : deduped.length ≤ (filterCandidates plan P state.candidates).length := by
      have hfilter := hsub.filter (admits plan P)
      rw [List.filter_eq_self.mpr fun candidate hmem => admits_iff.mpr (hadmitted candidate hmem)]
        at hfilter
      exact hfilter.length_le
    rw [← hstate.candidates]
    show state.candidates.length - (filterCandidates plan P state.candidates).length +
      ((filterCandidates plan P state.candidates).length - deduped.length) + deduped.length =
        state.candidates.length
    omega

theorem parse_eq {set parsed : SearchResultSet} (h : set.parse P = .ok parsed) : parsed = set := by
  unfold SearchResultSet.parse at h
  split at h
  · exact (Except.ok.inj h).symm
  · cases h

theorem conclude_sound {state : SearchState} (hstate : Collects plan urls state)
    {providers : List SearchProvider} {set : SearchResultSet}
    (h : conclude C plan providers state = .ok set) :
    ResultSound P plan urls state.made set := by
  unfold conclude at h
  split at h
  · cases h
  · simp only at h
    split at h
    · cases h
    · rename_i deduped hdeduped
      split at h
      · cases h
      · rename_i resultSet hparsed
        split at h
        · cases h
        · rename_i artifactId _
          rw [parse_eq h, parse_eq hparsed]
          exact resultDraft_sound hstate providers hdeduped (some artifactId)

/-! ### Runs -/

/-- What a run makes of a plan. -/
structure Coordinated (C : SearchCoordinator P) (plan : SearchPlan) (urls : List String)
    (run : SearchRun) : Prop where
  within : run.made.length ≤ plan.limits.maxProviderCalls
  /-- A chosen provider is asked an entry of the queries once, in order. -/
  once : run.made.Sublist (chooseProviders C plan urls ×ˢ plan.queries)
  chosen : (chooseProviders C plan urls).Sublist C.registry ∨
    ((chooseProviders C plan urls).map (·.providerId)).Nodup
  sound : ∀ set, run.outcome = .ok set → ResultSound P plan urls run.made set

/-- **A search keeps to its plan.**  It makes no more calls than the plan allows, no provider of
the registry is chosen twice, and a chosen provider is asked each entry of the queries once at
most, so that no provider is asked the same query twice where the queries differ.  What is in the
result set was returned by a call and is admitted; of each URL the first admitted candidate is
kept, and no other; and the counts add up. -/
theorem execute_coordinated (C : SearchCoordinator P) (plan : SearchPlan) (urls : List String) :
    Coordinated C plan urls (C.execute plan urls) := by
  have hchosen := chooseProviders_once C plan urls
  have hthrown : ∀ thrown, Coordinated C plan urls ⟨[], .error thrown⟩ := fun thrown =>
    ⟨Nat.zero_le _, List.nil_sublist _, hchosen, fun _ h => by cases h⟩
  unfold SearchCoordinator.execute
  simp only
  split
  · exact hthrown _
  · split
    · exact hthrown _
    · obtain ⟨hstate, asked, hasked, hmade⟩ := providerLoop_collects (P := P)
        (chooseProviders C plan urls) (Collects.empty plan urls)
      cases hloop : providerLoop plan urls P (chooseProviders C plan urls) SearchState.empty with
      | mk state failure =>
          rw [hloop] at hstate hmade
          have hmade : state.made = asked := hmade
          have honce : state.made.Sublist (chooseProviders C plan urls ×ˢ plan.queries) := by
            rw [hmade]
            exact hasked
          have hwithin : state.made.length ≤ plan.limits.maxProviderCalls := by
            rw [← hstate.counted]
            exact hstate.within
          cases failure with
          | some thrown => exact ⟨hwithin, honce, hchosen, fun _ h => by cases h⟩
          | none => exact ⟨hwithin, honce, hchosen, fun _ h => conclude_sound hstate h⟩

/-! ### A plan that lists a query twice

The plan lists one query two times, and one page comes back under three addresses that differ in
the order of the values of a name, and in a slash before the query. -/

/-- The same address but for a slash at its end, and the same names and values in any order. -/
def SameUpToOrder (P : SearchPlatform) (a b : String) : Prop :=
  ∃ u v, P.parseUrl a = some u ∧ P.parseUrl b = some v ∧
    withoutSlash u.address = withoutSlash v.address ∧ u.searchParams.Perm v.searchParams

def pageUrl (text : String) : Option ParsedUrl :=
  if text = "https://a.example/s?t=1&t=2" then
    some ⟨"https://a.example/s".toList, [("t", "1"), ("t", "2")], []⟩
  else if text = "https://a.example/s?t=2&t=1" then
    some ⟨"https://a.example/s".toList, [("t", "2"), ("t", "1")], []⟩
  else if text = "https://a.example/s/?t=1&t=2" then
    some ⟨"https://a.example/s/".toList, [("t", "1"), ("t", "2")], []⟩
  else none

theorem pageUrl_plain {text : String} {url : ParsedUrl} (h : pageUrl text = some url) :
    '?' ∉ url.address := by
  unfold pageUrl at h
  split at h
  · cases h
    decide
  · split at h
    · cases h
      decide
    · split at h
      · cases h
        decide
      · cases h

def pagePlatform : SearchPlatform where
  toLowerCase text := String.ofList (text.toList.map Char.toLower)
  parseUrl := pageUrl
  address_plain := pageUrl_plain
  isUrl text := (pageUrl text).isSome
  isDateTime _ := true
  planHash _ _ := "0123456789abcdef"
  setHash _ := "0123456789abcdef"
  now _ := 0

def page (url : String) (rank : Int) : SourceCandidate where
  sourceId := "page"
  title := "A page"
  url := url
  snippet := none
  sourceType := .unknown
  publishedAt := none
  retrievedAt := "2026-01-01T00:00:00.000Z"
  domain := "a.example"
  confidence := .medium
  providerId := "searx"
  providerKind := .searxng
  rank := rank

def pageProvider : SearchProvider where
  providerId := "searx"
  kind := .searxng
  mode := .live
  isConfigured := .ok true
  search
    | 0, _ => .ok ⟨[page "https://a.example/s?t=1&t=2" 1, page "https://a.example/s?t=2&t=1" 2,
        page "https://a.example/s/?t=1&t=2" 3], []⟩
    | _, _ => .ok ⟨[], []⟩

def pageCoordinator : SearchCoordinator pagePlatform := ⟨[pageProvider], none, fun _ => .ok ()⟩

theorem planName_nonempty : "plan" ≠ "" := by decide

def doubledPlan : SearchPlan where
  searchPlanId := "plan"
  topic := "lean"
  objective := "read about lean"
  queries := ["lean", "lean"]
  limits := ⟨2, 5, 5, 3, 8000, by decide, by decide, by decide, by decide, by decide⟩
  providerPreferences := []
  domainsAllowlist := []
  domainsDenylist := []
  sourceTypePreferences := []
  stopConditions := ⟨3, false, by decide⟩
  id_nonempty := planName_nonempty
  topic_nonempty := by decide
  queries_nonempty := by decide
  queries_length := by decide

theorem doubledSearch_loose :
    ¬ ((pageCoordinator.execute doubledPlan []).made.map fun call =>
      (call.1.providerId, call.2)).Nodup ∧
    ∃ set, (pageCoordinator.execute doubledPlan []).outcome = .ok set ∧
      set.candidates.length = 3 ∧
      set.candidates.Pairwise fun a b => SameUpToOrder pagePlatform a.url b.url := by
  have hmade : ((pageCoordinator.execute doubledPlan []).made.map fun call =>
      (call.1.providerId, call.2)) = [("searx", "lean"), ("searx", "lean")] := by rfl
  have hurls : (pageCoordinator.execute doubledPlan []).outcome.toOption.map
      (fun set => set.candidates.map (·.url)) =
        some ["https://a.example/s?t=1&t=2", "https://a.example/s?t=2&t=1",
          "https://a.example/s/?t=1&t=2"] := by decide +kernel
  constructor
  · rw [hmade]
    decide
  · cases houtcome : (pageCoordinator.execute doubledPlan []).outcome with
    | error thrown =>
        rw [houtcome] at hurls
        cases hurls
    | ok set =>
        rw [houtcome] at hurls
        have hurls : set.candidates.map (·.url) = _ := Option.some.inj hurls
        refine ⟨set, rfl, by simpa using congrArg List.length hurls, ?_⟩
        have hpairs : (set.candidates.map (·.url)).Pairwise (SameUpToOrder pagePlatform) := by
          rw [hurls]
          refine List.pairwise_cons.mpr ⟨?_, List.pairwise_pair.mpr
            ⟨_, _, rfl, rfl, by decide, List.Perm.swap _ _ _⟩⟩
          intro url hurl
          rcases List.mem_cons.mp hurl with rfl | hurl
          · exact ⟨_, _, rfl, rfl, rfl, List.Perm.swap _ _ _⟩
          · rw [List.mem_singleton.mp hurl]
            exact ⟨_, _, rfl, rfl, by decide, List.Perm.refl _⟩
        exact List.pairwise_map.mp hpairs

end OpenLagrange.Search
