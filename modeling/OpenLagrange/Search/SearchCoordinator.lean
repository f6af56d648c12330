/-
Asking search providers by a plan.

The chosen providers are asked one after the other, each with every query of the plan, until the
calls or the time are used up, or a call has brought enough.  All that was returned is filtered by
domain and freed of URLs that came before, and the first of what is left are selected.
-/
import OpenLagrange.Search.SearchTypes

namespace OpenLagrange.Search

open Research (ArtifactStore writeArtifact)

structure SearchCoordinator (P : SearchPlatform) where
  registry : List SearchProvider
  allowFixture : Option Bool
  store : ArtifactStore SearchResultSet

/-- What the loops have collected, and the calls of `search` that were made. -/
structure SearchState where
  calls : List SearchProviderCall
  warnings : List String
  candidates : List SourceCandidate
  providerCalls : Nat
  /-- How often the clock was read. -/
  readings : Nat
  made : List (SearchProvider × String)

def SearchState.empty : SearchState := ⟨[], [], [], 0, 0, []⟩

/-- The calls of a run, and what it came to. -/
structure SearchRun where
  made : List (SearchProvider × String)
  outcome : Except SearchThrown SearchResultSet

/-! ### Choosing providers -/

section

variable {P : SearchPlatform} (C : SearchCoordinator P) (plan : SearchPlan) (urls : List String)

/-- `[...new Map(providers.map((provider) => [provider.provider_id, provider])).values()]`: an id
stays where it came first, with the provider that came last. -/
def lastById (providers : List SearchProvider) : List SearchProvider :=
  providers.foldl (fun kept provider =>
    if kept.any (·.providerId = provider.providerId) then
      kept.map fun other => if other.providerId = provider.providerId then provider else other
    else kept ++ [provider]) []

def SearchProviderPreference.covers (preference : SearchProviderPreference)
    (provider : SearchProvider) : Bool :=
  preference.providerId.all (provider.providerId = ·) && preference.kind.all (provider.kind = ·)

def chooseProviders : List SearchProvider :=
  if 0 < urls.length then (C.registry.find? (·.providerId = "manual-urls")).toList
  else
    let all := C.registry.filter (·.kind ≠ .manualUrls)
    if plan.providerPreferences.length = 0 then
      all.filter (·.mode = if C.allowFixture = some true then .fixture else .live)
    else lastById (plan.providerPreferences.flatMap fun preference => all.filter preference.covers)

def assertSearchPolicy (providers : List SearchProvider) (allowFixture : Bool) :
    Except SearchThrown Unit :=
  if plan.queries.length > plan.limits.maxQueries then
    .error (.search .planInvalid ("SearchPlan query count exceeds max_queries " ++
      toString plan.limits.maxQueries ++ "."))
  else if providers.any (·.mode = .fixture) && !allowFixture then
    .error (.search .policyDenied
      "Fixture search provider is not allowed without explicit fixture mode.")
  else .ok ()

/-! ### Asking -/

def searchInput (query : String) : SearchProviderSearchInput where
  query := query
  topic := plan.topic
  maxResults := plan.limits.maxResultsPerQuery
  domainsAllowlist := plan.domainsAllowlist
  domainsDenylist := plan.domainsDenylist
  sourceTypePreferences := plan.sourceTypePreferences
  urls := urls

/-- `plan.stop_conditions.stop_after_first_provider_with_results && candidates.length >= …`. -/
def enough (state : SearchState) : Bool :=
  plan.stopConditions.stopAfterFirstProviderWithResults &&
    decide (state.candidates.length ≥ plan.stopConditions.minResults)

def SearchThrown.code : SearchThrown → SearchErrorCode
  | .search code _ => code
  | _ => .executionFailed

def SearchThrown.message : SearchThrown → String
  | .search _ message => message
  | .error message => message
  | .other => "Search provider failed."

/-- The state after a provider was asked. -/
def SearchState.asked (state : SearchState) (provider : SearchProvider) (query : String) :
    SearchState :=
  let made := { state with
    providerCalls := state.providerCalls + 1
    made := state.made ++ [(provider, query)] }
  match provider.search state.providerCalls (searchInput plan urls query) with
  | .ok output =>
      { made with
        candidates := made.candidates ++ output.candidates
        warnings := made.warnings ++ output.warnings
        calls := made.calls ++ [{
          providerId := provider.providerId
          providerKind := provider.kind
          query := query
          status := .success
          resultCount := output.candidates.length
          errorCode := none
          message := none }] }
  | .error thrown =>
      { made with
        calls := made.calls ++ [{
          providerId := provider.providerId
          providerKind := provider.kind
          query := query
          status := .failed
          resultCount := 0
          errorCode := some thrown.code
          message := some thrown.message }] }

def succeeds (state : SearchState) (provider : SearchProvider) (query : String) : Bool :=
  (provider.search state.providerCalls (searchInput plan urls query)).isOk

/-- The loop over the queries, for one provider. -/
def queryLoop (P : SearchPlatform) (provider : SearchProvider) :
    List String → SearchState → SearchState
  | [], state => state
  | query :: rest, state =>
      if state.providerCalls ≥ plan.limits.maxProviderCalls then state
      else
        let read := { state with readings := state.readings + 1 }
        if P.now (state.readings + 1) - P.now 0 > plan.limits.maxSearchDurationMs then read
        else
          let next := read.asked plan urls provider query
          if succeeds plan urls read provider query && enough plan next then next
          else queryLoop P provider rest next

/-- What an unconfigured provider is reported with. -/
def SearchState.skip (state : SearchState) (provider : SearchProvider) : SearchState :=
  { state with
    calls := state.calls ++ [{
      providerId := provider.providerId
      providerKind := provider.kind
      query := plan.queries.head?.getD plan.topic
      status := .skipped
      resultCount := 0
      errorCode := some .providerNotConfigured
      message := some "Provider is not configured." }] }

/-- The loop over the providers; a provider that cannot say whether it is configured ends it. -/
def providerLoop (P : SearchPlatform) :
    List SearchProvider → SearchState → SearchState × Option SearchThrown
  | [], state => (state, none)
  | provider :: rest, state =>
      if state.providerCalls ≥ plan.limits.maxProviderCalls then (state, none)
      else
        match provider.isConfigured with
        | .error thrown => (state, some thrown)
        | .ok false => providerLoop P rest (state.skip plan provider)
        | .ok true =>
            let next := queryLoop plan urls P provider plan.queries state
            if enough plan next then (next, none) else providerLoop P rest next

/-! ### The result set -/

/-- What is thrown where live providers brought nothing. -/
def noCandidates (providers : List SearchProvider) (state : SearchState) : Option SearchThrown :=
  if state.candidates.length = 0 && providers.all (·.mode = .live) then
    match state.calls.find? (·.status = .failed) with
    | some call =>
        some (.search
          (if call.errorCode = some .providerUnavailable then .providerUnavailable
            else .executionFailed)
          (call.message.getD "Configured search provider did not return source candidates."))
    | none =>
        (state.calls.find? fun call =>
          call.status = .skipped && call.errorCode = some .providerNotConfigured).map fun call =>
            .search .providerNotConfigured
              (call.message.getD "Search provider is not configured.")
  else none

/-- What the filter asks of a candidate. -/
def admits (P : SearchPlatform) (candidate : SourceCandidate) : Bool :=
  let allow := plan.domainsAllowlist.map P.toLowerCase
  let deny := plan.domainsDenylist.map P.toLowerCase
  let domain := P.toLowerCase candidate.domain
  !deny.contains domain && (allow.isEmpty || allow.contains domain)

def filterCandidates (P : SearchPlatform) (candidates : List SourceCandidate) :
    List SourceCandidate :=
  candidates.filter (admits plan P)

/-- The loop of `dedupeCandidates`; a text that is no URL makes it throw. -/
def dedupeFrom (P : SearchPlatform) (seen : List (List Char)) (output : List SourceCandidate) :
    List SourceCandidate → Option (List SourceCandidate)
  | [] => some output
  | candidate :: rest =>
      match normalizedUrl P candidate.url with
      | none => none
      | some key =>
          if key ∈ seen then dedupeFrom P seen output rest
          else dedupeFrom P (key :: seen) (output ++ [candidate]) rest

def dedupeCandidates (P : SearchPlatform) (candidates : List SourceCandidate) :
    Option (List SourceCandidate) :=
  dedupeFrom P [] [] candidates

def modeOf (providers : List SearchProvider) : SearchProviderMode :=
  if providers.any (·.mode = .fixture) then .fixture
  else if providers.any (·.mode = .test) then .test
  else .live

/-- What is put through the schema of a result set. -/
def resultDraft (P : SearchPlatform) (providers : List SearchProvider) (state : SearchState)
    (filtered deduped : List SourceCandidate) : SearchResultSet :=
  let selected := deduped.take plan.limits.maxSourcesToFetch
  { searchResultSetId := "search_result_set_" ++ firstChars 16 (P.planHash plan selected)
    searchPlanId := plan.searchPlanId
    topic := plan.topic
    mode := modeOf providers
    providerCalls := state.calls
    candidates := deduped
    selectedCandidates := selected
    dedupedCount := filtered.length - deduped.length
    filteredCount := state.candidates.length - filtered.length
    warnings := distinct state.warnings
    artifactId := none }

def recordArtifact (resultSet : SearchResultSet) : Except SearchThrown String :=
  let artifactId := "source_search_results_" ++ firstChars 16 (P.setHash resultSet)
  match writeArtifact C.store {
    artifactId := artifactId
    kind := "source_search_results"
    title := "Search results for " ++ resultSet.topic
    summary := toString resultSet.selectedCandidates.length ++
      " selected source candidate(s) from " ++ toString resultSet.providerCalls.length ++
      " provider call(s)."
    content := { resultSet with artifactId := some artifactId }
    inputArtifactRefs := []
    validationStatus := .pass } with
  | .ok () => .ok artifactId
  | .error message => .error (.error message)

/-- What follows the loops. -/
def conclude (providers : List SearchProvider) (state : SearchState) :
    Except SearchThrown SearchResultSet :=
  match noCandidates providers state with
  | some thrown => .error thrown
  | none =>
      let filtered := filterCandidates plan P state.candidates
      match dedupeCandidates P filtered with
      | none => .error (.error "Invalid URL")
      | some deduped =>
          match (resultDraft plan P providers state filtered deduped).parse P with
          | .error thrown => .error thrown
          | .ok resultSet =>
              match recordArtifact C resultSet with
              | .error thrown => .error thrown
              | .ok artifactId => { resultSet with artifactId := some artifactId }.parse P

/-- `SearchCoordinator.execute(plan, { urls })`. -/
def SearchCoordinator.execute : SearchRun :=
  let providers := chooseProviders C plan urls
  if providers.isEmpty then
    ⟨[], .error (.search .providerNotConfigured ("No live search provider is configured. " ++
      "Configure SearXNG, provide explicit URLs, or run fixture mode."))⟩
  else
    match assertSearchPolicy plan providers (C.allowFixture = some true) with
    | .error thrown => ⟨[], .error thrown⟩
    | .ok () =>
        let (state, failure) := providerLoop plan urls P providers SearchState.empty
        match failure with
        | some thrown => ⟨state.made, .error thrown⟩
        | none => ⟨state.made, conclude C plan providers state⟩

end

end OpenLagrange.Search
