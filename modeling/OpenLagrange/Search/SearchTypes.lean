/-
What a search works with.

A plan says what to ask, of whom, and how often at most; providers answer with candidates.  A plan
has passed its schema, so its limits are carried with their bounds.  What a provider does is left
open: it may be unconfigured, fail, or answer with anything, and answer another time otherwise.
-/
import OpenLagrange.Research.Schemas
import OpenLagrange.Util.CanonicalText
import OpenLagrange.Lib.FormEncoding

namespace OpenLagrange.Search

/-! ### Candidates -/

inductive SearchProviderKind where
  | manualUrls | searxng | brave | tavily | serpapi | github | localDocs | fixture
  deriving DecidableEq, Repr

inductive SearchProviderMode where
  | live | fixture | test
  deriving DecidableEq, Repr

inductive SearchSourceType where
  | official | documentation | news | paper | blog | forum | repo | unknown
  deriving DecidableEq, Repr

inductive SearchConfidence where
  | low | medium | high
  deriving DecidableEq, Repr

structure SourceCandidate where
  sourceId : String
  title : String
  url : String
  snippet : Option String
  sourceType : SearchSourceType
  publishedAt : Option String
  retrievedAt : String
  domain : String
  confidence : SearchConfidence
  providerId : String
  providerKind : SearchProviderKind
  rank : Int
  deriving DecidableEq, Repr

/-! ### Plans -/

structure SearchLimits where
  maxQueries : Nat
  maxResultsPerQuery : Nat
  maxSourcesToFetch : Nat
  maxProviderCalls : Nat
  maxSearchDurationMs : Nat
  queries_bound : 1 ≤ maxQueries ∧ maxQueries ≤ 5
  results_bound : 1 ≤ maxResultsPerQuery ∧ maxResultsPerQuery ≤ 25
  sources_bound : 1 ≤ maxSourcesToFetch ∧ maxSourcesToFetch ≤ 25
  calls_bound : 1 ≤ maxProviderCalls ∧ maxProviderCalls ≤ 10
  duration_bound : 500 ≤ maxSearchDurationMs ∧ maxSearchDurationMs ≤ 30000

structure SearchProviderPreference where
  providerId : Option String
  kind : Option SearchProviderKind
  given : providerId ≠ none ∨ kind ≠ none
  id_nonempty : ∀ id ∈ providerId, id ≠ ""

structure SearchStopConditions where
  minResults : Nat
  stopAfterFirstProviderWithResults : Bool
  results_bound : 1 ≤ minResults ∧ minResults ≤ 25

/-- A plan the schema has accepted. -/
structure SearchPlan where
  searchPlanId : String
  topic : String
  objective : String
  queries : List String
  limits : SearchLimits
  providerPreferences : List SearchProviderPreference
  domainsAllowlist : List String
  domainsDenylist : List String
  sourceTypePreferences : List SearchSourceType
  stopConditions : SearchStopConditions
  id_nonempty : searchPlanId ≠ ""
  topic_nonempty : topic ≠ ""
  queries_nonempty : ∀ query ∈ queries, query ≠ ""
  queries_length : 1 ≤ queries.length ∧ queries.length ≤ limits.maxQueries

/-! ### Providers -/

inductive SearchErrorCode where
  | planInvalid | providerNotConfigured | providerUnavailable | policyDenied | executionFailed
  deriving DecidableEq, Repr

/-- What is thrown: an error of the search, another error, or something that is no error. -/
inductive SearchThrown where
  | search (code : SearchErrorCode) (message : String)
  | error (message : String)
  | other
  deriving DecidableEq, Repr

structure SearchProviderSearchInput where
  query : String
  topic : String
  maxResults : Nat
  domainsAllowlist : List String
  domainsDenylist : List String
  sourceTypePreferences : List SearchSourceType
  urls : List String
  deriving DecidableEq, Repr

structure SearchOutput where
  candidates : List SourceCandidate
  warnings : List String
  deriving DecidableEq, Repr

structure SearchProvider where
  providerId : String
  kind : SearchProviderKind
  mode : SearchProviderMode
  isConfigured : Except SearchThrown Bool
  /-- What a call is answered with, after so many provider calls before it. -/
  search : Nat → SearchProviderSearchInput → Except SearchThrown SearchOutput

/-! ### Results -/

inductive SearchCallStatus where
  | success | failed | skipped
  deriving DecidableEq, Repr

structure SearchProviderCall where
  providerId : String
  providerKind : SearchProviderKind
  query : String
  status : SearchCallStatus
  resultCount : Nat
  errorCode : Option SearchErrorCode
  message : Option String
  deriving DecidableEq, Repr

structure SearchResultSet where
  searchResultSetId : String
  searchPlanId : String
  topic : String
  mode : SearchProviderMode
  providerCalls : List SearchProviderCall
  candidates : List SourceCandidate
  selectedCandidates : List SourceCandidate
  dedupedCount : Nat
  filteredCount : Nat
  warnings : List String
  artifactId : Option String
  deriving DecidableEq, Repr

/-! ### URLs -/

/-- A URL in parts: all before the query, the names and values of the query, and the fragment. -/
structure ParsedUrl where
  address : List Char
  searchParams : List (String × String)
  hash : List Char

structure SearchPlatform where
  toLowerCase : String → String
  /-- `new URL(text)`, where it does not throw. -/
  parseUrl : String → Option ParsedUrl
  /-- What begins the query has no place before it. -/
  address_plain : ∀ {text url}, parseUrl text = some url → '?' ∉ url.address
  /-- `z.string().url()` and `z.string().datetime()`. -/
  isUrl : String → Bool
  isDateTime : String → Bool
  /-- `stableHash` of a plan and its selected candidates, and of a result set. -/
  planHash : SearchPlan → List SourceCandidate → String
  setHash : SearchResultSet → String
  /-- `Date.now()`, the first time and whenever it is read again. -/
  now : Nat → Int

/-- `url.toString()`. -/
def ParsedUrl.text (url : ParsedUrl) : List Char :=
  url.address ++
    (if url.searchParams = [] then [] else '?' :: FormEncoding.formEncode url.searchParams) ++
    (if url.hash = [] then [] else '#' :: url.hash)

/-- `text.replace(/\/$/, "")`. -/
def withoutSlash (text : List Char) : List Char :=
  if text.getLast? = some '/' then text.dropLast else text

def normalizedUrl (P : SearchPlatform) (value : String) : Option (List Char) :=
  (P.parseUrl value).map fun url =>
    withoutSlash { url with hash := [], searchParams := sortFields url.searchParams }.text

/-! ### Schemas -/

section

variable (P : SearchPlatform)

def SourceCandidate.accepted (candidate : SourceCandidate) : Bool :=
  nonempty candidate.sourceId && nonempty candidate.title && P.isUrl candidate.url &&
    candidate.publishedAt.all P.isDateTime && P.isDateTime candidate.retrievedAt &&
    nonempty candidate.domain && nonempty candidate.providerId && decide (1 ≤ candidate.rank)

def SearchProviderCall.accepted (call : SearchProviderCall) : Bool :=
  nonempty call.providerId && nonempty call.query

/-- `SearchResultSet.parse`. -/
def SearchResultSet.parse (set : SearchResultSet) : Except SearchThrown SearchResultSet :=
  if nonempty set.searchResultSetId && nonempty set.searchPlanId && nonempty set.topic &&
      set.providerCalls.all (·.accepted) && set.candidates.all (·.accepted P) &&
      set.selectedCandidates.all (·.accepted P) then .ok set
  else .error (.error "SearchResultSet")

end

end OpenLagrange.Search
