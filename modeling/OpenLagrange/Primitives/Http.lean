/-
The HTTP primitive of the capability SDK.

A fetch is checked against the network policy, given the secret it authenticates with, and sent;
while the server redirects it, it is checked anew and sent again.  The server, the resolver of
names and of secrets, and the artifact store are calls that answer or throw; what the primitive
does between them is the program here.

The URL parser belongs to the runtime.  What is used of it is that the text of a URL that was
parsed is not empty and parses to that URL again, by itself and against any base.
-/
import OpenLagrange.Lib.Prog
import OpenLagrange.Planning.Templates

namespace OpenLagrange

/-! ### URLs and hosts -/

/-- A parsed URL, as far as it is looked at. -/
structure Url where
  href : String
  protocol : String
  origin : String
  hostname : String
  deriving DecidableEq, Repr

structure HttpPlatform where
  /-- `new URL(text, base)`; `none` where it throws. -/
  parseUrl : String → Option Url → Option Url
  parse_href : ∀ {text base url}, parseUrl text base = some url →
    url.href ≠ "" ∧ ∀ other, parseUrl url.href other = some url
  toLowerCase : String → String
  /-- `new TextDecoder().decode(bytes)`. -/
  decode : List UInt8 → String

/-- `Number.parseInt(text, 10)`; `none` for `NaN`. -/
def parseDecimal (text : List Char) : Option Int :=
  let text := trimStartChars text
  let (sign, digits) : Int × List Char :=
    match text with
    | '-' :: rest => (-1, rest)
    | '+' :: rest => (1, rest)
    | _ => (1, text)
  match digits.takeWhile Char.isDigit with
  | [] => none
  | digits => some (sign * (digits.foldl (fun n c => 10 * n + (c.toNat - 48)) 0 : Nat))

/-- An IPv4 address of a private or local range. -/
def isPrivateAddress (host : List Char) : Bool :=
  match (splitAtChar '.' host).map parseDecimal with
  | [some a, some b, some c, some d] =>
      if [a, b, c, d].any fun part => part < 0 ∨ part > 255 then false
      else
        a = 10 ∨ a = 127 ∨ a = 0 ∨ (a = 169 ∧ b = 254) ∨ (a = 192 ∧ b = 168) ∨
          (a = 172 ∧ 16 ≤ b ∧ b ≤ 31)
  | _ => false

/-- The address in an IPv4-mapped IPv6 address. -/
def ipv4Mapped (host : List Char) : Option (List Char) :=
  let rest := host.drop 7
  if "::ffff:".toList.isPrefixOf host ∧ (splitAtChar '.' rest).length = 4 ∧
      (splitAtChar '.' rest).all (fun part => part ≠ [] ∧ part.all Char.isDigit) then some rest
  else none

def normalizedHost (toLowerCase : String → String) (hostname : String) : List Char :=
  let host := (toLowerCase hostname).toList
  let host := if host.head? = some '[' then host.drop 1 else host
  if host.getLast? = some ']' then host.dropLast else host

def isLocalOrPrivateHost (toLowerCase : String → String) (hostname : String) : Bool :=
  let host := normalizedHost toLowerCase hostname
  if host = "localhost".toList ∨ ".localhost".toList.isSuffixOf host ∨ host = "::1".toList ∨
      host = "0:0:0:0:0:0:0:1".toList then true
  else if "fc".toList.isPrefixOf host ∨ "fd".toList.isPrefixOf host ∨
      "fe80:".toList.isPrefixOf host then true
  else
    match ipv4Mapped host with
    -- digits and dots: of all these tests only the last one can apply to it
    | some address => isPrivateAddress address
    | none => if host.contains ':' then false else isPrivateAddress host

example : isLocalOrPrivateHost id "169.254.169.254" = true := by decide +kernel

example : isLocalOrPrivateHost id "[::ffff:10.0.0.1]" = true := by decide +kernel

/-! ### Contexts -/

structure PrimitiveLimits where
  defaultRedirectLimit : Int
  defaultMaxBytes : Nat
  allowedHttpMethods : List String
  allowPrivateNetwork : Bool

structure PrimitivePolicyContext where
  allowedHosts : Option (List String)
  deniedHosts : Option (List String)
  allowedHttpMethods : Option (List String)
  allowPrivateNetwork : Option Bool

structure PrimitiveContext where
  packId : String
  capabilityId : String
  traceId : String
  policyContext : PrimitivePolicyContext
  limits : PrimitiveLimits
  /-- Whether there is a secret manager. -/
  hasSecretManager : Bool
  /-- Whether the context brings its own `fetch`. -/
  hasFetchImpl : Bool
  redactHeaders : List (String × String) → List (String × String)
  redactText : String → String

/-! ### The network policy -/

inductive NetworkDecision where
  | allow | deny
  deriving DecidableEq, Repr

structure Http.PolicyDecisionReport where
  decision : NetworkDecision
  capabilityRef : String
  packId : String
  riskLevel : String
  sideEffectKind : String
  matchedRules : List String
  reason : String
  deriving DecidableEq, Repr

structure NetworkPolicyInput where
  method : String
  host : String
  allowedHosts : Option (List String)
  deniedHosts : Option (List String)
  isPrivateHost : Bool

def PrimitiveContext.report (context : PrimitiveContext) (decision : NetworkDecision)
    (sideEffectKind : String) (matchedRules : List String) (reason : String) : Http.PolicyDecisionReport :=
  ⟨decision, context.packId ++ "." ++ context.capabilityId, context.packId, "read", sideEffectKind,
    matchedRules, reason⟩

def evaluateNetwork (context : PrimitiveContext) (input : NetworkPolicyInput) :
    Http.PolicyDecisionReport :=
  let allowedHosts := (input.allowedHosts.or context.policyContext.allowedHosts).getD []
  let deniedHosts := (input.deniedHosts.or context.policyContext.deniedHosts).getD []
  if input.host ∈ deniedHosts then
    context.report .deny "network_read" ["network.denied_hosts"]
      ("Host " ++ input.host ++ " is denied.")
  else if allowedHosts.length > 0 ∧ input.host ∉ allowedHosts then
    context.report .deny "network_read" ["network.allowed_hosts"]
      ("Host " ++ input.host ++ " is not declared in allowed hosts.")
  else if input.isPrivateHost ∧ context.policyContext.allowPrivateNetwork ≠ some true ∧
      ¬ context.limits.allowPrivateNetwork then
    context.report .deny "network_read" ["network.block_private_hosts"]
      ("Host " ++ input.host ++ " is local or private.")
  else
    context.report .allow (if input.method = "GET" then "network_read" else "network_write")
      ["network.protocol", "network.host"]
      ("Network request to " ++ input.host ++ " is allowed.")

/-! ### Requests and responses -/

inductive HttpMethod where
  | get | post | put | patch | delete
  deriving DecidableEq, Repr

def HttpMethod.text : HttpMethod → String
  | .get => "GET"
  | .post => "POST"
  | .put => "PUT"
  | .patch => "PATCH"
  | .delete => "DELETE"

structure PrimitiveSecretRef where
  provider : Option String
  name : String
  scope : Option String
  deriving DecidableEq, Repr

structure HttpAuthInput where
  header : Option String
  scheme : Option String
  secretRef : PrimitiveSecretRef
  deriving DecidableEq, Repr

structure HttpFetchInput where
  url : String
  method : Option HttpMethod
  headers : List (String × String)
  body : Option String
  maxBytes : Option Nat
  redirectLimit : Option Int
  allowedHosts : Option (List String)
  deniedHosts : Option (List String)
  acceptedContentTypes : List String
  auth : Option HttpAuthInput
  captureBodyAsArtifact : Bool
  artifactId : Option String
  artifactKind : Option String
  allowCookies : Bool

structure HttpRequest where
  url : Url
  method : HttpMethod
  headers : List (String × String)
  body : Option String
  deriving DecidableEq, Repr

structure HttpResponse where
  status : Nat
  /-- Where the response says it comes from. -/
  url : String
  headers : List (String × String)
  deriving DecidableEq, Repr

/-- `response.headers.get(name)`, for a name in small letters, as response headers are kept. -/
def HttpResponse.header (response : HttpResponse) (name : String) : Option String :=
  (response.headers.find? (·.1 = name)).map (·.2)

def HttpResponse.ok (response : HttpResponse) : Bool :=
  200 ≤ response.status ∧ response.status < 300

/-- The target of a redirect. -/
def HttpResponse.redirect (response : HttpResponse) : Option String :=
  if 300 ≤ response.status ∧ response.status < 400 then
    (response.header "location").filter (· ≠ "")
  else none

structure HttpArtifact where
  artifactId : String
  kind : String
  summary : String
  content : String
  contentType : String
  valid : Bool
  url : String
  finalUrl : String
  status : Nat
  headers : List (String × String)

structure HttpFetchResult where
  url : String
  status : Nat
  ok : Bool
  headers : List (String × String)
  text : String
  bytes : List UInt8
  policyReport : Http.PolicyDecisionReport
  artifactId : Option String

/-- How a request that is sent ends, where it does not throw. -/
inductive FetchEnd where
  | response (response : HttpResponse)
  /-- The timeout, or the caller, aborted it. -/
  | aborted

inductive HttpCall where
  | resolveSecret (ref : PrimitiveSecretRef)
  | lookup (host : String)
  | fetch (request : HttpRequest)
  | arrayBuffer (response : HttpResponse)
  | dateNow
  | writeArtifact (artifact : HttpArtifact)

abbrev HttpAnswer : HttpCall → Type
  | .resolveSecret _ => String
  | .lookup _ => List String
  | .fetch _ => FetchEnd
  | .arrayBuffer _ => List UInt8
  | .dateNow => Nat
  | .writeArtifact _ => Unit

abbrev HttpProgram (α : Type) := Prog HttpCall HttpAnswer α

namespace Http

/-- One awaited call of the primitive. -/
abbrev await (call : HttpCall) : HttpProgram (HttpAnswer call) := Prog.perform call

/-- A thrown error, by its code and its text. -/
def primitiveError {α : Type} (message code : String) : HttpProgram α :=
  .fail (code ++ ": " ++ message)

variable (P : HttpPlatform) (context : PrimitiveContext) (input : HttpFetchInput)

/-! ### Headers -/

/-- `headers[name] = value`; the name `__proto__` makes no new property. -/
def setHeader (headers : List (String × String)) (name value : String) : List (String × String) :=
  if headers.any (·.1 = name) then
    headers.map fun header => if header.1 = name then (name, value) else header
  else if name = "__proto__" then headers
  else headers ++ [(name, value)]

/-- The headers that do not follow a request to another origin. -/
def sensitiveHeaders : List String := ["authorization", "cookie", "proxy-authorization", "x-api-key"]

def stripSensitiveHeaders (headers : List (String × String)) : List (String × String) :=
  headers.filter fun header => P.toLowerCase header.1 ∉ sensitiveHeaders

/-- The name under which the secret travels. -/
def headerName (auth : HttpAuthInput) : String :=
  auth.header.getD "Authorization"

/-! ### Policy -/

def parseAllowedUrl (value : String) : HttpProgram Url :=
  match P.parseUrl value none with
  | none => primitiveError "HTTP primitive received an invalid URL." "PRIMITIVE_INVALID_INPUT"
  | some url =>
      if url.protocol ≠ "http:" ∧ url.protocol ≠ "https:" then
        primitiveError "HTTP primitive only allows http and https URLs." "PRIMITIVE_POLICY_DENIED"
      else pure url

def enforceMethod (method : HttpMethod) : HttpProgram Unit :=
  let allowed := distinct ((context.policyContext.allowedHttpMethods.getD []) ++
    context.limits.allowedHttpMethods)
  if method.text ∈ allowed then pure ()
  else primitiveError ("HTTP method " ++ method.text ++ " is not allowed for this capability.")
    "PRIMITIVE_POLICY_DENIED"

def enforceContentType (response : HttpResponse) : HttpProgram Unit :=
  if input.acceptedContentTypes.length = 0 then pure ()
  else
    let contentType := (response.header "content-type").getD ""
    if input.acceptedContentTypes.any fun accepted =>
        includes (P.toLowerCase contentType) (P.toLowerCase accepted) then pure ()
    else primitiveError "HTTP response content type is not accepted." "PRIMITIVE_POLICY_DENIED"

def evaluateUrlPolicy (url : Url) (method : HttpMethod) : Http.PolicyDecisionReport :=
  evaluateNetwork context
    ⟨method.text, url.hostname, input.allowedHosts, input.deniedHosts,
      isLocalOrPrivateHost P.toLowerCase url.hostname⟩

def allowsPrivateNetwork : Bool :=
  context.policyContext.allowPrivateNetwork = some true ∨ context.limits.allowPrivateNetwork

/-- The report that an address was private. -/
def privateReport (url : Url) (method : HttpMethod) : Http.PolicyDecisionReport :=
  evaluateNetwork context ⟨method.text, url.hostname, none, none, true⟩

def assertDnsPolicy (url : Url) (method : HttpMethod) : HttpProgram Unit :=
  if context.hasFetchImpl then pure ()
  else if allowsPrivateNetwork context then pure ()
  else if isLocalOrPrivateHost P.toLowerCase
      (String.ofList (normalizedHost P.toLowerCase url.hostname)) then
    primitiveError (privateReport context url method).reason "PRIMITIVE_POLICY_DENIED"
  else do
    let addresses ← await (.lookup (String.ofList (normalizedHost P.toLowerCase url.hostname)))
    if addresses.any (isLocalOrPrivateHost P.toLowerCase) then
      primitiveError (privateReport context url method).reason "PRIMITIVE_POLICY_DENIED"
    else pure ()

/-! ### Fetching -/

/-- Where a redirect leads, if it may be followed. -/
def followRedirect (method : HttpMethod) (location : String) (current : Url) : HttpProgram Url :=
  match P.parseUrl location (some current) with
  | none => .fail "Invalid URL"
  | some next => do
      let _ ← parseAllowedUrl P next.href
      let policyReport := evaluateUrlPolicy P context input next method
      if policyReport.decision = .deny then
        primitiveError policyReport.reason "PRIMITIVE_POLICY_DENIED"
      else pure next

/-- The loop of `fetchWithRedirects`, with the requests that may still be sent. -/
def fetchFrom (method : HttpMethod) : Nat → Url → List (String × String) →
    HttpProgram HttpResponse
  | 0, _, _ => primitiveError "HTTP redirect limit exceeded." "PRIMITIVE_POLICY_DENIED"
  | remaining + 1, current, headers => do
      assertDnsPolicy P context current method
      let outcome ← await (.fetch ⟨current, method, headers, input.body⟩)
      match outcome with
      | .aborted => primitiveError "HTTP request timed out." "PRIMITIVE_TIMEOUT"
      | .response response =>
          match response.redirect with
          | none => pure response
          | some location => do
              let next ← followRedirect P context input method location current
              fetchFrom method remaining next
                (if next.origin ≠ current.origin then stripSensitiveHeaders P headers else headers)

def redirectLimit : Int := input.redirectLimit.getD context.limits.defaultRedirectLimit

def fetchWithRedirects (url : Url) (method : HttpMethod) (headers : List (String × String)) :
    HttpProgram HttpResponse :=
  fetchFrom P context input method (redirectLimit context input + 1).toNat url headers

def resolveRef (ref : PrimitiveSecretRef) : HttpProgram String :=
  if context.hasSecretManager then await (.resolveSecret ref)
  else primitiveError "No secret manager is available in this primitive context."
    "PRIMITIVE_SECRET_UNAVAILABLE"

/-- The headers with the secret. -/
def authenticate : HttpProgram (List (String × String)) :=
  match input.auth with
  | none => pure input.headers
  | some auth => do
      let secret ← resolveRef context auth.secretRef
      pure (setHeader input.headers (headerName auth) (auth.scheme.getD "Bearer" ++ " " ++ secret))

/-- The headers without cookies, unless these are allowed. -/
def withoutCookies (headers : List (String × String)) : List (String × String) :=
  if input.allowCookies then headers
  else headers.filter fun header => P.toLowerCase header.1 ≠ "cookie"

def capturedArtifactId : HttpProgram String :=
  match input.artifactId with
  | some artifactId => pure artifactId
  | none => do
      let now ← await .dateNow
      pure ("http_" ++ context.traceId ++ "_" ++ toString now)

/-- The artifact that the body is captured in. -/
def captureBody (url : Url) (response : HttpResponse) (text : String) :
    HttpProgram (Option String) :=
  if !input.captureBodyAsArtifact then pure none
  else do
    let artifactId ← capturedArtifactId context input
    if artifactId = "" then pure none
    else do
      await (.writeArtifact
        { artifactId
          kind := input.artifactKind.getD "http_response"
          summary := "HTTP " ++ toString response.status ++ " " ++ url.hostname
          content := text
          contentType := (response.header "content-type").getD "text/plain"
          valid := response.ok
          url := url.href
          finalUrl := if response.url = "" then url.href else response.url
          status := response.status
          headers := response.headers })
      pure (some artifactId)

def httpFetch : HttpProgram HttpFetchResult := do
  let url ← parseAllowedUrl P input.url
  let method := input.method.getD .get
  enforceMethod context method
  let policyReport := evaluateUrlPolicy P context input url method
  if policyReport.decision = .deny then
    primitiveError policyReport.reason "PRIMITIVE_POLICY_DENIED"
  else do
    let headers ← authenticate context input
    let response ← fetchWithRedirects P context input url method (withoutCookies P input headers)
    enforceContentType P input response
    let bytes ← await (.arrayBuffer response)
    if bytes.length > input.maxBytes.getD context.limits.defaultMaxBytes then
      primitiveError "HTTP response exceeded max_bytes." "PRIMITIVE_RESPONSE_TOO_LARGE"
    else do
      let text := P.decode bytes
      let artifactId ← captureBody context input url response text
      pure
        { url := url.href
          status := response.status
          ok := response.ok
          headers := context.redactHeaders response.headers
          text := context.redactText text
          bytes
          policyReport
          artifactId }

end Http

end OpenLagrange
