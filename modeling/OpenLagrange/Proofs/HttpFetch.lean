/-
What a fetch sends, and where its secret goes.

The requests of a fetch are a chain of hops, each to where the response before it pointed, with
the headers that are left by then.  All that matters of the program is in this chain.  A header
that is stripped at a change of origin never comes back; but only four names are stripped, and the
caller chooses the name under which the secret travels.
-/
import OpenLagrange.Primitives.Http

namespace OpenLagrange

open Http

/-- The request that a call sends. -/
def HttpCall.request : HttpCall → Option HttpRequest
  | .fetch request => some request
  | _ => none

def observeRequests {S : Type} (call : S × HttpCall) : Option HttpRequest := call.2.request

/-- The requests of a run, in order. -/
def requestsOf {S α : Type} (e : Prog.Exec S HttpCall α) : List HttpRequest :=
  e.trace.filterMap observeRequests

section Chain

variable (P : HttpPlatform) (context : PrimitiveContext) (input : HttpFetchInput)
  (method : HttpMethod)

/-- The scheme is one of the two, and the policy does not deny the URL. -/
def Permits (url : Url) : Prop :=
  (url.protocol = "http:" ∨ url.protocol = "https:") ∧
    (evaluateUrlPolicy P context input url method).decision ≠ .deny

/-- The name is not looked up, or does not look private. -/
def PassesDns (url : Url) : Prop :=
  context.hasFetchImpl = true ∨ allowsPrivateNetwork context = true ∨
    isLocalOrPrivateHost P.toLowerCase
      (String.ofList (normalizedHost P.toLowerCase url.hostname)) = false

/-- A URL that a request can be sent to, as far as the policy goes. -/
structure Sendable (url : Url) : Prop where
  isUrl : ∃ text base, P.parseUrl text base = some url
  permits : Permits P context input method url
  dns : PassesDns P context url

/-- The headers that go to `next`. -/
def headersTo (current next : Url) (headers : List (String × String)) : List (String × String) :=
  if next.origin ≠ current.origin then stripSensitiveHeaders P headers else headers

/-- The requests that can follow one another, with so many left to send. -/
inductive Hops : Nat → Url → List (String × String) → List HttpRequest → Prop where
  | none (remaining : Nat) (current : Url) (headers : List (String × String)) :
      Hops remaining current headers []
  | last {remaining : Nat} {current : Url} {headers : List (String × String)}
      (hsend : Sendable P context input method current) :
      Hops (remaining + 1) current headers [⟨current, method, headers, input.body⟩]
  | hop {remaining : Nat} {current next : Url} {headers : List (String × String)}
      {later : List HttpRequest} (hsend : Sendable P context input method current)
      (hlater : Hops remaining next (headersTo P current next headers) later) :
      Hops (remaining + 1) current headers (⟨current, method, headers, input.body⟩ :: later)

end Chain

variable {P : HttpPlatform} {context : PrimitiveContext} {input : HttpFetchInput}
  {method : HttpMethod} {remaining : Nat} {current url : Url} {headers : List (String × String)}
  {requests : List HttpRequest} {S : Type} {h : Prog.Handler HttpCall HttpAnswer S} {s : S}

/-! ### A program that sends nothing -/

/-- A program that makes no request, and returns within `Q`. -/
abbrev Sendless {α : Type} (Q : α → Prop) (program : HttpProgram α) : Prop :=
  Prog.Obeys (fun call => call.request = none) (fun _ _ => True) Q program

theorem quiet_sendless : Prog.Quiet h observeRequests (fun call => call.request = none)
    (fun _ _ => True) (fun _ => True) where
  state _ _ _ _ := trivial
  answer _ _ _ _ _ _ := trivial
  unseen _ _ hcall _ := hcall

theorem sendless_bind {α β : Type} {Q : α → Prop} {program : HttpProgram α}
    {f : α → HttpProgram β} {post : Except String β → S → List HttpRequest → Prop}
    (hp : Sendless Q program) (herr : ∀ message s', post (.error message) s' [])
    (hf : ∀ a s', Q a → Prog.Shows h observeRequests (f a) s' post) :
    Prog.Shows h observeRequests (program.bind f) s post :=
  hp.shows_bind quiet_sendless trivial (fun message s' _ => herr message s')
    fun a s' ha _ => hf a s' ha

theorem sendless_await {call : HttpCall} (hcall : call.request = none) :
    Sendless (fun _ => True) (Http.await call) :=
  Prog.obeys_perform hcall fun _ _ => trivial

theorem sendless_error {α : Type} {Q : α → Prop} {message code : String} :
    Sendless Q (primitiveError (α := α) message code) := trivial

theorem sendless_parseAllowedUrl {value : String} :
    Sendless (fun url => P.parseUrl value none = some url ∧
      (url.protocol = "http:" ∨ url.protocol = "https:")) (parseAllowedUrl P value) := by
  unfold parseAllowedUrl
  cases hparse : P.parseUrl value none with
  | none => exact sendless_error
  | some url =>
      dsimp only
      split
      · exact sendless_error
      · rename_i hprotocol
        exact Prog.obeys_done ⟨rfl, by tauto⟩

theorem sendless_enforceMethod :
    Sendless (fun _ => method.text ∈ context.policyContext.allowedHttpMethods.getD [] ++
      context.limits.allowedHttpMethods) (enforceMethod context method) := by
  unfold enforceMethod
  dsimp only
  split
  · rename_i hallowed
    exact Prog.obeys_done (mem_distinct.mp hallowed)
  · exact sendless_error

theorem sendless_assertDnsPolicy :
    Sendless (fun _ => PassesDns P context url) (assertDnsPolicy P context url method) := by
  unfold assertDnsPolicy
  split
  · rename_i hfetch
    exact Prog.obeys_done (Or.inl hfetch)
  · split
    · rename_i hprivate
      exact Prog.obeys_done (Or.inr (Or.inl hprivate))
    · split
      · exact sendless_error
      · rename_i hpublic
        refine Prog.obeys_bind (sendless_await rfl) fun addresses _ => ?_
        split
        · exact sendless_error
        · exact Prog.obeys_done (Or.inr (Or.inr (by simpa using hpublic)))

/-- A redirect that is followed leads to a URL that the policy lets through. -/
theorem sendless_followRedirect {location : String} :
    Sendless (fun next => (∃ text base, P.parseUrl text base = some next) ∧
        Permits P context input method next)
      (followRedirect P context input method location current) := by
  unfold followRedirect
  cases hparse : P.parseUrl location (some current) with
  | none => exact Prog.obeys_fail
  | some next =>
      refine Prog.obeys_bind sendless_parseAllowedUrl fun again hagain => ?_
      have hsame : again = next := by
        have hhref := (P.parse_href hparse).2 none
        rw [hagain.1] at hhref
        exact Option.some.inj hhref
      dsimp only
      split
      · exact sendless_error
      · rename_i hallowed
        refine Prog.obeys_done ⟨⟨_, _, hparse⟩, ?_, hallowed⟩
        rw [← hsame]
        exact hagain.2

/-! ### The requests are hops -/

/-- **The loop sends a chain of hops.** -/
theorem fetchFrom_hops (remaining : Nat) (current : Url) (headers : List (String × String)) (s : S)
    (hurl : ∃ text base, P.parseUrl text base = some current)
    (hcurrent : Permits P context input method current) :
    Prog.Shows h observeRequests (fetchFrom P context input method remaining current headers) s
      fun _ _ seen => Hops P context input method remaining current headers seen := by
  induction remaining generalizing current headers s with
  | zero => exact Prog.shows_fail (.none _ _ _)
  | succ remaining ih =>
      unfold fetchFrom
      refine sendless_bind sendless_assertDnsPolicy (fun _ _ => .none _ _ _) fun _ s₁ hdns => ?_
      have hsend : Sendable P context input method current := ⟨hurl, hcurrent, hdns⟩
      refine Prog.shows_bind (Prog.shows_perform ?_)
      cases hfetch : (h (.fetch ⟨current, method, headers, input.body⟩) s₁).1 with
      | error message => exact .last hsend
      | ok outcome =>
          cases outcome with
          | aborted => exact Prog.shows_fail (.last hsend)
          | response response =>
              dsimp only
              cases response.redirect with
              | none => exact Prog.shows_done (.last hsend)
              | some location =>
                  refine sendless_bind sendless_followRedirect (fun _ _ => .last hsend)
                    fun next s₂ hnext => ?_
                  exact (ih next _ s₂ hnext.1 hnext.2).mono fun _ _ seen hseen => .hop hsend hseen

/-- The URL, the headers and the checks that a fetch starts with. -/
structure Starts (P : HttpPlatform) (context : PrimitiveContext) (input : HttpFetchInput) (url : Url)
    (headers : List (String × String)) : Prop where
  parsed : P.parseUrl input.url none = some url
  method : (input.method.getD .get).text ∈ context.policyContext.allowedHttpMethods.getD [] ++
    context.limits.allowedHttpMethods
  permits : Permits P context input (input.method.getD .get) url
  manager : input.auth.isSome = true → context.hasSecretManager = true
  headers : ∃ secret, headers = withoutCookies P input (match input.auth with
    | none => input.headers
    | some auth => setHeader input.headers (headerName auth)
        (auth.scheme.getD "Bearer" ++ " " ++ secret))

/-- What a fetch sends: nothing, or hops from where it starts. -/
def FetchSends (P : HttpPlatform) (context : PrimitiveContext) (input : HttpFetchInput)
    (requests : List HttpRequest) : Prop :=
  requests = [] ∨ ∃ url headers, Starts P context input url headers ∧
    Hops P context input (input.method.getD .get) (redirectLimit context input + 1).toNat url headers
      requests

theorem sendless_authenticate :
    Sendless (fun headers => (input.auth.isSome = true → context.hasSecretManager = true) ∧
      ∃ secret, headers = match input.auth with
        | none => input.headers
        | some auth => setHeader input.headers (headerName auth)
            (auth.scheme.getD "Bearer" ++ " " ++ secret)) (authenticate context input) := by
  unfold authenticate
  cases input.auth with
  | none => exact Prog.obeys_done ⟨nofun, "", rfl⟩
  | some auth =>
      dsimp only
      unfold resolveRef
      split
      · rename_i hmanager
        refine Prog.obeys_bind (sendless_await rfl) fun secret _ => ?_
        exact Prog.obeys_done ⟨fun _ => hmanager, secret, rfl⟩
      · exact Prog.obeys_fail

theorem sendless_captureBody {response : HttpResponse} {text : String} :
    Sendless (fun _ => True) (captureBody context input url response text) := by
  unfold captureBody
  split
  · trivial
  · refine Prog.obeys_bind (Q := fun _ => True) ?_ fun artifactId _ => ?_
    · unfold capturedArtifactId
      split
      · trivial
      · exact Prog.obeys_bind (sendless_await rfl) fun _ _ => trivial
    · split
      · trivial
      · exact Prog.obeys_bind (sendless_await rfl) fun _ _ => trivial

theorem httpFetch_sends (s : S) :
    FetchSends P context input (requestsOf (Prog.exec h (httpFetch P context input) s)) := by
  have hshows : Prog.Shows h observeRequests (httpFetch P context input) s
      fun _ _ seen => FetchSends P context input seen := by
    have hnone : FetchSends P context input [] := Or.inl rfl
    unfold httpFetch
    refine sendless_bind sendless_parseAllowedUrl (fun _ _ => hnone) fun url s₁ hurl => ?_
    refine sendless_bind sendless_enforceMethod (fun _ _ => hnone) fun _ s₂ hmethod => ?_
    dsimp only
    split
    · exact Prog.shows_fail hnone
    · rename_i hallowed
      refine sendless_bind sendless_authenticate (fun _ _ => hnone) fun headers s₃ hheaders => ?_
      obtain ⟨hmanager, secret, rfl⟩ := hheaders
      have hstarts : ∀ seen, Hops P context input (input.method.getD .get)
          (redirectLimit context input + 1).toNat url _ seen → FetchSends P context input seen :=
        fun seen hseen => Or.inr ⟨url, _, ⟨hurl.1, hmethod, ⟨hurl.2, hallowed⟩, hmanager,
          secret, rfl⟩, hseen⟩
      refine Prog.shows_bind ((fetchFrom_hops _ _ _ _ ⟨_, _, hurl.1⟩ ⟨hurl.2, hallowed⟩).mono ?_)
      intro out s₄ seen hseen
      cases out with
      | error message => exact hstarts seen hseen
      | ok response =>
          have hpassed : FetchSends P context input (seen ++ []) := by
            rw [List.append_nil]
            exact hstarts seen hseen
          refine sendless_bind (Q := fun _ => True) ?_ (fun _ _ => hpassed) fun _ s₅ _ => ?_
          · unfold enforceContentType
            split
            · trivial
            · dsimp only
              split
              · trivial
              · exact sendless_error
          refine sendless_bind (sendless_await rfl) (fun _ _ => hpassed) fun bytes s₆ _ => ?_
          split
          · exact Prog.shows_fail hpassed
          · exact sendless_bind sendless_captureBody (fun _ _ => hpassed) fun _ s₇ _ =>
              Prog.shows_done hpassed
  exact hshows

/-! ### What holds of all hops -/

theorem Hops.first (hhops : Hops P context input method remaining current headers requests) :
    requests = [] ∨ Sendable P context input method current := by
  cases hhops with
  | none => exact Or.inl rfl
  | last hsend => exact Or.inr hsend
  | hop hsend hlater => exact Or.inr hsend

theorem Hops.length_le (hhops : Hops P context input method remaining current headers requests) :
    requests.length ≤ remaining := by
  induction hhops with
  | none => exact Nat.zero_le _
  | last => exact Nat.succ_le_succ (Nat.zero_le _)
  | hop hsend hlater ih => exact Nat.succ_le_succ ih

theorem Hops.sendable (hhops : Hops P context input method remaining current headers requests) :
    ∀ request ∈ requests, Sendable P context input method request.url ∧ request.method = method := by
  induction hhops with
  | none => exact fun _ h => by cases h
  | last hsend =>
      intro request hrequest
      rw [List.mem_singleton.mp hrequest]
      exact ⟨hsend, rfl⟩
  | hop hsend hlater ih =>
      intro request hrequest
      rcases List.mem_cons.mp hrequest with rfl | hrequest
      · exact ⟨hsend, rfl⟩
      · exact ih request hrequest

/-- The headers of the hops are among those that the first one has. -/
theorem Hops.headers_subset (hhops : Hops P context input method remaining current headers requests) :
    ∀ request ∈ requests, request.headers ⊆ headers := by
  induction hhops with
  | none => exact fun _ h => by cases h
  | last =>
      intro request hrequest
      rw [List.mem_singleton.mp hrequest]
      exact List.Subset.refl _
  | hop hsend hlater ih =>
      intro request hrequest
      rcases List.mem_cons.mp hrequest with rfl | hrequest
      · exact List.Subset.refl _
      · refine List.Subset.trans (ih request hrequest) ?_
        unfold headersTo
        split
        · exact List.filter_sublist.subset
        · exact List.Subset.refl _

/-! ### Where the secret goes -/

def HttpRequest.carries (request : HttpRequest) (name : String) : Bool :=
  request.headers.any (·.1 = name)

/-- A request with the header of this name comes before every change of origin. -/
def KeptAtOrigin (name : String) (requests : List HttpRequest) : Prop :=
  ∀ before request after, requests = before ++ request :: after → request.carries name = true →
    ∀ earlier ∈ before, earlier.url.origin = request.url.origin

/-- What the requests of a fetch have to be like. -/
structure FetchKept (P : HttpPlatform) (context : PrimitiveContext) (input : HttpFetchInput)
    (requests : List HttpRequest) : Prop where
  secret : ∀ auth, input.auth = some auth → KeptAtOrigin (headerName auth) requests
  permitted : ∀ request ∈ requests, Permits P context input request.method request.url
  bounded : requests.length ≤ (redirectLimit context input + 1).toNat

/-- A redirect can lead from the URL of the input to another origin. -/
def CanLeave (P : HttpPlatform) (context : PrimitiveContext) (input : HttpFetchInput) : Prop :=
  ∃ url other, P.parseUrl input.url none = some url ∧
    (input.method.getD .get).text ∈ context.policyContext.allowedHttpMethods.getD [] ++
      context.limits.allowedHttpMethods ∧
    context.hasSecretManager = true ∧ 1 ≤ redirectLimit context input ∧
    Sendable P context input (input.method.getD .get) url ∧
    Sendable P context input (input.method.getD .get) other ∧ other.origin ≠ url.origin

/-- The secret travels under a name that is stripped, or under none, or no redirect can lead to
another origin. -/
def SecretStays (P : HttpPlatform) (context : PrimitiveContext) (input : HttpFetchInput) : Prop :=
  ∀ auth, input.auth = some auth →
    P.toLowerCase (headerName auth) ∈ sensitiveHeaders ∨
      (headerName auth = "__proto__" ∧ input.headers.any (·.1 = headerName auth) = false) ∨
      ¬ CanLeave P context input

/-- All hops up to one that has the header are at the first origin. -/
theorem Hops.secret {name : String} (hname : P.toLowerCase name ∈ sensitiveHeaders)
    (hhops : Hops P context input method remaining current headers requests) :
    ∀ before request after, requests = before ++ request :: after → request.carries name = true →
      request.url.origin = current.origin ∧
        ∀ earlier ∈ before, earlier.url.origin = current.origin := by
  induction hhops with
  | none =>
      intro before request after hsplit
      simp at hsplit
  | last =>
      intro before request after hsplit _
      rcases List.cons_eq_append_iff.mp hsplit with ⟨rfl, hrest⟩ | ⟨before', rfl, hrest⟩
      · obtain ⟨rfl, -⟩ := List.cons.inj hrest
        exact ⟨rfl, nofun⟩
      · simp at hrest
  | @hop remaining current next headers later hsend hlater ih =>
      intro before request after hsplit hcarries
      rcases List.cons_eq_append_iff.mp hsplit with ⟨rfl, hrest⟩ | ⟨before', rfl, hrest⟩
      · obtain ⟨rfl, -⟩ := List.cons.inj hrest
        exact ⟨rfl, nofun⟩
      · have hin : request ∈ later := by
          rw [hrest]
          exact List.mem_append_right _ List.mem_cons_self
        -- the header would have been stripped on the way to another origin
        have horigin : next.origin = current.origin := by
          by_contra hother
          obtain ⟨header, hheader, hsame⟩ := List.any_eq_true.mp hcarries
          have hkept := hlater.headers_subset request hin hheader
          unfold headersTo at hkept
          rw [if_pos hother] at hkept
          have hallowed := (List.mem_filter.mp hkept).2
          rw [of_decide_eq_true hsame] at hallowed
          simp [hname] at hallowed
        obtain ⟨hrequest, hbefore⟩ := ih before' request after hrest hcarries
        refine ⟨hrequest.trans horigin, fun earlier hearlier => ?_⟩
        rcases List.mem_cons.mp hearlier with rfl | hearlier
        · rfl
        · exact (hbefore earlier hearlier).trans horigin

/-- A header that is set under a name nobody can set is not there. -/
theorem setHeader_proto {name value : String} (hname : name = "__proto__")
    (hown : headers.any (·.1 = name) = false) : setHeader headers name value = headers := by
  unfold setHeader
  rw [hown, if_neg (by simp), if_pos hname]

theorem withoutCookies_subset : withoutCookies P input headers ⊆ headers := by
  unfold withoutCookies
  split
  · exact List.Subset.refl _
  · exact List.filter_sublist.subset

/-- The hops of a fetch whose secret stays. -/
theorem Starts.secret {auth : HttpAuthInput} (hstarts : Starts P context input url headers)
    (hauth : input.auth = some auth) (hstays : SecretStays P context input)
    (hhops : Hops P context input (input.method.getD .get)
      (redirectLimit context input + 1).toNat url headers requests) :
    KeptAtOrigin (headerName auth) requests := by
  intro before request after hsplit hcarries earlier hearlier
  rcases hstays auth hauth with hname | ⟨hproto, hown⟩ | hleave
  · obtain ⟨hrequest, hbefore⟩ := hhops.secret hname before request after hsplit hcarries
    exact (hbefore earlier hearlier).trans hrequest.symm
  · obtain ⟨header, hheader, hsame⟩ := List.any_eq_true.mp hcarries
    have hin : request ∈ requests := by
      rw [hsplit]
      exact List.mem_append_right _ List.mem_cons_self
    have hkept := hhops.headers_subset request hin hheader
    obtain ⟨secret, hheaders⟩ := hstarts.headers
    rw [hauth] at hheaders
    dsimp only at hheaders
    rw [setHeader_proto hproto hown] at hheaders
    rw [hheaders] at hkept
    have hgiven : input.headers.any (·.1 = headerName auth) = true :=
      List.any_eq_true.mpr ⟨header, withoutCookies_subset hkept, hsame⟩
    rw [hown] at hgiven
    cases hgiven
  · -- every request is at the origin of the first URL
    have hlong : 2 ≤ requests.length := by
      rw [hsplit, List.length_append, List.length_cons]
      have := List.length_pos_of_mem hearlier
      omega
    have hlimit : 1 ≤ redirectLimit context input := by
      have := hhops.length_le
      omega
    have hmanager := hstarts.manager (by rw [hauth]; rfl)
    have hfirst : Sendable P context input (input.method.getD .get) url := by
      rcases hhops.first with rfl | hsend
      · simp at hlong
      · exact hsend
    have hall : ∀ other ∈ requests, other.url.origin = url.origin := by
      intro other hother
      by_contra hdifferent
      exact hleave ⟨url, other.url, hstarts.parsed, hstarts.method, hmanager, hlimit, hfirst,
        (hhops.sendable other hother).1, hdifferent⟩
    have hin : request ∈ requests ∧ earlier ∈ requests := by
      rw [hsplit]
      exact ⟨List.mem_append_right _ List.mem_cons_self, List.mem_append_left _ hearlier⟩
    rw [hall request hin.1, hall earlier hin.2]

theorem FetchSends.kept (hsends : FetchSends P context input requests)
    (hstays : SecretStays P context input) : FetchKept P context input requests := by
  rcases hsends with rfl | ⟨url, headers, hstarts, hhops⟩
  · refine ⟨?_, nofun, Nat.zero_le _⟩
    intro auth _ before request after hsplit
    simp at hsplit
  · refine ⟨fun auth hauth => hstarts.secret hauth hstays hhops, ?_, hhops.length_le⟩
    intro request hrequest
    obtain ⟨hsend, hmethod⟩ := hhops.sendable request hrequest
    rw [hmethod]
    exact hsend.permits

/-! ### A server that redirects -/

/-- The server redirects `url` to `location`, and answers anything else. -/
def redirectingAnswer (url : Url) (location : String) : (call : HttpCall) → HttpAnswer call
  | .resolveSecret _ => "secret"
  | .lookup _ => []
  | .fetch request =>
      if request.url = url then .response ⟨302, "", [("location", location)]⟩
      else .response ⟨200, "", []⟩
  | .arrayBuffer _ => []
  | .dateNow => (0 : Nat)
  | .writeArtifact _ => ()

def redirecting (url : Url) (location : String) : Prog.Handler HttpCall HttpAnswer Unit :=
  fun call s => (.ok (redirectingAnswer url location call), s)

/-- Run alone, the program returns `a` and sends nothing. -/
def PassesQuietly {α : Type} (h : Prog.Handler HttpCall HttpAnswer Unit) (program : HttpProgram α)
    (a : α) : Prop :=
  (Prog.exec h program ()).outcome = .ok a ∧ requestsOf (Prog.exec h program ()) = []

section Redirecting

variable {h : Prog.Handler HttpCall HttpAnswer Unit} {other : Url} {location : String}

theorem requestsOf_bind_quiet {α β : Type} {program : HttpProgram α} {a : α}
    (hp : PassesQuietly h program a) (f : α → HttpProgram β) :
    requestsOf (Prog.exec h (program.bind f) ()) = requestsOf (Prog.exec h (f a) ()) := by
  obtain ⟨hout, hseen⟩ := hp
  unfold requestsOf at hseen ⊢
  rw [Prog.exec_bind_ok h f hout, List.filterMap_append, hseen, List.nil_append]

/-- What the first part sends is sent first. -/
theorem requestsOf_bind_left {α β : Type} (program : HttpProgram α) (f : α → HttpProgram β) :
    ∃ later, requestsOf (Prog.exec h (program.bind f) ()) =
      requestsOf (Prog.exec h program ()) ++ later := by
  unfold requestsOf
  cases hout : (Prog.exec h program ()).outcome with
  | error message =>
      rw [Prog.exec_bind_error h f hout]
      exact ⟨[], (List.append_nil _).symm⟩
  | ok a =>
      rw [Prog.exec_bind_ok h f hout, List.filterMap_append]
      exact ⟨_, rfl⟩

theorem parseAllowedUrl_quiet {value : String} (hparse : P.parseUrl value none = some url)
    (hprotocol : url.protocol = "http:" ∨ url.protocol = "https:") :
    PassesQuietly h (parseAllowedUrl P value) url := by
  have hrefused : ¬ (url.protocol ≠ "http:" ∧ url.protocol ≠ "https:") := by tauto
  unfold parseAllowedUrl
  rw [hparse]
  dsimp only
  rw [if_neg hrefused]
  exact ⟨rfl, rfl⟩

theorem enforceMethod_quiet (hmethod : method.text ∈
      context.policyContext.allowedHttpMethods.getD [] ++ context.limits.allowedHttpMethods) :
    PassesQuietly h (enforceMethod context method) () := by
  unfold enforceMethod
  dsimp only
  rw [if_pos (mem_distinct.mpr hmethod)]
  exact ⟨rfl, rfl⟩

theorem assertDnsPolicy_quiet (hdns : PassesDns P context current) :
    PassesQuietly (redirecting url location) (assertDnsPolicy P context current method) () := by
  unfold assertDnsPolicy
  split
  · exact ⟨rfl, rfl⟩
  · rename_i hfetch
    split
    · exact ⟨rfl, rfl⟩
    · rename_i hprivate
      rcases hdns with hdns | hdns | hdns
      · exact (hfetch hdns).elim
      · exact (hprivate hdns).elim
      · rw [hdns]
        exact ⟨rfl, rfl⟩

variable (current) in
theorem followRedirect_quiet (hother : Sendable P context input method other) :
    PassesQuietly h (followRedirect P context input method other.href current) other := by
  obtain ⟨⟨text, base, hparse⟩, ⟨hprotocol, hallowed⟩, -⟩ := hother
  obtain ⟨-, hhref⟩ := P.parse_href hparse
  unfold followRedirect
  rw [hhref (some current)]
  dsimp only
  unfold PassesQuietly
  obtain ⟨hout, hseen⟩ := parseAllowedUrl_quiet (h := h) (hhref none) hprotocol
  rw [Prog.bind_eq, Prog.exec_bind_ok h _ hout, requestsOf, List.filterMap_append]
  rw [if_neg hallowed]
  refine ⟨rfl, ?_⟩
  unfold requestsOf at hseen
  rw [hseen]
  rfl

variable (remaining url headers location) in
/-- A request that may be sent is sent. -/
theorem fetchFrom_first (hurl : Sendable P context input method current) :
    ∃ later, requestsOf (Prog.exec (redirecting url location)
        (fetchFrom P context input method (remaining + 1) current headers) ()) =
      ⟨current, method, headers, input.body⟩ :: later := by
  unfold fetchFrom
  rw [Prog.bind_eq, requestsOf_bind_quiet (assertDnsPolicy_quiet hurl.dns), Prog.bind_eq]
  obtain ⟨later, hlater⟩ := requestsOf_bind_left (h := redirecting url location)
    (Http.await (.fetch ⟨current, method, headers, input.body⟩)) _
  refine ⟨later, hlater.trans ?_⟩
  unfold requestsOf
  rw [Prog.exec_perform]
  rfl

variable (remaining headers) in
/-- A redirect that may be followed is followed. -/
theorem fetchFrom_redirected (hurl : Sendable P context input method url)
    (hother : Sendable P context input method other) :
    ∃ later, requestsOf (Prog.exec (redirecting url other.href)
        (fetchFrom P context input method (remaining + 2) url headers) ()) =
      ⟨url, method, headers, input.body⟩ ::
        ⟨other, method, headersTo P url other headers, input.body⟩ :: later := by
  obtain ⟨text, base, hparse⟩ := hother.isUrl
  have hlocation : other.href ≠ "" := (P.parse_href hparse).1
  obtain ⟨later, hlater⟩ := fetchFrom_first remaining url (headersTo P url other headers)
    other.href hother
  refine ⟨later, ?_⟩
  rw [fetchFrom]
  rw [Prog.bind_eq, requestsOf_bind_quiet (assertDnsPolicy_quiet hurl.dns), Prog.bind_eq]
  have hfetch : redirecting url other.href (.fetch ⟨url, method, headers, input.body⟩) () =
      (.ok (.response ⟨302, "", [("location", other.href)]⟩), ()) := by
    simp [redirecting, redirectingAnswer]
  have hredirect : (HttpResponse.redirect ⟨302, "", [("location", other.href)]⟩) =
      some other.href := by
    simp [HttpResponse.redirect, HttpResponse.header, hlocation]
  unfold requestsOf at hlater ⊢
  rw [Prog.exec_perform_bind_ok _ _ hfetch]
  dsimp only
  rw [List.filterMap_cons_some (f := observeRequests)
    (b := ⟨url, method, headers, input.body⟩) rfl]
  rw [hredirect]
  dsimp only
  have hfollow := requestsOf_bind_quiet (followRedirect_quiet (h := redirecting url other.href)
    url hother) fun next => fetchFrom P context input method (remaining + 1) next
      (if next.origin ≠ url.origin then stripSensitiveHeaders P headers else headers)
  unfold requestsOf at hfollow
  rw [Prog.bind_eq, hfollow, show (if other.origin ≠ url.origin then stripSensitiveHeaders P headers
    else headers) = headersTo P url other headers from rfl, hlater]

/-- The headers that a fetch from this input starts with, with the secret of the server. -/
def givenHeaders (P : HttpPlatform) (input : HttpFetchInput) : List (String × String) :=
  withoutCookies P input (match input.auth with
    | none => input.headers
    | some auth => setHeader input.headers (headerName auth) (auth.scheme.getD "Bearer" ++ " " ++ "secret"))

theorem authenticate_quiet (hmanager : input.auth.isSome = true → context.hasSecretManager = true) :
    PassesQuietly (redirecting url location) (authenticate context input)
      (match input.auth with
        | none => input.headers
        | some auth => setHeader input.headers (headerName auth)
            (auth.scheme.getD "Bearer" ++ " " ++ "secret")) := by
  unfold authenticate
  cases hauth : input.auth with
  | none => exact ⟨rfl, rfl⟩
  | some auth =>
      have hsome := hmanager (by rw [hauth]; rfl)
      unfold resolveRef
      dsimp only
      rw [if_pos hsome]
      exact ⟨rfl, rfl⟩

variable (current location) in
/-- What the loop sends, the fetch sends. -/
theorem httpFetch_from (hparse : P.parseUrl input.url none = some url)
    (hmethod : (input.method.getD .get).text ∈
      context.policyContext.allowedHttpMethods.getD [] ++ context.limits.allowedHttpMethods)
    (hmanager : input.auth.isSome = true → context.hasSecretManager = true)
    (hurl : Sendable P context input (input.method.getD .get) url) :
    ∃ later, requestsOf (Prog.exec (redirecting current location) (httpFetch P context input) ()) =
      requestsOf (Prog.exec (redirecting current location)
        (fetchFrom P context input (input.method.getD .get)
          (redirectLimit context input + 1).toNat url (givenHeaders P input)) ()) ++ later := by
  unfold httpFetch
  rw [Prog.bind_eq, requestsOf_bind_quiet (parseAllowedUrl_quiet hparse hurl.permits.1)]
  rw [Prog.bind_eq, requestsOf_bind_quiet (enforceMethod_quiet hmethod)]
  dsimp only
  rw [if_neg hurl.permits.2]
  rw [Prog.bind_eq, requestsOf_bind_quiet (authenticate_quiet hmanager)]
  exact requestsOf_bind_left _ _

end Redirecting

/-! ### The secret stays exactly when it is stripped -/

theorem mem_setHeader {name : String} (value : String)
    (hset : ¬ (name = "__proto__" ∧ headers.any (·.1 = name) = false)) :
    (name, value) ∈ setHeader headers name value := by
  unfold setHeader
  split
  · rename_i hown
    obtain ⟨header, hheader, hsame⟩ := List.any_eq_true.mp hown
    refine List.mem_map.mpr ⟨header, hheader, ?_⟩
    rw [if_pos (of_decide_eq_true hsame)]
  · rename_i hown
    rw [if_neg fun hproto => hset ⟨hproto, Bool.not_eq_true _ ▸ hown⟩]
    exact List.mem_append_right _ List.mem_cons_self

/-- A header whose name is not stripped is there after a change of origin, too. -/
theorem headersTo_givenHeaders {auth : HttpAuthInput} {next : Url}
    (hauth : input.auth = some auth) (hname : P.toLowerCase (headerName auth) ∉ sensitiveHeaders)
    (hset : ¬ (headerName auth = "__proto__" ∧
      input.headers.any (·.1 = headerName auth) = false)) :
    (headersTo P current next (givenHeaders P input)).any (·.1 = headerName auth) = true := by
  have hmem := mem_setHeader (auth.scheme.getD "Bearer" ++ " " ++ "secret") hset
  refine List.any_eq_true.mpr
    ⟨(headerName auth, auth.scheme.getD "Bearer" ++ " " ++ "secret"), ?_, decide_eq_true rfl⟩
  have hgiven : (headerName auth, auth.scheme.getD "Bearer" ++ " " ++ "secret") ∈
      givenHeaders P input := by
    unfold givenHeaders withoutCookies
    rw [hauth]
    dsimp only
    split
    · exact hmem
    · refine List.mem_filter.mpr ⟨hmem, decide_eq_true fun hcookie => hname ?_⟩
      rw [hcookie]
      simp [sensitiveHeaders]
  unfold headersTo
  split
  · exact List.mem_filter.mpr ⟨hgiven, decide_eq_true hname⟩
  · exact hgiven

/-- **A redirect takes a secret along that is not stripped.** -/
theorem stays_of_kept (hkept : ∀ url location, FetchKept P context input
      (requestsOf (Prog.exec (redirecting url location) (httpFetch P context input) ()))) :
    SecretStays P context input := by
  intro auth hauth
  by_contra hnot
  push Not at hnot
  obtain ⟨hname, hset, url, other, hparse, hmethod, hmanager, hlimit, hurl, hother, horigin⟩ := hnot
  obtain ⟨more, hmore⟩ := httpFetch_from url other.href hparse hmethod
    (fun _ => hmanager) hurl
  have hcount : (redirectLimit context input + 1).toNat =
      (redirectLimit context input - 1).toNat + 2 := by omega
  obtain ⟨later, hlater⟩ := fetchFrom_redirected (redirectLimit context input - 1).toNat
    (givenHeaders P input) hurl hother
  rw [hcount, hlater] at hmore
  have hsecret := (hkept url other.href).secret auth hauth
    [⟨url, input.method.getD .get, givenHeaders P input, input.body⟩] _ _ hmore ?_ _
    List.mem_cons_self
  · exact horigin hsecret.symm
  · exact headersTo_givenHeaders hauth hname (by simpa using hset)

/-- **Where the secret goes.**  Whatever the server and the other services answer, the requests of
a fetch are permitted and no more than the limit allows, and the header with the secret is never
sent after a change of origin, exactly when it travels under a name that is stripped, or under
none, or no redirect can lead to another origin. -/
theorem httpFetch_kept_iff (P : HttpPlatform) (context : PrimitiveContext)
    (input : HttpFetchInput) :
    (∀ (S : Type) (h : Prog.Handler HttpCall HttpAnswer S) (s : S),
        FetchKept P context input (requestsOf (Prog.exec h (httpFetch P context input) s))) ↔
      SecretStays P context input := by
  constructor
  · intro hkept
    exact stays_of_kept fun url location => hkept Unit (redirecting url location) ()
  · intro hstays S h s
    exact (httpFetch_sends s).kept hstays

/-! ### A secret that goes elsewhere -/

def sampleUrl (origin hostname : String) : Url :=
  ⟨origin ++ "/", "https:", origin, hostname⟩

def apiUrl : Url := sampleUrl "https://api.example" "api.example"

def otherUrl : Url := sampleUrl "https://other.example" "other.example"

def sampleHttpPlatform : HttpPlatform where
  parseUrl text _ := [apiUrl, otherUrl].find? (·.href = text)
  parse_href := by
    intro text base url hparse
    have hmem := List.mem_of_find?_eq_some hparse
    rcases List.mem_cons.mp hmem with rfl | hmem
    · exact ⟨by decide, fun _ => by decide +kernel⟩
    · obtain rfl := List.mem_singleton.mp hmem
      exact ⟨by decide, fun _ => by decide +kernel⟩
  toLowerCase text := String.ofList (text.toList.map Char.toLower)
  decode _ := ""

def sampleHttpContext : PrimitiveContext where
  packId := "open-lagrange.http"
  capabilityId := "http.fetch"
  traceId := "trace"
  policyContext := ⟨none, none, none, none⟩
  limits := ⟨5, 1000, ["GET"], false⟩
  hasSecretManager := true
  hasFetchImpl := false
  redactHeaders headers := headers
  redactText text := text

/-- A fetch that authenticates under the header name `header`. -/
def authenticatedFetch (header : String) : HttpFetchInput where
  url := "https://api.example/"
  method := none
  headers := []
  body := none
  maxBytes := none
  redirectLimit := none
  allowedHosts := none
  deniedHosts := none
  acceptedContentTypes := []
  auth := some ⟨some header, some "Token", none, "api", none⟩
  captureBodyAsArtifact := false
  artifactId := none
  artifactKind := none
  allowCookies := false

/-- A redirect takes the secret under `X-Auth-Token` to another origin. -/
theorem authToken_leaves :
    ¬ FetchKept sampleHttpPlatform sampleHttpContext (authenticatedFetch "X-Auth-Token")
      (requestsOf (Prog.exec (redirecting apiUrl "https://other.example/")
        (httpFetch sampleHttpPlatform sampleHttpContext (authenticatedFetch "X-Auth-Token")) ())) := by
  intro hkept
  have hrequests : requestsOf (Prog.exec (redirecting apiUrl "https://other.example/")
      (httpFetch sampleHttpPlatform sampleHttpContext (authenticatedFetch "X-Auth-Token")) ()) =
      [⟨apiUrl, .get, [("X-Auth-Token", "Token secret")], none⟩,
        ⟨otherUrl, .get, [("X-Auth-Token", "Token secret")], none⟩] := by
    decide +kernel
  have hsame := hkept.secret _ rfl [⟨apiUrl, .get, [("X-Auth-Token", "Token secret")], none⟩]
    ⟨otherUrl, .get, [("X-Auth-Token", "Token secret")], none⟩ [] hrequests (by decide) _
    List.mem_cons_self
  exact absurd hsame (by decide)

end OpenLagrange
