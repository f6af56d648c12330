/-
Whether an input can only narrow what its context permits.

The host lists of an input do not meet those of the context, they take their place; the method
lists of the context and of its limits are joined, not met.  So an input narrows the context only
where the lists that are used happen to let nothing through that the context's own would not; and
the first host that an input denies lets the hosts through again that the context denies.
-/
import OpenLagrange.Proofs.HttpFetch

namespace OpenLagrange

open Http

/-! ### Host lists -/

structure HostLists where
  allowed : List String
  denied : List String

def HostLists.LetsThrough (lists : HostLists) (host : String) : Prop :=
  host ∉ lists.denied ∧ (lists.allowed ≠ [] → host ∈ lists.allowed)

/-- The lists of the context. -/
def ownLists (context : PrimitiveContext) : HostLists :=
  ⟨context.policyContext.allowedHosts.getD [], context.policyContext.deniedHosts.getD []⟩

/-- The lists that a request is checked against. -/
def usedLists (context : PrimitiveContext) (input : HttpFetchInput) : HostLists :=
  ⟨(input.allowedHosts.or context.policyContext.allowedHosts).getD [],
    (input.deniedHosts.or context.policyContext.deniedHosts).getD []⟩

theorem subset_with_entry (host : String) (before after : List String) :
    before ++ after ⊆ before ++ host :: after :=
  ((List.sublist_cons_self host after).append_left before).subset

theorem HostLists.LetsThrough.mono {lists lists' : HostLists} {host : String}
    (hlets : lists'.LetsThrough host) (hdenied : lists.denied ⊆ lists'.denied)
    (hallowed : lists.allowed ≠ [] → lists'.allowed ≠ [] ∧ lists'.allowed ⊆ lists.allowed) :
    lists.LetsThrough host := by
  refine ⟨fun hmem => hlets.1 (hdenied hmem), fun hsome => ?_⟩
  obtain ⟨hsome', hsub⟩ := hallowed hsome
  exact hsub (hlets.2 hsome')

theorem evaluateNetwork_permits {context : PrimitiveContext} {text host : String}
    {allowed denied : Option (List String)} {isPrivate : Bool} :
    (evaluateNetwork context ⟨text, host, allowed, denied, isPrivate⟩).decision ≠ .deny ↔
      HostLists.LetsThrough ⟨(allowed.or context.policyContext.allowedHosts).getD [],
        (denied.or context.policyContext.deniedHosts).getD []⟩ host ∧
      (isPrivate = true → allowsPrivateNetwork context = true) := by
  unfold evaluateNetwork HostLists.LetsThrough
  dsimp only
  by_cases hdenied : host ∈ (denied.or context.policyContext.deniedHosts).getD []
  · rw [if_pos hdenied]
    exact ⟨fun hne => (hne rfl).elim, fun h => (h.1.1 hdenied).elim⟩
  rw [if_neg hdenied]
  by_cases hallowed : (allowed.or context.policyContext.allowedHosts).getD [] ≠ [] →
      host ∈ (allowed.or context.policyContext.allowedHosts).getD []
  · rw [if_neg fun h => h.2 (hallowed (List.ne_nil_of_length_pos h.1))]
    by_cases hprivate : isPrivate = true → allowsPrivateNetwork context = true
    · refine iff_of_true ?_ ⟨⟨hdenied, hallowed⟩, hprivate⟩
      rw [if_neg]
      · exact fun h => by cases h
      · rintro ⟨hp, hpolicy, hlimits⟩
        have hallows := hprivate hp
        unfold allowsPrivateNetwork at hallows
        rcases of_decide_eq_true hallows with h | h
        · exact hpolicy h
        · exact hlimits h
    · refine iff_of_false (fun hne => hne ?_) fun h => hprivate h.2
      rw [if_pos]
      · rfl
      · simp only [allowsPrivateNetwork, decide_eq_true_eq] at hprivate
        push Not at hprivate
        exact ⟨hprivate.1, hprivate.2.1, hprivate.2.2⟩
  · refine iff_of_false (fun hne => hne ?_) fun h => hallowed h.1.2
    push Not at hallowed
    rw [if_pos ⟨List.length_pos_iff.mpr hallowed.1, hallowed.2⟩]
    rfl

/-! ### Tightening -/

/-- One step that tightens the lists or the switches. -/
inductive Tightens : PrimitiveContext → HttpFetchInput → PrimitiveContext → HttpFetchInput → Prop
  | denyInContext {context : PrimitiveContext} {input : HttpFetchInput} (host : String)
      (before after : List String)
      (hdenied : context.policyContext.deniedHosts.getD [] = before ++ after) :
      Tightens context input
        { context with policyContext :=
          { context.policyContext with deniedHosts := some (before ++ host :: after) } } input
  | denyInInput {context : PrimitiveContext} {input : HttpFetchInput} (host : String)
      (before after : List String)
      (hdenied : input.deniedHosts.getD [] = before ++ after) :
      Tightens context input context { input with deniedHosts := some (before ++ host :: after) }
  | unallowInContext {context : PrimitiveContext} {input : HttpFetchInput} (host : String)
      (before after : List String)
      (hallowed : context.policyContext.allowedHosts = some (before ++ host :: after))
      (hleft : before ++ after ≠ []) :
      Tightens context input
        { context with policyContext :=
          { context.policyContext with allowedHosts := some (before ++ after) } } input
  | unallowInInput {context : PrimitiveContext} {input : HttpFetchInput} (host : String)
      (before after : List String)
      (hallowed : input.allowedHosts = some (before ++ host :: after))
      (hleft : before ++ after ≠ []) :
      Tightens context input context { input with allowedHosts := some (before ++ after) }
  | privateOffInContext {context : PrimitiveContext} {input : HttpFetchInput} :
      Tightens context input
        { context with policyContext :=
          { context.policyContext with allowPrivateNetwork := some false } } input
  | privateOffInLimits {context : PrimitiveContext} {input : HttpFetchInput} :
      Tightens context input
        { context with limits := { context.limits with allowPrivateNetwork := false } } input

section Conditions

variable (P : HttpPlatform) (context : PrimitiveContext) (input : HttpFetchInput)

/-! ### What the context permits -/

/-- Every list of methods that is set has the method. -/
def MethodListed (method : HttpMethod) : Prop :=
  (∀ methods, context.policyContext.allowedHttpMethods = some methods → method.text ∈ methods) ∧
    method.text ∈ context.limits.allowedHttpMethods

/-- The context permits the request, by its own lists. -/
def OwnPermits (request : HttpRequest) : Prop :=
  (evaluateNetwork context ⟨request.method.text, request.url.hostname, none, none,
    isLocalOrPrivateHost P.toLowerCase request.url.hostname⟩).decision ≠ .deny ∧
  MethodListed context request.method

/-- A resolver that answers every name with these addresses. -/
def resolving (addresses : List String) : Prog.Handler HttpCall HttpAnswer Unit
  | .lookup _, s => (.ok addresses, s)
  | _, s => (.error "no service", s)

/-- The request to a URL is let through, where its host has these addresses. -/
structure Allows (method : HttpMethod) (addresses : List String) (url : Url) : Prop where
  permits : Permits P context input method url
  listed : (Prog.exec (resolving addresses) (enforceMethod context method) ()).outcome = .ok ()
  dns : (Prog.exec (resolving addresses) (assertDnsPolicy P context url method) ()).outcome = .ok ()

/-- What an input can do to the context's policy: narrow it. -/
structure Narrows : Prop where
  sent : ∀ (S : Type) (h : Prog.Handler HttpCall HttpAnswer S) (s : S),
    ∀ request ∈ requestsOf (Prog.exec h (httpFetch P context input) s), OwnPermits P context request
  tightened : ∀ context' input', Tightens context input context' input' →
    ∀ url method addresses, (∃ text base, P.parseUrl text base = some url) →
      Allows P context' input' method addresses url → Allows P context input method addresses url

/-! ### When it does -/

/-- The first request of a fetch goes to `url`. -/
structure SendsFirst (url : Url) : Prop where
  parsed : P.parseUrl input.url none = some url
  method : (input.method.getD .get).text ∈ context.policyContext.allowedHttpMethods.getD [] ++
    context.limits.allowedHttpMethods
  manager : input.auth.isSome = true → context.hasSecretManager = true
  sendable : Sendable P context input (input.method.getD .get) url
  limit : 0 ≤ redirectLimit context input

/-- A server can make the fetch send a request to `other`. -/
def Reaches (other : Url) : Prop :=
  ∃ url, SendsFirst P context input url ∧ (other = url ∨
    1 ≤ redirectLimit context input ∧ Sendable P context input (input.method.getD .get) other)

/-- The lists that are used let nothing through that the context's own do not, and no host is
denied by the context alone. -/
structure ListsNarrow : Prop where
  hosts : ∀ other, Reaches P context input other → (ownLists context).LetsThrough other.hostname
  method : (∃ other, Reaches P context input other) → MethodListed context (input.method.getD .get)
  denied : input.deniedHosts = none → ∀ url method addresses,
    (∃ text base, P.parseUrl text base = some url) →
      Allows P context { input with deniedHosts := some [] } method addresses url →
      url.hostname ∉ context.policyContext.deniedHosts.getD []

end Conditions

variable {P : HttpPlatform} {context context' : PrimitiveContext} {input input' : HttpFetchInput}
  {method : HttpMethod} {url other : Url} {addresses : List String}

/-! ### What the checks come to -/

theorem permits_iff : Permits P context input method url ↔
    (url.protocol = "http:" ∨ url.protocol = "https:") ∧
      (usedLists context input).LetsThrough url.hostname ∧
      (isLocalOrPrivateHost P.toLowerCase url.hostname = true →
        allowsPrivateNetwork context = true) :=
  and_congr_right fun _ => evaluateNetwork_permits

theorem enforceMethod_ok {S : Type} {h : Prog.Handler HttpCall HttpAnswer S} {s : S} :
    (Prog.exec h (enforceMethod context method) s).outcome = .ok () ↔
      method.text ∈ context.policyContext.allowedHttpMethods.getD [] ++
        context.limits.allowedHttpMethods := by
  unfold enforceMethod
  dsimp only
  split
  · rename_i hallowed
    exact iff_of_true rfl (mem_distinct.mp hallowed)
  · rename_i hallowed
    refine iff_of_false ?_ fun h => hallowed (mem_distinct.mpr h)
    intro h
    cases h

/-- The addresses of a host are looked at and public, unless nobody minds. -/
def DnsClear (P : HttpPlatform) (context : PrimitiveContext) (addresses : List String) (url : Url) :
    Prop :=
  context.hasFetchImpl = true ∨ allowsPrivateNetwork context = true ∨
    isLocalOrPrivateHost P.toLowerCase
      (String.ofList (normalizedHost P.toLowerCase url.hostname)) = false ∧
    addresses.any (isLocalOrPrivateHost P.toLowerCase) = false

theorem assertDnsPolicy_ok :
    (Prog.exec (resolving addresses) (assertDnsPolicy P context url method) ()).outcome = .ok () ↔
      DnsClear P context addresses url := by
  unfold assertDnsPolicy DnsClear
  by_cases hfetch : context.hasFetchImpl = true
  · rw [if_pos hfetch]
    exact iff_of_true rfl (Or.inl hfetch)
  rw [if_neg hfetch]
  by_cases hprivate : allowsPrivateNetwork context = true
  · rw [if_pos hprivate]
    exact iff_of_true rfl (Or.inr (Or.inl hprivate))
  rw [if_neg hprivate]
  by_cases hlocal : isLocalOrPrivateHost P.toLowerCase
      (String.ofList (normalizedHost P.toLowerCase url.hostname)) = true
  · rw [if_pos hlocal]
    refine iff_of_false (fun h => by cases h) ?_
    rintro (h | h | h)
    · exact hfetch h
    · exact hprivate h
    · rw [hlocal] at h
      cases h.1
  rw [if_neg hlocal, Prog.bind_eq]
  rw [Prog.exec_perform_bind_ok (a := addresses) _ _ rfl]
  dsimp only
  by_cases hany : addresses.any (isLocalOrPrivateHost P.toLowerCase) = true
  · rw [if_pos hany]
    refine iff_of_false (fun h => by cases h) ?_
    rintro (h | h | h)
    · exact hfetch h
    · exact hprivate h
    · rw [hany] at h
      cases h.2
  · rw [if_neg hany]
    exact iff_of_true rfl (Or.inr (Or.inr ⟨by simpa using hlocal, by simpa using hany⟩))

theorem allows_iff : Allows P context input method addresses url ↔
    Permits P context input method url ∧
      method.text ∈ context.policyContext.allowedHttpMethods.getD [] ++
        context.limits.allowedHttpMethods ∧
      DnsClear P context addresses url := by
  constructor
  · intro hallows
    exact ⟨hallows.permits, enforceMethod_ok.mp hallows.listed, assertDnsPolicy_ok.mp hallows.dns⟩
  · rintro ⟨hpermits, hlisted, hdns⟩
    exact ⟨hpermits, enforceMethod_ok.mpr hlisted, assertDnsPolicy_ok.mpr hdns⟩

/-- What is let through under lists that let less through is let through. -/
theorem Allows.widen (hallows : Allows P context' input' method addresses url)
    (hlists : (usedLists context' input').LetsThrough url.hostname →
      (usedLists context input).LetsThrough url.hostname)
    (hprivate : allowsPrivateNetwork context' = true → allowsPrivateNetwork context = true)
    (hfetch : context'.hasFetchImpl = context.hasFetchImpl)
    (hmethods : context'.policyContext.allowedHttpMethods = context.policyContext.allowedHttpMethods)
    (hlimits : context'.limits.allowedHttpMethods = context.limits.allowedHttpMethods) :
    Allows P context input method addresses url := by
  obtain ⟨hpermits, hlisted, hdns⟩ := allows_iff.mp hallows
  obtain ⟨hscheme, hlets, hlocal⟩ := permits_iff.mp hpermits
  refine allows_iff.mpr ⟨permits_iff.mpr ⟨hscheme, hlists hlets, fun h => hprivate (hlocal h)⟩, ?_, ?_⟩
  · rw [← hmethods, ← hlimits]
    exact hlisted
  · rcases hdns with h | h | h
    · exact Or.inl (hfetch ▸ h)
    · exact Or.inr (Or.inl (hprivate h))
    · exact Or.inr (Or.inr h)

/-! ### Tightening never lets more through -/

/-- **A tightened policy lets nothing new through**, if no host is denied by the context alone. -/
theorem Tightens.allows (htight : Tightens context input context' input')
    (hdenied : input.deniedHosts = none →
      Allows P context { input with deniedHosts := some [] } method addresses url →
      url.hostname ∉ context.policyContext.deniedHosts.getD [])
    (hallows : Allows P context' input' method addresses url) :
    Allows P context input method addresses url := by
  cases htight with
  | denyInContext host before after hbefore =>
      refine hallows.widen (fun hlets => hlets.mono ?_ fun h => ⟨h, List.Subset.refl _⟩) id rfl rfl rfl
      unfold usedLists
      cases hin : input.deniedHosts with
      | some denied => exact List.Subset.refl _
      | none =>
          dsimp only [Option.or, Option.getD_some]
          rw [hbefore]
          exact subset_with_entry host before after
  | denyInInput host before after hbefore =>
      cases hin : input.deniedHosts with
      | some denied =>
          refine hallows.widen (fun hlets => hlets.mono ?_ fun h => ⟨h, List.Subset.refl _⟩) id rfl rfl
            rfl
          unfold usedLists
          rw [hin] at hbefore ⊢
          dsimp only [Option.or, Option.getD_some] at hbefore ⊢
          rw [hbefore]
          exact subset_with_entry host before after
      | none =>
          -- the list that the input gets takes the place of the context's
          have hempty : Allows P context { input with deniedHosts := some [] } method addresses url :=
            hallows.widen (fun hlets => hlets.mono (List.nil_subset _)
              fun h => ⟨h, List.Subset.refl _⟩) id rfl rfl rfl
          refine hempty.widen (fun hlets => ⟨?_, hlets.2⟩) id rfl rfl rfl
          have hnot := hdenied hin hempty
          unfold usedLists
          rw [hin]
          exact hnot
  | unallowInContext host before after hbefore hleft =>
      refine hallows.widen (fun hlets => hlets.mono (List.Subset.refl _) ?_) id rfl rfl rfl
      unfold usedLists
      cases hin : input.allowedHosts with
      | some allowed => exact fun h => ⟨h, List.Subset.refl _⟩
      | none =>
          intro _
          dsimp only [Option.or, Option.getD_some]
          rw [hbefore]
          exact ⟨hleft, subset_with_entry host before after⟩
  | unallowInInput host before after hbefore hleft =>
      refine hallows.widen (fun hlets => hlets.mono (List.Subset.refl _) ?_) id rfl rfl rfl
      unfold usedLists
      rw [hbefore]
      intro _
      exact ⟨hleft, subset_with_entry host before after⟩
  | privateOffInContext =>
      refine hallows.widen id (fun h => ?_) rfl rfl rfl
      unfold allowsPrivateNetwork at h ⊢
      rcases of_decide_eq_true h with h | h
      · cases h
      · exact decide_eq_true (Or.inr h)
  | privateOffInLimits =>
      refine hallows.widen id (fun h => ?_) rfl rfl rfl
      unfold allowsPrivateNetwork at h ⊢
      rcases of_decide_eq_true h with h | h
      · exact decide_eq_true (Or.inl h)
      · cases h

/-- The first host that an input denies lets the hosts through that the context denies. -/
theorem exists_tightens_allows (hin : input.deniedHosts = none)
    (hallows : Allows P context { input with deniedHosts := some [] } method addresses url)
    (hdenied : url.hostname ∈ context.policyContext.deniedHosts.getD []) :
    ∃ input', Tightens context input context input' ∧
      Allows P context input' method addresses url ∧
      ¬ Allows P context input method addresses url := by
  refine ⟨_, .denyInInput (url.hostname ++ "x") [] [] (by rw [hin]; rfl), ?_, fun h => ?_⟩
  · refine hallows.widen (fun hlets => ⟨fun hmem => ?_, hlets.2⟩) id rfl rfl rfl
    have hlength := congrArg String.length (List.mem_singleton.mp hmem)
    simp at hlength
  · obtain ⟨hpermits, -, -⟩ := allows_iff.mp h
    refine (permits_iff.mp hpermits).2.1.1 ?_
    unfold usedLists
    rw [hin]
    exact hdenied

/-! ### What is sent -/

theorem Hops.reached {remaining : Nat} {current : Url} {headers : List (String × String)}
    {requests : List HttpRequest}
    (hhops : Hops P context input method remaining current headers requests) :
    ∀ request ∈ requests, 1 ≤ remaining ∧ (request.url = current ∨ 2 ≤ remaining) := by
  cases hhops with
  | none => exact fun _ h => by cases h
  | last =>
      intro request hrequest
      rw [List.mem_singleton.mp hrequest]
      exact ⟨Nat.le_add_left 1 _, Or.inl rfl⟩
  | hop hsend hlater =>
      intro request hrequest
      refine ⟨Nat.le_add_left 1 _, ?_⟩
      rcases List.mem_cons.mp hrequest with rfl | hrequest
      · exact Or.inl rfl
      · have hshort := hlater.length_le
        have hlong := List.length_pos_of_mem hrequest
        exact Or.inr (by omega)

/-- **Only what can be reached is sent.** -/
theorem FetchSends.reaches {requests : List HttpRequest}
    (hsends : FetchSends P context input requests) :
    ∀ request ∈ requests, Reaches P context input request.url ∧
      Permits P context input request.method request.url ∧
      request.method = input.method.getD .get := by
  rcases hsends with rfl | ⟨url, headers, hstarts, hhops⟩
  · exact fun _ h => by cases h
  intro request hrequest
  obtain ⟨hsend, hmethod⟩ := hhops.sendable request hrequest
  obtain ⟨hone, hreached⟩ := hhops.reached request hrequest
  have hfirst : Sendable P context input (input.method.getD .get) url := by
    rcases hhops.first with rfl | hfirst
    · cases hrequest
    · exact hfirst
  refine ⟨⟨url, ⟨hstarts.parsed, hstarts.method, hstarts.manager, hfirst, by omega⟩, ?_⟩, ?_, hmethod⟩
  · rcases hreached with h | h
    · exact Or.inl h
    · exact Or.inr ⟨by omega, hsend⟩
  · rw [hmethod]
    exact hsend.permits

/-- **What can be reached is sent**, by the redirecting server. -/
theorem Reaches.sent (hreaches : Reaches P context input other) :
    ∃ url request, request.url = other ∧ request.method = input.method.getD .get ∧
      request ∈ requestsOf
        (Prog.exec (redirecting url other.href) (httpFetch P context input) ()) := by
  obtain ⟨url, hfirst, hother⟩ := hreaches
  obtain ⟨more, hmore⟩ := httpFetch_from url other.href hfirst.parsed
    hfirst.method hfirst.manager hfirst.sendable
  rcases hother with rfl | ⟨hlimit, hsend⟩
  · have hlimit := hfirst.limit
    have hcount : (redirectLimit context input + 1).toNat =
        (redirectLimit context input).toNat + 1 := by omega
    obtain ⟨later, hlater⟩ := fetchFrom_first (redirectLimit context input).toNat other
      (givenHeaders P input) other.href hfirst.sendable
    rw [hcount, hlater] at hmore
    refine ⟨other, ⟨other, _, givenHeaders P input, input.body⟩, rfl, rfl, ?_⟩
    rw [hmore]
    exact List.mem_cons_self
  · have hcount : (redirectLimit context input + 1).toNat =
        (redirectLimit context input - 1).toNat + 2 := by omega
    obtain ⟨later, hlater⟩ := fetchFrom_redirected (redirectLimit context input - 1).toNat
      (givenHeaders P input) hfirst.sendable hsend
    rw [hcount, hlater] at hmore
    refine ⟨url, ⟨other, _, headersTo P url other (givenHeaders P input), input.body⟩, rfl, rfl, ?_⟩
    rw [hmore]
    exact List.mem_cons_of_mem _ List.mem_cons_self

/-- A context that permits one host. -/
def oneHostContext : PrimitiveContext :=
  { sampleHttpContext with policyContext := ⟨some ["api.example"], none, none, none⟩ }

/-- A fetch from another host, which names it as allowed. -/
def widenedFetch : HttpFetchInput :=
  { authenticatedFetch "X-Auth-Token" with
    url := "https://other.example/"
    allowedHosts := some ["other.example"]
    auth := none }

end OpenLagrange
