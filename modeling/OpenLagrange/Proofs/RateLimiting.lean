/-
What the rate limits hold clients to.

The buckets are windows of a table with room for so many: no key is empty, so the loop that deletes
the oldest key never breaks off.  What the windows keep is then read back for requests, those of
the middleware and those of the handlers, which count each request object once.

A bucket is deleted before its time where there are too many, so what holds of a client's window
holds while fewer other clients call than there is room for.
-/
import OpenLagrange.Web.RateLimit

namespace OpenLagrange.Web

variable {limits : RateLimits} {buckets : Buckets} {requests : List Request}

/-! ### Keys -/

theorem orElse_ne_empty {text : Option String} {other : String} (h : other ≠ "") :
    orElse text other ≠ "" := by
  unfold orElse
  split
  · split
    · exact h
    · rename_i hne
      exact hne
  · exact h

theorem rateLimitKey_ne_empty (headers : Headers) : rateLimitKey headers ≠ "" :=
  orElse_ne_empty (orElse_ne_empty (orElse_ne_empty (by decide)))

/-- The buckets have keys that are not empty. -/
def Named (buckets : Buckets) : Prop := ∀ bucket ∈ buckets.rows, bucket.key ≠ ""

theorem Named.empty : Named .empty := fun _ hbucket => absurd hbucket List.not_mem_nil

/-! ### Buckets are windows -/

def windowLimits (limits : RateLimits) : WindowCounter.Limits :=
  ⟨maxRateLimitBuckets, limits.windowMs, limits.max⟩

def Request.call (request : Request) : WindowCounter.Call String := ⟨request.key, request.now⟩

/-- What a client is told. -/
def answer (through : Bool) : Option Refusal := if through then none else some rateLimited

/-- Where no key is empty, the oldest are deleted until no more are left than there is room for. -/
theorem deleteOldest_eq {rows : List Bucket} (h : ∀ bucket ∈ rows, bucket.key ≠ "") :
    deleteOldest rows = rows.drop (rows.length - maxRateLimitBuckets) := by
  induction rows with
  | nil => rw [List.drop_nil, deleteOldest]
  | cons oldest rest ih =>
      unfold deleteOldest
      by_cases hmany : (oldest :: rest).length > maxRateLimitBuckets
      · rw [if_pos hmany, if_neg (h oldest List.mem_cons_self),
          ih fun bucket hbucket => h bucket (List.mem_cons_of_mem _ hbucket)]
        rw [List.length_cons] at hmany
        have hone : (oldest :: rest).length - maxRateLimitBuckets =
            rest.length - maxRateLimitBuckets + 1 := by
          rw [List.length_cons]
          omega
        rw [hone, List.drop_succ_cons]
      · rw [if_neg hmany, Nat.sub_eq_zero_of_le (Nat.le_of_not_lt hmany), List.drop_zero]

theorem prune_eq (h : Named buckets) (now : Nat) :
    pruneRateLimitBuckets buckets now = WindowCounter.prune maxRateLimitBuckets now buckets := by
  have hlive : (buckets.rows.filter fun bucket => decide ¬ bucket.resetAt ≤ now) =
      WindowCounter.live now buckets.rows := by
    refine List.filter_congr ?_
    intro bucket _
    exact decide_eq_decide.mpr Nat.not_le
  have hrows : deleteOldest (buckets.rows.filter fun bucket => decide ¬ bucket.resetAt ≤ now) =
      (WindowCounter.live now buckets.rows).drop
        ((WindowCounter.live now buckets.rows).length - maxRateLimitBuckets) := by
    rw [hlive]
    exact deleteOldest_eq fun bucket hbucket => h bucket (List.mem_of_mem_filter hbucket)
  unfold pruneRateLimitBuckets WindowCounter.prune
  exact (Table.Keyed.mk.injEq ..).mpr hrows

variable (limits) in
theorem Named.step (h : Named buckets) (request : Request) :
    Named (WindowCounter.step (windowLimits limits) buckets request.call) := by
  intro bucket hbucket
  rcases WindowCounter.mem_step hbucket with hkey | ⟨hmem, -⟩
  · rw [hkey]
    exact rateLimitKey_ne_empty request.headers
  · exact h bucket hmem

/-- **A request is answered as a call is that opens a window or is counted in one.** -/
theorem rateLimit_eq (h : Named buckets) (request : Request) :
    rateLimit limits buckets request =
      (answer (WindowCounter.request (windowLimits limits) buckets request.call).1,
        WindowCounter.step (windowLimits limits) buckets request.call) := by
  have hpruned : Named (WindowCounter.prune maxRateLimitBuckets request.now buckets) :=
    fun bucket hbucket => h bucket (WindowCounter.mem_prune hbucket).1
  unfold rateLimit
  simp only [prune_eq h]
  cases hget : (WindowCounter.prune maxRateLimitBuckets request.now buckets).get
      (rateLimitKey request.headers) with
  | none =>
      have hopened : Named ((WindowCounter.prune maxRateLimitBuckets request.now buckets).upsert
          ⟨rateLimitKey request.headers, request.now + limits.windowMs, 1⟩) := by
        intro bucket hbucket
        rcases Table.mem_upsert hbucket with rfl | ⟨hold, -⟩
        · exact rateLimitKey_ne_empty request.headers
        · exact hpruned bucket hold
      have hcall : (WindowCounter.prune (windowLimits limits).capacity request.call.now buckets).get
          request.call.key = none := hget
      rw [WindowCounter.request_opened hcall, WindowCounter.step_opened hcall, prune_eq hopened]
      rfl
  | some bucket =>
      have hcall : (WindowCounter.prune (windowLimits limits).capacity request.call.now buckets).get
          request.call.key = some bucket := hget
      have hlive := (WindowCounter.mem_prune (WindowCounter.get_some hget).1).2
      rw [WindowCounter.request_counted hcall, WindowCounter.step_counted hcall]
      simp only [if_neg (Nat.not_le.mpr hlive), answer]
      by_cases hover : bucket.count + 1 > limits.max
      · have hrefused : decide (bucket.count + 1 ≤ (windowLimits limits).limit) = false :=
          decide_eq_false (Nat.not_le.mpr hover)
        rw [if_pos hover, hrefused]
        rfl
      · have hthrough : decide (bucket.count + 1 ≤ (windowLimits limits).limit) = true :=
          decide_eq_true (Nat.le_of_not_lt hover)
        rw [if_neg hover, hthrough]
        rfl

/-! ### Runs are runs of calls -/

variable (limits) in
theorem rateLimitAll_eq (h : Named buckets) (requests : List Request) :
    rateLimitAll limits buckets requests =
        WindowCounter.run (windowLimits limits) buckets (requests.map Request.call) ∧
      Named (rateLimitAll limits buckets requests) := by
  induction requests generalizing buckets with
  | nil => exact ⟨rfl, h⟩
  | cons request rest ih =>
      have hstep := h.step limits request
      show rateLimitAll limits (rateLimit limits buckets request).2 rest =
          WindowCounter.run (windowLimits limits)
            (WindowCounter.step (windowLimits limits) buckets request.call)
            (rest.map Request.call) ∧
        Named (rateLimitAll limits (rateLimit limits buckets request).2 rest)
      rw [rateLimit_eq h]
      exact ih hstep

theorem answersTo_eq (h : Named buckets) (key : String) (requests : List Request) :
    answersTo limits key buckets requests =
      (WindowCounter.decisions (windowLimits limits) key buckets
        (requests.map Request.call)).map answer := by
  induction requests generalizing buckets with
  | nil => rfl
  | cons request rest ih =>
      have hrest := ih (h.step limits request)
      rw [answersTo, List.map_cons, WindowCounter.decisions, rateLimit_eq h]
      show (if request.key = key then _ else _) =
        List.map answer (if request.key = key then _ else _)
      split
      · rw [List.map_cons, hrest]
      · exact hrest

theorem answer_injective : Function.Injective answer := by
  intro through through' h
  cases through with
  | true =>
      cases through' with
      | true => rfl
      | false => cases h
  | false =>
      cases through' with
      | true => cases h
      | false => rfl

theorem letThrough_eq (h : Named buckets) (key : String) (requests : List Request) :
    letThrough limits key buckets requests =
      WindowCounter.letThrough (windowLimits limits) key buckets (requests.map Request.call) := by
  have hthrough : answer true = none := rfl
  unfold letThrough WindowCounter.letThrough
  rw [answersTo_eq h, ← hthrough, List.count_map_of_injective _ _ answer_injective]

/-! ### What holds of every run -/

/-- Requests at times that do not go back. -/
def InOrder (requests : List Request) : Prop := requests.Pairwise fun r r' => r.now ≤ r'.now

/-- The request finds no bucket of its client, and opens one. -/
def OpensWindow (buckets : Buckets) (request : Request) : Prop :=
  (pruneRateLimitBuckets buckets request.now).get request.key = none

/-- The clients of the requests other than one. -/
def othersOf (key : String) (requests : List Request) : Finset String :=
  (requests.map Request.key).toFinset.erase key

/-- After any request of the client, until a window has passed, fewer other clients call than there
is room for. -/
def Uncrowded (limits : RateLimits) (key : String) (requests : List Request) : Prop :=
  ∀ before request during after, requests = before ++ request :: during ++ after →
    request.key = key → (∀ r ∈ during, r.now < request.now + limits.windowMs) →
    (othersOf key during).card < maxRateLimitBuckets

/-- What the limits hold a run of requests to. -/
structure Limited (limits : RateLimits) (requests : List Request) : Prop where
  /-- No more requests of a window are let through than the limit. -/
  within : ∀ before request during after, requests = before ++ request :: during ++ after →
    OpensWindow (rateLimitAll limits .empty before) request →
    (∀ r ∈ during, r.now < request.now + limits.windowMs) →
    (othersOf request.key during).card < maxRateLimitBuckets →
    letThrough limits request.key (rateLimitAll limits .empty before) (request :: during) ≤
      limits.max
  /-- A client whose window has passed is let through. -/
  passed : ∀ before request after, requests = before ++ request :: after →
    (∀ bucket ∈ (rateLimitAll limits .empty before).rows,
      bucket.key = request.key → bucket.resetAt ≤ request.now) →
    (rateLimit limits (rateLimitAll limits .empty before) request).1 = none
  /-- A client that is refused has itself reached the limit, in the time of a window. -/
  refused : ∀ before request after, requests = before ++ request :: after →
    (rateLimit limits (rateLimitAll limits .empty before) request).1 ≠ none →
    limits.max ≤ before.countP fun r =>
      r.key = request.key ∧ request.now < r.now + limits.windowMs
  /-- A client is answered as if there were no others. -/
  alone : ∀ key, Uncrowded limits key requests →
    answersTo limits key .empty requests =
      answersTo limits key .empty (requests.filter fun r => r.key = key)
  /-- There are never more buckets than there is room for. -/
  bounded : ∀ before request after, requests = before ++ request :: after →
    (rateLimit limits (rateLimitAll limits .empty before) request).2.rows.length ≤
      maxRateLimitBuckets

theorem othersOf_call (key : String) (requests : List Request) :
    othersOf key requests = WindowCounter.othersOf key (requests.map Request.call) := by
  unfold othersOf WindowCounter.othersOf
  rw [List.map_map]
  rfl

theorem InOrder.calls (h : InOrder requests) :
    WindowCounter.InOrder (requests.map Request.call) := List.pairwise_map.mpr h

theorem Uncrowded.calls {key : String} (h : Uncrowded limits key requests) :
    WindowCounter.Uncrowded (windowLimits limits) key (requests.map Request.call) := by
  intro before c during after hsplit hkey hduring
  obtain ⟨front, after', rfl, hfront, -⟩ := List.map_eq_append_iff.mp hsplit
  obtain ⟨before', rest, rfl, -, hrest⟩ := List.map_eq_append_iff.mp hfront
  obtain ⟨request, during', rfl, rfl, rfl⟩ := List.map_eq_cons_iff.mp hrest
  rw [← othersOf_call]
  exact h before' request during' after' rfl hkey fun r hr => hduring _ (List.mem_map_of_mem hr)

theorem limited (limits : RateLimits) (h : InOrder requests) : Limited limits requests where
  within before request during after _ hopens hlive hroom := by
    obtain ⟨-, hnamed⟩ := rateLimitAll_eq limits Named.empty before
    have hopen : (WindowCounter.prune (windowLimits limits).capacity request.call.now
        (rateLimitAll limits .empty before)).get request.call.key = none := by
      rw [← hopens, prune_eq hnamed]
      rfl
    rw [letThrough_eq hnamed, List.map_cons]
    refine WindowCounter.letThrough_le hopen limits.window_pos limits.max_pos ?_ ?_
    · intro c hc
      obtain ⟨r, hr, rfl⟩ := List.mem_map.mp hc
      exact hlive r hr
    · rw [← othersOf_call]
      exact hroom
  passed before request after _ hpassed := by
    obtain ⟨-, hnamed⟩ := rateLimitAll_eq limits Named.empty before
    have hthrough : (WindowCounter.request (windowLimits limits)
        (rateLimitAll limits .empty before) request.call).1 = true :=
      WindowCounter.through_of_ended hpassed
    rw [rateLimit_eq hnamed, hthrough]
    rfl
  refused before request after hsplit hrefused := by
    obtain ⟨hrun, hnamed⟩ := rateLimitAll_eq limits Named.empty before
    rw [hsplit] at h
    have hfront : InOrder before := (List.pairwise_append.mp h).1
    rw [rateLimit_eq hnamed, hrun] at hrefused
    have hnot : (WindowCounter.request (windowLimits limits) (WindowCounter.run
        (windowLimits limits) .empty (before.map Request.call)) request.call).1 = false := by
      rw [Bool.eq_false_iff]
      intro hthrough
      rw [hthrough] at hrefused
      exact hrefused rfl
    have hcount := WindowCounter.refused_of_own hfront.calls hnot
    rw [List.countP_map] at hcount
    exact hcount
  alone key huncrowded := by
    rw [answersTo_eq Named.empty, answersTo_eq Named.empty,
      WindowCounter.decisions_alone limits.window_pos h.calls huncrowded.calls, List.filter_map]
    rfl
  bounded before request after _ := by
    obtain ⟨-, hnamed⟩ := rateLimitAll_eq limits Named.empty before
    rw [rateLimit_eq hnamed]
    exact WindowCounter.length_step_le (windowLimits limits) _ request.call

/-! ### Request objects -/

theorem enforceAll_eq (limits : RateLimits) (objects : List RequestObject) :
    ∀ state : Enforcement,
      (enforceAll limits state objects).buckets =
          rateLimitAll limits state.buckets (firstSeen state.seen objects) ∧
        ∀ id, id ∈ (enforceAll limits state objects).seen ↔
          id ∈ state.seen ∨ ∃ object ∈ objects, object.id = id := by
  induction objects with
  | nil =>
      intro state
      refine ⟨rfl, fun id => ⟨Or.inl, ?_⟩⟩
      rintro (hseen | ⟨object, hobject, -⟩)
      · exact hseen
      · exact absurd hobject List.not_mem_nil
  | cons object rest ih =>
      intro state
      have hrest := ih (enforceRateLimit limits state object).2
      have hstep : enforceAll limits state (object :: rest) =
          enforceAll limits (enforceRateLimit limits state object).2 rest := rfl
      rw [hstep]
      by_cases hseen : object.id ∈ state.seen
      · have hsame : (enforceRateLimit limits state object).2 = state := by
          unfold enforceRateLimit
          rw [if_pos hseen]
        rw [hsame] at hrest ⊢
        rw [firstSeen, if_pos hseen]
        refine ⟨hrest.1, fun id => (hrest.2 id).trans ?_⟩
        constructor
        · rintro (hold | ⟨other, hother, hid⟩)
          · exact Or.inl hold
          · exact Or.inr ⟨other, List.mem_cons_of_mem _ hother, hid⟩
        · rintro (hold | ⟨other, hother, hid⟩)
          · exact Or.inl hold
          · rcases List.mem_cons.mp hother with rfl | hother
            · exact Or.inl (hid ▸ hseen)
            · exact Or.inr ⟨other, hother, hid⟩
      · have hnew : (enforceRateLimit limits state object).2 =
            ⟨(rateLimit limits state.buckets object.request).2, object.id :: state.seen⟩ := by
          unfold enforceRateLimit
          rw [if_neg hseen]
        rw [hnew] at hrest ⊢
        rw [firstSeen, if_neg hseen]
        refine ⟨hrest.1, fun id => (hrest.2 id).trans ?_⟩
        constructor
        · rintro (hold | ⟨other, hother, hid⟩)
          · rcases List.mem_cons.mp hold with rfl | hold
            · exact Or.inr ⟨object, List.mem_cons_self, rfl⟩
            · exact Or.inl hold
          · exact Or.inr ⟨other, List.mem_cons_of_mem _ hother, hid⟩
        · rintro (hold | ⟨other, hother, hid⟩)
          · exact Or.inl (List.mem_cons_of_mem _ hold)
          · rcases List.mem_cons.mp hother with rfl | hother
            · exact Or.inl (hid ▸ List.mem_cons_self)
            · exact Or.inr ⟨other, hother, hid⟩

theorem firstSeen_sublist (objects : List RequestObject) :
    ∀ seen, (firstSeen seen objects).Sublist (objects.map RequestObject.request) := by
  induction objects with
  | nil => exact fun _ => List.Sublist.slnil
  | cons object rest ih =>
      intro seen
      rw [firstSeen]
      split
      · exact (ih seen).cons _
      · exact (ih _).cons_cons _

/-- **The rate limits hold clients to their limit, each by itself**, in the middleware and, each
request object counted once, in the handlers. -/
theorem rate_limits_hold (limits : RateLimits) (requests : List Request)
    (objects : List RequestObject) (hrequests : InOrder requests)
    (hobjects : InOrder (objects.map RequestObject.request)) :
    Limited limits requests ∧ Limited limits (firstSeen [] objects) ∧
      (enforceAll limits ⟨.empty, []⟩ objects).buckets =
        rateLimitAll limits .empty (firstSeen [] objects) ∧
      ∀ object, (enforceRateLimit limits (enforceAll limits ⟨.empty, []⟩ objects) object).1 =
        if ∃ earlier ∈ objects, earlier.id = object.id then none
        else (rateLimit limits (rateLimitAll limits .empty (firstSeen [] objects))
          object.request).1 := by
  obtain ⟨hbuckets, hseen⟩ := enforceAll_eq limits objects ⟨.empty, []⟩
  have hfirst : InOrder (firstSeen [] objects) := hobjects.sublist (firstSeen_sublist objects [])
  refine ⟨limited limits hrequests, limited limits hfirst, hbuckets, ?_⟩
  intro object
  have hiff : object.id ∈ (enforceAll limits ⟨.empty, []⟩ objects).seen ↔
      ∃ earlier ∈ objects, earlier.id = object.id := by
    rw [hseen object.id]
    constructor
    · rintro (hnone | hsome)
      · exact absurd hnone List.not_mem_nil
      · exact hsome
    · exact Or.inr
  unfold enforceRateLimit
  by_cases hearlier : ∃ earlier ∈ objects, earlier.id = object.id
  · rw [if_pos (hiff.mpr hearlier), if_pos hearlier]
  · rw [if_neg fun hmem => hearlier (hiff.mp hmem), if_neg hearlier, hbuckets]

theorem rate_limits_hold_twice :
    Limited ⟨60000, 1, by decide, by decide⟩
      [⟨⟨none, some "10.0.0.1", none⟩, 0⟩, ⟨⟨none, some "10.0.0.1", none⟩, 5⟩] ∧
    Limited ⟨60000, 1, by decide, by decide⟩
      (firstSeen [] [⟨0, ⟨none, none, none⟩, 3⟩, ⟨0, ⟨none, none, none⟩, 3⟩]) :=
  let held := rate_limits_hold ⟨60000, 1, by decide, by decide⟩
    [⟨⟨none, some "10.0.0.1", none⟩, 0⟩, ⟨⟨none, some "10.0.0.1", none⟩, 5⟩]
    [⟨0, ⟨none, none, none⟩, 3⟩, ⟨0, ⟨none, none, none⟩, 3⟩]
    (by unfold InOrder; decide) (by unfold InOrder; decide)
  ⟨held.1, held.2.1⟩

/-! ### A client that is crowded out -/

/-- A client for each number. -/
def crowd (n : Nat) : Request :=
  ⟨⟨none, some (String.ofList (List.replicate (n + 1) 'a')), none⟩, 1⟩

/-- As many clients as there is room for. -/
def crowds : List Request := (List.range maxRateLimitBuckets).map crowd

def outsider (now : Nat) : Request := ⟨⟨none, some "b", none⟩, now⟩

/-- One request a minute. -/
def oneAMinute : RateLimits := ⟨60000, 1, by decide, by decide⟩

theorem crowd_key (n : Nat) : (crowd n).key = String.ofList (List.replicate (n + 1) 'a') := by
  have hspace : jsSpace 'a' = false := by decide
  have hdrop : ∀ n,
      (List.replicate (n + 1) 'a').dropWhile jsSpace = List.replicate (n + 1) 'a' := by
    intro n
    rw [List.replicate_succ, List.dropWhile_cons_of_neg (by rw [hspace]; decide)]
  have htrim : trim (String.ofList (List.replicate (n + 1) 'a')) =
      String.ofList (List.replicate (n + 1) 'a') := by
    unfold trim trimChars trimStartChars trimEndChars
    rw [String.toList_ofList, hdrop, List.reverse_replicate, hdrop, List.reverse_replicate]
  have hne : String.ofList (List.replicate (n + 1) 'a') ≠ "" := by
    intro h
    have hchars := congrArg String.toList h
    rw [String.toList_ofList, List.replicate_succ] at hchars
    cases hchars
  show orElse none (orElse (some (trim (String.ofList (List.replicate (n + 1) 'a')))) _) = _
  rw [htrim]
  exact if_neg hne

theorem crowd_key_injective : Function.Injective (Request.key ∘ crowd) := by
  intro n m h
  rw [Function.comp_apply, Function.comp_apply, crowd_key, crowd_key] at h
  have hlength := congrArg (fun text => text.toList.length) h
  simpa using hlength

theorem outsider_key (now : Nat) : (outsider now).key = "b" := by
  show rateLimitKey ⟨none, some "b", none⟩ = "b"
  decide +kernel

theorem mem_crowds {r : Request} (h : r ∈ crowds) : r.now = 1 ∧ r.key ≠ "b" := by
  obtain ⟨n, -, rfl⟩ := List.mem_map.mp h
  refine ⟨rfl, ?_⟩
  intro heq
  rw [crowd_key] at heq
  have hchars := congrArg String.toList heq
  rw [String.toList_ofList, List.replicate_succ] at hchars
  have hhead := congrArg List.head? hchars
  exact absurd (Option.some.inj hhead) (by decide)

theorem nodup_crowds : (crowds.map Request.key).Nodup := by
  unfold crowds
  rw [List.map_map]
  exact List.Nodup.map crowd_key_injective List.nodup_range

theorem length_crowds : crowds.length = maxRateLimitBuckets := by
  unfold crowds
  rw [List.length_map, List.length_range]

theorem room : 0 < maxRateLimitBuckets := by
  unfold maxRateLimitBuckets
  decide

/-- The crowd deletes the outsider's bucket, and the outsider is let through once more. -/
theorem letThrough_crowded : letThrough oneAMinute (outsider 0).key .empty
    (outsider 0 :: (crowds ++ [outsider 2])) = 2 := by
  have hcall : (outsider 2).call = ⟨(outsider 0).call.key, 2⟩ := by
    show (⟨(outsider 2).key, 2⟩ : WindowCounter.Call String) = ⟨(outsider 0).key, 2⟩
    rw [outsider_key, outsider_key]
  have hcalls : ∀ c ∈ crowds.map Request.call, c.now = 1 ∧ c.key ≠ "b" := by
    intro c hc
    obtain ⟨r, hr, rfl⟩ := List.mem_map.mp hc
    exact mem_crowds hr
  rw [letThrough_eq Named.empty, List.map_cons, List.map_append, List.map_singleton, hcall]
  refine WindowCounter.letThrough_again room oneAMinute.window_pos ?_ (fun c hc => (hcalls c hc).1)
    ?_ ?_ ?_
  · show 1 < 0 + 60000
    decide
  · intro c hc
    rw [show (outsider 0).call.key = "b" from outsider_key 0]
    exact (hcalls c hc).2
  · rw [List.map_map]
    exact nodup_crowds
  · have hlength : (crowds.map Request.call).length = maxRateLimitBuckets :=
      (List.length_map _).trans length_crowds
    exact hlength.ge

/-- A window does not hold its client to the limit where others fill the buckets meanwhile. -/
theorem crowded_out : ¬ ∀ (limits : RateLimits) (requests : List Request), InOrder requests →
    ∀ before request during after, requests = before ++ request :: during ++ after →
      OpensWindow (rateLimitAll limits .empty before) request →
      (∀ r ∈ during, r.now < request.now + limits.windowMs) →
      letThrough limits request.key (rateLimitAll limits .empty before) (request :: during) ≤
        limits.max := by
  intro hall
  have htimes : ∀ r ∈ crowds ++ [outsider 2], r.now = 1 ∨ r.now = 2 := by
    intro r hr
    rcases List.mem_append.mp hr with hr | hr
    · exact Or.inl (mem_crowds hr).1
    · rw [List.mem_singleton.mp hr]
      exact Or.inr rfl
  have horder : InOrder (outsider 0 :: (crowds ++ [outsider 2])) := by
    refine List.pairwise_cons.mpr ⟨fun r _ => Nat.zero_le _, List.pairwise_append.mpr ⟨?_, ?_, ?_⟩⟩
    · refine List.pairwise_of_forall_mem_list ?_
      intro r hr r' hr'
      rw [(mem_crowds hr).1, (mem_crowds hr').1]
    · exact List.pairwise_singleton _ _
    · intro r hr r' hr'
      rw [(mem_crowds hr).1, List.mem_singleton.mp hr']
      decide
  have hopens : OpensWindow (rateLimitAll oneAMinute .empty []) (outsider 0) := rfl
  have hlive : ∀ r ∈ crowds ++ [outsider 2], r.now < (outsider 0).now + oneAMinute.windowMs := by
    intro r hr
    have htime := htimes r hr
    show r.now < 0 + 60000
    omega
  have hbound := hall oneAMinute _ horder [] _ _ [] (List.append_nil _).symm hopens hlive
  have htwice : letThrough oneAMinute (outsider 0).key (rateLimitAll oneAMinute .empty [])
      (outsider 0 :: (crowds ++ [outsider 2])) = 2 := letThrough_crowded
  rw [htwice] at hbound
  exact absurd hbound (by decide)

end OpenLagrange.Web
