/-
The rate limits of the web application.

Requests are counted by client in buckets, a map that goes by the order its keys were set in.  The
middleware counts every request it sees, and the handlers of the API count each request object
once; both have a map of their own and the same code around it.

What the settings allow is read once here, and is positive; the clock is an argument.
-/
import OpenLagrange.Lib.WindowCounter
import OpenLagrange.Primitives.Http

namespace OpenLagrange.Web

/-! ### Settings -/

@[irreducible] def maxRateLimitBuckets : Nat := 10000

/-- The settings of the process, as far as the limits read them. -/
structure RateLimitEnv where
  windowMs : Option String
  max : Option String

structure RateLimits where
  windowMs : Nat
  max : Nat
  window_pos : 0 < windowMs
  max_pos : 0 < max

/-- What the settings come to, where it is positive. -/
def rateLimits (env : RateLimitEnv) : Option RateLimits :=
  match parseDecimal (env.windowMs.getD "60000").toList,
    parseDecimal (env.max.getD "120").toList with
  | some windowMs, some max =>
      if h : 0 < windowMs.toNat ∧ 0 < max.toNat then some ⟨windowMs.toNat, max.toNat, h.1, h.2⟩
      else none
  | _, _ => none

example : (rateLimits ⟨none, none⟩).map (fun limits => (limits.windowMs, limits.max)) =
    some (60000, 120) := by decide +kernel

/-! ### Requests -/

/-- The headers that tell clients apart. -/
structure Headers where
  forwardedFor : Option String
  realIp : Option String
  cfConnectingIp : Option String

/-- A request, and the time at which it is counted. -/
structure Request where
  headers : Headers
  now : Nat

def trim (text : String) : String := String.ofList (trimChars text.toList)

/-- `text || other`. -/
def orElse (text : Option String) (other : String) : String :=
  match text with
  | some text => if text = "" then other else text
  | none => other

def rateLimitKey (headers : Headers) : String :=
  orElse ((headers.forwardedFor.bind fun text => (splitAtChar ',' text.toList).head?).map
      fun first => String.ofList (trimChars first))
    (orElse (headers.realIp.map trim) (orElse (headers.cfConnectingIp.map trim) "anonymous"))

def Request.key (request : Request) : String := rateLimitKey request.headers

/-- What a client that is over the limit is told. -/
structure Refusal where
  status : Nat
  error : String
  deriving DecidableEq

def rateLimited : Refusal := ⟨429, "RATE_LIMITED"⟩

/-! ### Buckets -/

abbrev Bucket := WindowCounter.Window String

abbrev Buckets := WindowCounter.Windows String

/-- The loop that deletes the oldest key while there are too many; it breaks at an empty key. -/
def deleteOldest : List Bucket → List Bucket
  | [] => []
  | oldest :: rest =>
      if (oldest :: rest).length > maxRateLimitBuckets then
        if oldest.key = "" then oldest :: rest else deleteOldest rest
      else oldest :: rest

theorem deleteOldest_suffix (buckets : List Bucket) : deleteOldest buckets <:+ buckets := by
  induction buckets with
  | nil => exact List.suffix_refl _
  | cons oldest rest ih =>
      unfold deleteOldest
      split
      · split
        · exact List.suffix_refl _
        · exact ih.trans (List.suffix_cons _ _)
      · exact List.suffix_refl _

def pruneRateLimitBuckets (buckets : Buckets) (now : Nat) : Buckets where
  rows := deleteOldest (buckets.rows.filter fun bucket => ¬ bucket.resetAt ≤ now)
  nodup :=
    buckets.nodup.sublist
      (((deleteOldest_suffix _).sublist.trans List.filter_sublist).map WindowCounter.Window.key)

/-- The answer to a request, if it is refused, and the buckets afterwards. -/
def rateLimit (limits : RateLimits) (buckets : Buckets) (request : Request) :
    Option Refusal × Buckets :=
  let key := rateLimitKey request.headers
  let now := request.now
  let pruned := pruneRateLimitBuckets buckets now
  let opened := pruneRateLimitBuckets (pruned.upsert ⟨key, now + limits.windowMs, 1⟩) now
  match pruned.get key with
  | none => (none, opened)
  | some bucket =>
      if bucket.resetAt ≤ now then (none, opened)
      else
        let count := bucket.count + 1
        (if count > limits.max then some rateLimited else none,
          pruned.upsert ⟨bucket.key, bucket.resetAt, count⟩)

/-- The buckets after a number of requests. -/
def rateLimitAll (limits : RateLimits) (buckets : Buckets) (requests : List Request) : Buckets :=
  requests.foldl (fun buckets request => (rateLimit limits buckets request).2) buckets

/-- What the requests of a client are answered. -/
def answersTo (limits : RateLimits) (key : String) : Buckets → List Request → List (Option Refusal)
  | _, [] => []
  | buckets, request :: rest =>
      let answered := rateLimit limits buckets request
      if request.key = key then answered.1 :: answersTo limits key answered.2 rest
      else answersTo limits key answered.2 rest

/-- How many requests of a client are let through. -/
def letThrough (limits : RateLimits) (key : String) (buckets : Buckets) (requests : List Request) :
    Nat :=
  (answersTo limits key buckets requests).count none

/-! ### Request objects -/

/-- What the handlers of the API have counted: the buckets, and the objects seen. -/
structure Enforcement where
  buckets : Buckets
  seen : List Nat

/-- A request object, told from others by a number. -/
structure RequestObject where
  id : Nat
  request : Request

/-- The error that is thrown, if any, and the state afterwards. -/
def enforceRateLimit (limits : RateLimits) (state : Enforcement) (object : RequestObject) :
    Option Refusal × Enforcement :=
  if object.id ∈ state.seen then (none, state)
  else
    let answered := rateLimit limits state.buckets object.request
    (answered.1, ⟨answered.2, object.id :: state.seen⟩)

def enforceAll (limits : RateLimits) (state : Enforcement) (objects : List RequestObject) :
    Enforcement :=
  objects.foldl (fun state object => (enforceRateLimit limits state object).2) state

/-- The requests of the objects that were not seen before, each object's once. -/
def firstSeen : List Nat → List RequestObject → List Request
  | _, [] => []
  | seen, object :: rest =>
      if object.id ∈ seen then firstSeen seen rest
      else object.request :: firstSeen (object.id :: seen) rest

end OpenLagrange.Web
