/-
Retrying with backoff.

An operation is called with the number of the attempt until it answers with a status that is not
retried, or the attempts are used up.  Between two attempts the program sleeps: as long as the
`Retry-After` header of the response says, or else for a delay that doubles with each attempt,
and in both cases no longer than the longest delay.

What the operation does is read off its outcomes, one for each attempt, and what the program
does off its events.  Numbers are those of JavaScript; the clock, the random numbers, and the
readings of texts as numbers and dates are parameters.
-/
import OpenLagrange.Lib.JsNumber

namespace OpenLagrange.Retry

structure RetryPlatform where
  rounding : Rounding
  /-- `Number(text)`. -/
  number : String → JsNumber
  /-- `Date.parse(text)`. -/
  dateParse : String → JsNumber
  /-- A number as a template prints it. -/
  numberText : JsNumber → String
  toLowerCase : String → String
  /-- `Date.now()` and `Math.random()`, when they are read after an attempt. -/
  now : Nat → ℚ
  random : Nat → ℚ
  random_unit : ∀ attempt, 0 ≤ random attempt ∧ random attempt < 1

/-- A delay of the options: not negative, and a number there is. -/
structure DelayOption (R : Rounding) where
  value : JsNumber
  nonneg : JsNumber.Le (.finite 0) value
  exact : ∀ q, value = .finite q → R.round q = q ∧ q < JsNumber.limit

/-- What an operation throws: an `Error` with its message, or something else. -/
inductive Thrown where
  | error (message : String)
  | other
  deriving DecidableEq, Repr

structure RetryOptions (R : Rounding) where
  /-- Any number from one on: the program compares it with the attempts, and does not ask whether
  it is whole. -/
  maxAttempts : ℚ
  maxAttempts_pos : 1 ≤ maxAttempts
  baseDelayMs : DelayOption R
  maxDelayMs : DelayOption R
  jitter : Option Bool
  retryableStatusCodes : Option (List JsNumber)
  /-- A sleep of the caller's own: what its calls are rejected with, one after the other. -/
  sleep : Option (Nat → Option Thrown)

/-! ### Values -/

/-- The headers of a value: a `Headers` object, which knows its names in small letters, or a
record, whose entries may hold something else than a text. -/
inductive HeadersField where
  | headers (entries : List (String × String))
  | record (entries : List (String × Option String))

/-- What is looked at of a value: a status that is a number, and headers. -/
structure ResponseView where
  status : Option JsNumber
  headers : Option HeadersField

structure RetryAttemptReport where
  attempt : Nat
  delayMs : JsNumber
  reason : String
  deriving DecidableEq, Repr

structure RetryReport where
  attempts : List RetryAttemptReport
  maxAttempts : ℚ
  completed : Bool
  deriving DecidableEq, Repr

structure RetryResult (T : Type) where
  value : T
  report : RetryReport

inductive RetryEvent where
  | call (attempt : Nat)
  | sleep (delay : JsNumber)
  deriving DecidableEq, Repr

structure RetryRun (T : Type) where
  events : List RetryEvent
  outcome : Except Thrown (RetryResult T)

/-! ### Delays -/

section

variable (P : RetryPlatform)

/-- `parseRetryAfter(value, nowMs)`. -/
def parseRetryAfter (value : String) (nowMs : ℚ) : JsNumber :=
  match P.number value with
  | .finite seconds =>
      JsNumber.max (.finite 0) (JsNumber.mul P.rounding (.finite seconds) (.finite 1000))
  | _ =>
      match P.dateParse value with
      | .finite date =>
          JsNumber.max (.finite 0) (JsNumber.sub P.rounding (.finite date) (.finite nowMs))
      | _ => .finite 0

def responseHeader (view : ResponseView) (name : String) : Option String :=
  match view.headers with
  | none => none
  | some (.headers entries) => (entries.find? fun e => e.1 = P.toLowerCase name).map (·.2)
  | some (.record entries) =>
      (entries.find? fun e => P.toLowerCase e.1 = P.toLowerCase name).bind (·.2)

variable (options : RetryOptions P.rounding)

def computeDelay (attempt : Nat) : JsNumber :=
  let base := JsNumber.min options.maxDelayMs.value
    (JsNumber.mul P.rounding options.baseDelayMs.value (JsNumber.twoTo (attempt - 1)))
  if options.jitter ≠ some true then base
  else
    JsNumber.floor (JsNumber.mul P.rounding base (JsNumber.add P.rounding (.finite (1 / 2))
      (JsNumber.mul P.rounding (.finite (P.random attempt)) (.finite (1 / 2)))))

/-- The `Retry-After` header of a response, where it is not empty. -/
def retryAfter (view : ResponseView) : Option String :=
  (responseHeader P view "retry-after").filter (· ≠ "")

def retryDelay (view : ResponseView) (attempt : Nat) : JsNumber :=
  match retryAfter P view with
  | some header => JsNumber.min options.maxDelayMs.value (parseRetryAfter P header (P.now attempt))
  | none => computeDelay P options attempt

def retryable : List JsNumber :=
  options.retryableStatusCodes.getD
    (([408, 409, 425, 429, 500, 502, 503, 504] : List ℚ).map .finite)

/-! ### The loop -/

variable {T : Type} (view : T → ResponseView) (operation : Nat → Except Thrown T)

/-- The status of a value, if it is one that is retried. -/
def retriedStatus (value : T) : Option JsNumber :=
  (view value).status.filter (· ∈ retryable P options)

/-- `lastError instanceof Error ? lastError : new Error("Retry operation failed")`. -/
def asError : Option Thrown → Thrown
  | some (.error message) => .error message
  | _ => .error "Retry operation failed"

/-- What an attempt that threw is reported with. -/
def Thrown.reason : Thrown → String
  | .error message => message
  | .other => "operation failed"

/-- `(options.sleep ?? sleep)(delay)`, called so many times before: the program's own sleep is
never rejected. -/
def sleepFailure (calls : Nat) : Option Thrown := options.sleep.bind fun sleep => sleep calls

/-- A run with an event before it. -/
def RetryRun.after {T : Type} (event : RetryEvent) (run : RetryRun T) : RetryRun T :=
  { run with events := event :: run.events }

/-- The `catch` of the loop: `next` are the further turns. -/
def caught (next : List RetryAttemptReport → RetryRun T) (attempt : Nat)
    (attempts : List RetryAttemptReport) (thrown : Thrown) : RetryRun T :=
  if (attempt : ℚ) ≥ options.maxAttempts then ⟨[], .error (asError (some thrown))⟩
  else
    let delay := computeDelay P options attempt
    match sleepFailure P options attempts.length with
    | none => (next (attempts ++ [⟨attempt, delay, thrown.reason⟩])).after (.sleep delay)
    | some failure => ⟨[.sleep delay], .error failure⟩

/-- The loop from an attempt on, for so many turns.  A sleep after a status stands in the `try`,
so that its rejection is caught as if the operation had thrown. -/
def attemptsFrom : Nat → Nat → List RetryAttemptReport → Option Thrown → RetryRun T
  | 0, _, _, lastError => ⟨[], .error (asError lastError)⟩
  | turns + 1, attempt, attempts, lastError =>
      RetryRun.after (.call attempt) <|
        match operation attempt with
        | .ok value =>
            match retriedStatus P options view value with
            | some status =>
                if (attempt : ℚ) < options.maxAttempts then
                  let delay := retryDelay P options (view value) attempt
                  let reported := attempts ++ [⟨attempt, delay, "status " ++ P.numberText status⟩]
                  match sleepFailure P options attempts.length with
                  | none =>
                      (attemptsFrom turns (attempt + 1) reported lastError).after (.sleep delay)
                  | some failure =>
                      (caught P options
                        (fun attempts => attemptsFrom turns (attempt + 1) attempts (some failure))
                        attempt reported failure).after (.sleep delay)
                else ⟨[], .ok ⟨value, attempts, options.maxAttempts, true⟩⟩
            | none => ⟨[], .ok ⟨value, attempts, options.maxAttempts, true⟩⟩
        | .error thrown =>
            caught P options
              (fun attempts => attemptsFrom turns (attempt + 1) attempts (some thrown))
              attempt attempts thrown

/-- `withBackoff(operation, options)`: there are as many turns as there are attempts up to
`max_attempts`. -/
def withBackoff : RetryRun T :=
  attemptsFrom P options view operation ⌊options.maxAttempts⌋₊ 1 [] none

end

end OpenLagrange.Retry
