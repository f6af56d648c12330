/-
What retrying comes to.

A run is compared with what it should be: the calls are numbered from one on and alternate with
the sleeps, each attempt but the last is retried, the delays are those of the header or the
doubled base delay, the report lists them, and the run ends as its last call does.  One turn of
the loop either ends the run, or sleeps and goes on, or has its sleep rejected; the theorem about
runs follows by induction on the turns.

Three things go wrong.  A power of two is an infinity from `2 ** 1024` on, so that the product
with a base delay of zero is not a number there, and that with any other is infinite.  A sleep
stands inside the `try`, so that its rejection is slept after again.  And a number of attempts
that is not whole is passed by its last attempt, which is slept after as well.
-/
import OpenLagrange.Primitives.Retry

namespace OpenLagrange.Retry

variable {P : RetryPlatform} (options : RetryOptions P.rounding)

/-! ### One delay -/

/-- A delay option scaled without loss. -/
def exactScale : JsNumber → Nat → JsNumber
  | .finite q, n => .finite (q * 2 ^ n)
  | a, _ => a

/-- The product of the base delay and the power of two is not what it should be. -/
def Overflows (base : JsNumber) (n : Nat) : Prop :=
  ∃ q, base = .finite q ∧ 0 < q ∧ (1024 ≤ n ∨ JsNumber.limit ≤ q * 2 ^ n)

/-- A number from zero on that rounding keeps. -/
def Amount (R : Rounding) (a : JsNumber) : Prop :=
  a = .infinity ∨ ∃ q, a = .finite q ∧ 0 ≤ q ∧ R.round q = q ∧ q < JsNumber.limit

section Delay

variable {options}

theorem DelayOption.amount (base : DelayOption P.rounding) : Amount P.rounding base.value := by
  cases hvalue : base.value with
  | infinity => exact Or.inl rfl
  | finite q =>
      have hnonneg := base.nonneg
      rw [hvalue, JsNumber.le_finite] at hnonneg
      exact Or.inr ⟨q, rfl, hnonneg, base.exact q hvalue⟩
  | negInfinity =>
      have hnonneg := base.nonneg
      rw [hvalue] at hnonneg
      cases hnonneg
  | nan =>
      have hnonneg := base.nonneg
      rw [hvalue] at hnonneg
      cases hnonneg

/-- What the base delay is multiplied to. -/
theorem product_cases (base : DelayOption P.rounding) (n : Nat) :
    (base.value = .finite 0 ∧ 1024 ≤ n ∧
      JsNumber.mul P.rounding base.value (JsNumber.twoTo n) = .nan) ∨
    (Overflows base.value n ∧
      JsNumber.mul P.rounding base.value (JsNumber.twoTo n) = .infinity) ∨
    (¬ (base.value = .finite 0 ∧ 1024 ≤ n) ∧ ¬ Overflows base.value n ∧
      JsNumber.mul P.rounding base.value (JsNumber.twoTo n) = exactScale base.value n) := by
  rcases base.amount with hinf | ⟨q, hq, hnonneg, hround, -⟩
  · refine Or.inr (Or.inr ⟨?_, ?_, ?_⟩)
    · rintro ⟨hzero, -⟩
      rw [hinf] at hzero
      cases hzero
    · rintro ⟨q, hq, -⟩
      rw [hinf] at hq
      cases hq
    · rw [hinf]
      unfold JsNumber.twoTo
      split
      · have hpos : (0 : ℚ) < 2 ^ n := by positivity
        show JsNumber.infinite _ = _
        unfold JsNumber.infinite
        rw [if_neg hpos.ne', if_pos hpos]
        rfl
      · rfl
  · rw [hq]
    have hscaled : 0 ≤ q * 2 ^ n := by positivity
    by_cases hn : n < 1024
    · have hproduct : JsNumber.mul P.rounding (.finite q) (JsNumber.twoTo n) =
          JsNumber.ofResult (q * 2 ^ n) := by
        unfold JsNumber.twoTo
        rw [if_pos hn]
        show JsNumber.ofResult (P.rounding.round (q * 2 ^ n)) = _
        rw [JsNumber.round_mul_two_pow hround]
      by_cases hlarge : JsNumber.limit ≤ q * 2 ^ n
      · have hpos : 0 < q := by
          rcases hnonneg.lt_or_eq with h | h
          · exact h
          · rw [← h, zero_mul] at hlarge
            exact absurd hlarge (not_le.mpr JsNumber.limit_pos)
        refine Or.inr (Or.inl ⟨⟨q, rfl, hpos, Or.inr hlarge⟩, ?_⟩)
        rw [hproduct]
        exact if_pos hlarge
      · refine Or.inr (Or.inr ⟨fun h => by omega, ?_, ?_⟩)
        · rintro ⟨q', heq, -, h | h⟩
          · omega
          · cases heq
            exact hlarge h
        · rw [hproduct]
          have hlimit := JsNumber.limit_pos
          unfold JsNumber.ofResult
          rw [if_neg hlarge, if_neg (by linarith)]
          rfl
    · have hproduct : JsNumber.mul P.rounding (.finite q) (JsNumber.twoTo n) =
          JsNumber.infinite q := by
        unfold JsNumber.twoTo
        rw [if_neg hn]
        rfl
      rcases hnonneg.lt_or_eq with hpos | hzero
      · refine Or.inr (Or.inl ⟨⟨q, rfl, hpos, Or.inl (by omega)⟩, ?_⟩)
        rw [hproduct]
        unfold JsNumber.infinite
        rw [if_neg hpos.ne', if_pos hpos]
      · subst hzero
        exact Or.inl ⟨rfl, by omega, hproduct⟩

/-- The header of the response that an attempt is retried after. -/
def headerAfter {T : Type} (view : T → ResponseView) : Except Thrown T → Option String
  | .ok value => retryAfter P (view value)
  | .error _ => none

end Delay

/-- The delay after an attempt: between zero and the longest delay, what the header of the
response says, and otherwise the doubled base delay. -/
structure DelayRight (header : Option String) (attempt : Nat) (delay : JsNumber) : Prop where
  nonneg : JsNumber.Le (.finite 0) delay
  most : JsNumber.Le delay options.maxDelayMs.value
  followed : ∀ text, header = some text →
    delay = JsNumber.min options.maxDelayMs.value (parseRetryAfter P text (P.now attempt))
  doubled : header = none → options.jitter ≠ some true →
    delay = JsNumber.min options.maxDelayMs.value
      (exactScale options.baseDelayMs.value (attempt - 1))

/-- No header is missing where the power of two is an infinity: the base delay is not zero there,
and without jitter the delay would have been the longest one anyway. -/
def Scales (header : Option String) (attempt : Nat) : Prop :=
  header = none →
    ¬ (options.baseDelayMs.value = .finite 0 ∧ 1024 ≤ attempt - 1) ∧
    (options.jitter ≠ some true → Overflows options.baseDelayMs.value (attempt - 1) →
      JsNumber.Le options.maxDelayMs.value
        (exactScale options.baseDelayMs.value (attempt - 1)))

/-- The delay that an attempt is followed by. -/
def delayAfter (header : Option String) (attempt : Nat) : JsNumber :=
  match header with
  | some text => JsNumber.min options.maxDelayMs.value (parseRetryAfter P text (P.now attempt))
  | none => computeDelay P options attempt

section Delay

variable {options}

theorem parseRetryAfter_nonneg (text : String) (nowMs : ℚ) :
    JsNumber.Le (.finite 0) (parseRetryAfter P text nowMs) := by
  unfold parseRetryAfter
  split
  · exact JsNumber.zero_le_max (JsNumber.ofResult_ne_nan _)
  · split
    · exact JsNumber.zero_le_max (JsNumber.ofResult_ne_nan _)
    · exact JsNumber.le_finite.mpr (le_refl 0)

/-- The factor of the jitter lies between a half and one. -/
theorem jitter_factor (attempt : Nat) :
    ∃ f : ℚ, JsNumber.add P.rounding (.finite (1 / 2))
        (JsNumber.mul P.rounding (.finite (P.random attempt)) (.finite (1 / 2))) = .finite f ∧
      1 / 2 ≤ f ∧ f ≤ 1 := by
  obtain ⟨hrandom, hless⟩ := P.random_unit attempt
  set x := P.rounding.round (P.random attempt * (1 / 2)) with hx
  have hx0 : 0 ≤ x := JsNumber.round_nonneg (by positivity)
  have hx1 : x ≤ 1 / 2 := by
    rw [← P.rounding.round_half]
    exact P.rounding.mono (by linarith)
  have hproduct : JsNumber.mul P.rounding (.finite (P.random attempt)) (.finite (1 / 2)) =
      .finite x := JsNumber.ofResult_of_lt hx0 (by linarith [JsNumber.one_lt_limit])
  have hone : P.rounding.round 1 = 1 := by
    have hdouble := P.rounding.round_double _ P.rounding.round_half
    norm_num at hdouble
    exact hdouble
  have hf0 : 1 / 2 ≤ P.rounding.round (1 / 2 + x) := by
    rw [← P.rounding.round_half]
    exact P.rounding.mono (by rw [P.rounding.round_half]; linarith)
  have hf1 : P.rounding.round (1 / 2 + x) ≤ 1 := by
    rw [← hone]
    exact P.rounding.mono (by linarith)
  refine ⟨P.rounding.round (1 / 2 + x), ?_, hf0, hf1⟩
  rw [hproduct]
  exact JsNumber.ofResult_of_lt (by linarith) (lt_of_le_of_lt hf1 JsNumber.one_lt_limit)

/-- A delay with jitter lies between zero and the delay without. -/
theorem jitter_le {base : JsNumber} (attempt : Nat) (hbase : Amount P.rounding base) :
    let delay := JsNumber.floor (JsNumber.mul P.rounding base
      (JsNumber.add P.rounding (.finite (1 / 2))
        (JsNumber.mul P.rounding (.finite (P.random attempt)) (.finite (1 / 2)))))
    JsNumber.Le (.finite 0) delay ∧ JsNumber.Le delay base := by
  obtain ⟨f, hf, hhalf, hone⟩ := jitter_factor (P := P) attempt
  have hfpos : 0 < f := by linarith
  rw [hf]
  rcases hbase with rfl | ⟨q, rfl, hnonneg, hround, hlimit⟩
  · have hproduct : JsNumber.mul P.rounding .infinity (.finite f) = .infinity := by
      show JsNumber.infinite f = _
      unfold JsNumber.infinite
      rw [if_neg hfpos.ne', if_pos hfpos]
    rw [hproduct]
    exact ⟨rfl, rfl⟩
  · have hless : P.rounding.round (q * f) ≤ q := by
      have hmono := P.rounding.mono (mul_le_of_le_one_right hnonneg hone)
      rwa [hround] at hmono
    have hpos : 0 ≤ P.rounding.round (q * f) :=
      JsNumber.round_nonneg (mul_nonneg hnonneg hfpos.le)
    have hproduct : JsNumber.mul P.rounding (.finite q) (.finite f) =
        .finite (P.rounding.round (q * f)) :=
      JsNumber.ofResult_of_lt hpos (lt_of_le_of_lt hless hlimit)
    rw [hproduct]
    constructor
    · exact JsNumber.le_finite.mpr (Int.cast_nonneg (Int.floor_nonneg.mpr hpos))
    · exact JsNumber.le_finite.mpr (le_trans (Int.floor_le _) hless)

theorem exactScale_nonneg (base : DelayOption P.rounding) (n : Nat) :
    JsNumber.Le (.finite 0) (exactScale base.value n) := by
  rcases base.amount with hinf | ⟨q, hq, hnonneg, -, -⟩
  · rw [hinf]
    rfl
  · rw [hq]
    exact JsNumber.le_finite.mpr (by positivity)

theorem Amount.scaled {base : DelayOption P.rounding} {n : Nat}
    (h : ¬ Overflows base.value n) : Amount P.rounding (exactScale base.value n) := by
  rcases base.amount with hinf | ⟨q, hq, hnonneg, hround, -⟩
  · rw [hinf]
    exact Or.inl rfl
  · refine Or.inr ⟨q * 2 ^ n, by rw [hq]; rfl, by positivity,
      JsNumber.round_mul_two_pow hround n, ?_⟩
    by_contra hlarge
    rcases hnonneg.lt_or_eq with hpos | hzero
    · exact h ⟨q, hq, hpos, Or.inr (not_lt.mp hlarge)⟩
    · rw [← hzero, zero_mul] at hlarge
      exact hlarge JsNumber.limit_pos

theorem Amount.min {a b : JsNumber} (ha : Amount P.rounding a) (hb : Amount P.rounding b) :
    Amount P.rounding (JsNumber.min a b) := by
  unfold JsNumber.min
  split
  · rename_i hnan
    rcases hnan with rfl | rfl
    · rcases ha with h | ⟨_, h, -⟩ <;> cases h
    · rcases hb with h | ⟨_, h, -⟩ <;> cases h
  · split
    · exact ha
    · exact hb

/-- The delay without jitter, where the product is a number: it is an amount no greater than the
longest delay. -/
theorem scaled_range {n : Nat}
    (h : ¬ (options.baseDelayMs.value = .finite 0 ∧ 1024 ≤ n)) :
    let base := JsNumber.min options.maxDelayMs.value
      (JsNumber.mul P.rounding options.baseDelayMs.value (JsNumber.twoTo n))
    JsNumber.Le (.finite 0) base ∧ JsNumber.Le base options.maxDelayMs.value ∧
      Amount P.rounding base := by
  intro base
  have hmax := options.maxDelayMs.nonneg
  have hproduct : JsNumber.Le (.finite 0)
      (JsNumber.mul P.rounding options.baseDelayMs.value (JsNumber.twoTo n)) ∧
      Amount P.rounding
        (JsNumber.mul P.rounding options.baseDelayMs.value (JsNumber.twoTo n)) := by
    rcases product_cases options.baseDelayMs n with ⟨hzero, hn, -⟩ | ⟨-, heq⟩ | ⟨-, hover, heq⟩
    · exact (h ⟨hzero, hn⟩).elim
    · rw [heq]
      exact ⟨rfl, Or.inl rfl⟩
    · rw [heq]
      exact ⟨exactScale_nonneg _ _, Amount.scaled hover⟩
  have hle := JsNumber.min_le hmax.ne_nan.2 hproduct.1.ne_nan.2
  exact ⟨JsNumber.le_min hmax hproduct.1, hle.1, options.maxDelayMs.amount.min hproduct.2⟩

/-- The minimum with an infinity is that with the exact product exactly if the other number is
not above it. -/
theorem min_infinity_iff {a b : JsNumber} (ha : a ≠ .nan) (hb : b ≠ .nan) :
    JsNumber.min a .infinity = JsNumber.min a b ↔ JsNumber.Le a b := by
  rw [JsNumber.min_eq_left (JsNumber.le_infinity ha)]
  constructor
  · intro heq
    have hle := (JsNumber.min_le ha hb).2
    rwa [← heq] at hle
  · intro hle
    rw [JsNumber.min_eq_left hle]

variable (options) in
/-- **A delay is right exactly if its power of two makes no difference.** -/
theorem delayAfter_right_iff (header : Option String) (attempt : Nat) :
    DelayRight options header attempt (delayAfter options header attempt) ↔
      Scales options header attempt := by
  have hmax := options.maxDelayMs.nonneg
  cases header with
  | some text =>
      have hparsed := parseRetryAfter_nonneg (P := P) text (P.now attempt)
      have hle := JsNumber.min_le hmax.ne_nan.2 hparsed.ne_nan.2
      constructor
      · intro _ hnone
        cases hnone
      · intro _
        refine ⟨JsNumber.le_min hmax hparsed, hle.1, ?_, ?_⟩
        · intro other heq
          cases heq
          rfl
        · intro hnone
          cases hnone
  | none =>
      have hscale := exactScale_nonneg options.baseDelayMs (attempt - 1)
      by_cases hzero : options.baseDelayMs.value = .finite 0 ∧ 1024 ≤ attempt - 1
      · refine iff_of_false ?_ fun h => (h rfl).1 hzero
        intro hright
        have hmul : JsNumber.mul P.rounding options.baseDelayMs.value
            (JsNumber.twoTo (attempt - 1)) = .nan := by
          rcases product_cases options.baseDelayMs (attempt - 1) with ⟨-, -, h⟩ | ⟨h, -⟩ | ⟨h, -⟩
          · exact h
          · obtain ⟨q, hq, hpos, -⟩ := h
            rw [hzero.1] at hq
            cases hq
            exact (lt_irrefl _ hpos).elim
          · exact (h hzero).elim
        have hnan : delayAfter options none attempt = .nan := by
          show computeDelay P options attempt = .nan
          unfold computeDelay JsNumber.min
          rw [hmul, if_pos (Or.inr rfl)]
          simp only
          split <;> rfl
        exact hright.nonneg.ne_nan.2 hnan
      · obtain ⟨hnonneg, hmost, hamount⟩ := scaled_range hzero
        by_cases hjitter : options.jitter = some true
        · have hdelay := jitter_le attempt hamount
          refine iff_of_true ?_ fun _ => ⟨hzero, fun h => (h hjitter).elim⟩
          have heq : delayAfter options none attempt = JsNumber.floor _ :=
            if_neg (not_not.mpr hjitter)
          rw [heq]
          refine ⟨hdelay.1, JsNumber.Le.trans hdelay.2 hmost, ?_, fun _ h => (h hjitter).elim⟩
          intro text h
          cases h
        · have heq : delayAfter options none attempt = JsNumber.min options.maxDelayMs.value
              (JsNumber.mul P.rounding options.baseDelayMs.value
                (JsNumber.twoTo (attempt - 1))) := if_pos hjitter
          rw [heq]
          have hdoubled : JsNumber.min options.maxDelayMs.value
              (JsNumber.mul P.rounding options.baseDelayMs.value
                (JsNumber.twoTo (attempt - 1))) = JsNumber.min options.maxDelayMs.value
              (exactScale options.baseDelayMs.value (attempt - 1)) ↔
              (Overflows options.baseDelayMs.value (attempt - 1) →
                JsNumber.Le options.maxDelayMs.value
                  (exactScale options.baseDelayMs.value (attempt - 1))) := by
            rcases product_cases options.baseDelayMs (attempt - 1) with
              ⟨h0, hn, -⟩ | ⟨hover, hmul⟩ | ⟨-, hover, hmul⟩
            · exact (hzero ⟨h0, hn⟩).elim
            · rw [hmul, min_infinity_iff hmax.ne_nan.2 hscale.ne_nan.2]
              exact ⟨fun h _ => h, fun h => h hover⟩
            · rw [hmul]
              exact iff_of_true rfl fun h => (hover h).elim
          constructor
          · intro hright _
            exact ⟨hzero, fun _ => hdoubled.mp (hright.doubled rfl hjitter)⟩
          · intro hscales
            refine ⟨hnonneg, hmost, ?_, fun _ _ => hdoubled.mpr ((hscales rfl).2 hjitter)⟩
            intro text h
            cases h

end Delay

/-! ### Runs -/

/-- Calls whose numbers go up by one, with one sleep between each two. -/
def alternate : Nat → List JsNumber → List RetryEvent
  | attempt, [] => [.call attempt]
  | attempt, delay :: delays => .call attempt :: .sleep delay :: alternate (attempt + 1) delays

def RetryEvent.slept : RetryEvent → Option JsNumber
  | .call _ => none
  | .sleep delay => some delay

/-- How long each of the sleeps is. -/
def RetryRun.delays {T : Type} (run : RetryRun T) : List JsNumber :=
  run.events.filterMap RetryEvent.slept

/-- An entry of the report: the delay, and the attempt it comes after. -/
def RetryAttemptReport.slept (report : RetryAttemptReport) : JsNumber × Nat :=
  (report.delayMs, report.attempt)

section

variable {T : Type} (view : T → ResponseView) (operation : Nat → Except Thrown T)

/-- An attempt that is followed by another one, if there are any left. -/
def Retries (attempt : Nat) : Prop :=
  match operation attempt with
  | .ok value => retriedStatus P options view value ≠ none
  | .error _ => True

/-- A run as it should be, from an attempt on, with what was reported before.  Its last attempt
is the one after all sleeps. -/
structure BackedOff (first : Nat) (attempts : List RetryAttemptReport) (run : RetryRun T) :
    Prop where
  alternates : run.events = alternate first run.delays
  most : ((first + run.delays.length : Nat) : ℚ) ≤ options.maxAttempts
  retried : ∀ k < run.delays.length, Retries options view operation (first + k)
  stopped : Retries options view operation (first + run.delays.length) →
    options.maxAttempts < ((first + run.delays.length + 1 : Nat) : ℚ)
  returned : ∀ value, operation (first + run.delays.length) = .ok value →
    ∃ reports, run.outcome = .ok ⟨value, ⟨reports, options.maxAttempts, true⟩⟩ ∧
      reports.map RetryAttemptReport.slept =
        attempts.map RetryAttemptReport.slept ++ run.delays.zipIdx first
  thrown : ∀ thrown, operation (first + run.delays.length) = .error thrown →
    run.outcome = .error (asError (some thrown))
  right : ∀ k delay, run.delays[k]? = some delay →
    DelayRight options (headerAfter (P := P) view (operation (first + k))) (first + k) delay

/-- Wherever another attempt is made, the delay before it makes sense, the sleep is not rejected,
and the attempt is not one too many. -/
def Manageable (first : Nat) : Prop :=
  ∀ attempt, first ≤ attempt → (attempt : ℚ) < options.maxAttempts →
    (∀ j, first ≤ j → j ≤ attempt → Retries options view operation j) →
    Scales options (headerAfter (P := P) view (operation attempt)) attempt ∧
      sleepFailure P options (attempt - 1) = none ∧
      ((attempt + 1 : Nat) : ℚ) ≤ options.maxAttempts

variable {options view operation}

theorem manageable_of_stop {first : Nat}
    (h : ¬ (Retries options view operation first ∧ (first : ℚ) < options.maxAttempts)) :
    Manageable options view operation first := by
  intro attempt hle hless hretries
  have hcast : (first : ℚ) ≤ attempt := Nat.cast_le.mpr hle
  exact (h ⟨hretries first (Nat.le_refl _) hle, lt_of_le_of_lt hcast hless⟩).elim

theorem manageable_step {first : Nat} (hretries : Retries options view operation first)
    (hless : (first : ℚ) < options.maxAttempts) :
    Manageable options view operation first ↔
      (Scales options (headerAfter (P := P) view (operation first)) first ∧
        sleepFailure P options (first - 1) = none ∧
        ((first + 1 : Nat) : ℚ) ≤ options.maxAttempts) ∧
      Manageable options view operation (first + 1) := by
  constructor
  · intro h
    refine ⟨h first (Nat.le_refl _) hless fun j hj hj' => ?_, ?_⟩
    · rwa [Nat.le_antisymm hj' hj]
    · intro attempt hle hless' hall
      refine h attempt (by omega) hless' fun j hj hj' => ?_
      rcases Nat.lt_or_eq_of_le hj with hgt | heq
      · exact hall j hgt hj'
      · rwa [← heq]
  · rintro ⟨hfirst, h⟩ attempt hle hless' hall
    rcases Nat.lt_or_eq_of_le hle with hgt | heq
    · exact h attempt hgt hless' fun j hj hj' => hall j (by omega) hj'
    · rwa [← heq]

theorem caught_last (next : List RetryAttemptReport → RetryRun T) {attempt : Nat}
    (attempts : List RetryAttemptReport) (thrown : Thrown)
    (h : ¬ (attempt : ℚ) < options.maxAttempts) :
    caught P options next attempt attempts thrown = ⟨[], .error (asError (some thrown))⟩ :=
  if_pos (not_lt.mp h)

theorem caught_slept (next : List RetryAttemptReport → RetryRun T) {attempt : Nat}
    (attempts : List RetryAttemptReport) (thrown : Thrown)
    (h : (attempt : ℚ) < options.maxAttempts)
    (hsleep : sleepFailure P options attempts.length = none) :
    caught P options next attempt attempts thrown =
      (next (attempts ++ [⟨attempt, computeDelay P options attempt, thrown.reason⟩])).after
        (.sleep (computeDelay P options attempt)) := by
  unfold caught
  rw [if_neg (not_le.mpr h), hsleep]

theorem caught_rejected (next : List RetryAttemptReport → RetryRun T) {attempt : Nat}
    (attempts : List RetryAttemptReport) (thrown : Thrown)
    (h : (attempt : ℚ) < options.maxAttempts) {failure : Thrown}
    (hsleep : sleepFailure P options attempts.length = some failure) :
    caught P options next attempt attempts thrown =
      ⟨[.sleep (computeDelay P options attempt)], .error failure⟩ := by
  unfold caught
  rw [if_neg (not_le.mpr h), hsleep]

variable (options view operation) in
/-- One turn of the loop: it ends the run, or sleeps and goes on, or its sleep is rejected. -/
theorem turn_cases (turns attempt : Nat) (attempts : List RetryAttemptReport)
    (lastError : Option Thrown) :
    let run := attemptsFrom P options view operation (turns + 1) attempt attempts lastError
    let delay := delayAfter options (headerAfter (P := P) view (operation attempt)) attempt
    (¬ (Retries options view operation attempt ∧ (attempt : ℚ) < options.maxAttempts) ∧
      run = ⟨[.call attempt],
        match operation attempt with
        | .ok value => .ok ⟨value, ⟨attempts, options.maxAttempts, true⟩⟩
        | .error thrown => .error (asError (some thrown))⟩) ∨
    (Retries options view operation attempt ∧ (attempt : ℚ) < options.maxAttempts ∧
      ((sleepFailure P options attempts.length = none ∧ ∃ reason error, run =
          ((attemptsFrom P options view operation turns (attempt + 1)
            (attempts ++ [⟨attempt, delay, reason⟩]) error).after (.sleep delay)).after
              (.call attempt)) ∨
        (sleepFailure P options attempts.length ≠ none ∧ ∃ rest,
          run.events = .call attempt :: .sleep delay :: rest ∧
          (rest = [] ∨ ∃ again further, rest = .sleep again :: further)))) := by
  intro run delay
  cases hop : operation attempt with
  | error thrown =>
      have hrun : run = (caught P options (fun attempts =>
          attemptsFrom P options view operation turns (attempt + 1) attempts (some thrown))
          attempt attempts thrown).after (.call attempt) := by
        show attemptsFrom _ _ _ _ _ _ _ _ = _
        conv_lhs => unfold attemptsFrom
        rw [hop]
      have hretries : Retries options view operation attempt := by
        unfold Retries
        rw [hop]
        trivial
      have hdelay : delay = computeDelay P options attempt := by
        show delayAfter _ _ _ = _
        rw [hop]
        rfl
      by_cases hless : (attempt : ℚ) < options.maxAttempts
      · refine Or.inr ⟨hretries, hless, ?_⟩
        rw [hrun, hdelay]
        cases hsleep : sleepFailure P options attempts.length with
        | none =>
            rw [caught_slept _ _ _ hless hsleep]
            exact Or.inl ⟨rfl, thrown.reason, some thrown, rfl⟩
        | some failure =>
            rw [caught_rejected _ _ _ hless hsleep]
            exact Or.inr ⟨Option.some_ne_none _, [], rfl, Or.inl rfl⟩
      · refine Or.inl ⟨fun h => hless h.2, ?_⟩
        rw [hrun, caught_last _ _ _ hless]
        rfl
  | ok value =>
      cases hstatus : retriedStatus P options view value with
      | none =>
          refine Or.inl ⟨?_, ?_⟩
          · rintro ⟨hretries, -⟩
            unfold Retries at hretries
            rw [hop] at hretries
            exact hretries hstatus
          · show attemptsFrom _ _ _ _ _ _ _ _ = _
            unfold attemptsFrom
            simp only [hop, hstatus]
            rfl
      | some status =>
          have hretries : Retries options view operation attempt := by
            unfold Retries
            rw [hop]
            show retriedStatus P options view value ≠ none
            rw [hstatus]
            exact Option.some_ne_none _
          have hdelay : delay = retryDelay P options (view value) attempt := by
            show delayAfter _ (headerAfter view (operation attempt)) _ = _
            rw [hop]
            unfold delayAfter headerAfter retryDelay
            rfl
          by_cases hless : (attempt : ℚ) < options.maxAttempts
          · refine Or.inr ⟨hretries, hless, ?_⟩
            rw [hdelay]
            cases hsleep : sleepFailure P options attempts.length with
            | none =>
                refine Or.inl ⟨rfl, "status " ++ P.numberText status, lastError, ?_⟩
                show attemptsFrom _ _ _ _ _ _ _ _ = _
                conv_lhs => unfold attemptsFrom
                simp only [hop, hstatus, if_pos hless, hsleep]
            | some failure =>
                have hrun : run = ((caught P options (fun attempts =>
                    attemptsFrom P options view operation turns (attempt + 1) attempts
                      (some failure)) attempt
                    (attempts ++ [⟨attempt, retryDelay P options (view value) attempt,
                      "status " ++ P.numberText status⟩]) failure).after
                        (.sleep (retryDelay P options (view value) attempt))).after
                          (.call attempt) := by
                  show attemptsFrom _ _ _ _ _ _ _ _ = _
                  conv_lhs => unfold attemptsFrom
                  simp only [hop, hstatus, if_pos hless, hsleep]
                refine Or.inr ⟨Option.some_ne_none _, _, by rw [hrun]; rfl, Or.inr ?_⟩
                cases hagain : sleepFailure P options (attempts ++ [(⟨attempt,
                    retryDelay P options (view value) attempt,
                    "status " ++ P.numberText status⟩ : RetryAttemptReport)]).length with
                | none =>
                    rw [caught_slept _ _ _ hless hagain]
                    exact ⟨_, _, rfl⟩
                | some second =>
                    rw [caught_rejected _ _ _ hless hagain]
                    exact ⟨_, [], rfl⟩
          · refine Or.inl ⟨fun h => hless h.2, ?_⟩
            show attemptsFrom _ _ _ _ _ _ _ _ = _
            unfold attemptsFrom
            simp only [hop, hstatus, if_neg hless]
            rfl

theorem alternate_head (first : Nat) (delays : List JsNumber) :
    ∃ further, alternate first delays = .call first :: further := by
  cases delays with
  | nil => exact ⟨[], rfl⟩
  | cons delay delays => exact ⟨_, rfl⟩

/-- After a sleep there is a call in a run as it should be. -/
theorem not_backedOff {first : Nat} {attempts : List RetryAttemptReport} {run : RetryRun T}
    {delay : JsNumber} {rest : List RetryEvent}
    (hevents : run.events = .call first :: .sleep delay :: rest)
    (hrest : rest = [] ∨ ∃ again further, rest = .sleep again :: further) :
    ¬ BackedOff options view operation first attempts run := by
  intro h
  have hdelays : run.delays = delay :: rest.filterMap RetryEvent.slept := by
    unfold RetryRun.delays
    rw [hevents]
    rfl
  have halt := h.alternates
  rw [hevents, hdelays] at halt
  obtain ⟨further, hhead⟩ := alternate_head (first + 1) (rest.filterMap RetryEvent.slept)
  have htail : rest = .call (first + 1) :: further := by
    rw [← hhead]
    exact (List.cons.inj (List.cons.inj halt).2).2
  rcases hrest with rfl | ⟨again, others, rfl⟩
  · cases htail
  · cases htail

/-- A run that ends with its first call is as it should be. -/
theorem backedOff_stop {first : Nat} {attempts : List RetryAttemptReport}
    (hle : (first : ℚ) ≤ options.maxAttempts)
    (h : ¬ (Retries options view operation first ∧ (first : ℚ) < options.maxAttempts)) :
    BackedOff options view operation first attempts ⟨[.call first],
      match operation first with
      | .ok value => .ok ⟨value, ⟨attempts, options.maxAttempts, true⟩⟩
      | .error thrown => .error (asError (some thrown))⟩ where
  alternates := rfl
  most := hle
  retried := fun k hk => (Nat.not_lt_zero k hk).elim
  stopped := by
    intro hretries
    have heq : (first : ℚ) = options.maxAttempts :=
      le_antisymm hle (not_lt.mp fun hless => h ⟨hretries, hless⟩)
    rw [← heq]
    exact Nat.cast_lt.mpr (Nat.lt_succ_self first)
  returned := by
    intro value hop
    have hop : operation first = .ok value := hop
    rw [hop]
    exact ⟨attempts, rfl, (List.append_nil _).symm⟩
  thrown := by
    intro thrown hop
    have hop : operation first = .error thrown := hop
    rw [hop]
  right := by
    intro k delay hk
    cases hk

/-- A run that sleeps is as it should be exactly if the delay is right, and the rest of the run
is as it should be. -/
theorem backedOff_step {first : Nat} {attempts : List RetryAttemptReport} {run : RetryRun T}
    {delay : JsNumber} {reason : String} (hretries : Retries options view operation first) :
    BackedOff options view operation first attempts
        ((run.after (.sleep delay)).after (.call first)) ↔
      DelayRight options (headerAfter (P := P) view (operation first)) first delay ∧
      BackedOff options view operation (first + 1) (attempts ++ [⟨first, delay, reason⟩]) run := by
  have hdelays : ((run.after (.sleep delay)).after (.call first)).delays = delay :: run.delays :=
    rfl
  have hlast : first + (delay :: run.delays).length = first + 1 + run.delays.length := by
    rw [List.length_cons]
    omega
  have hreports : (attempts ++ [(⟨first, delay, reason⟩ : RetryAttemptReport)]).map
        RetryAttemptReport.slept ++ run.delays.zipIdx (first + 1) =
      attempts.map RetryAttemptReport.slept ++ (delay :: run.delays).zipIdx first := by
    rw [List.map_append, List.append_assoc]
    rfl
  constructor
  · intro h
    refine ⟨?_, ?_, ?_, ?_, ?_, ?_, ?_, ?_⟩
    · exact h.right 0 delay rfl
    · have halt := h.alternates
      rw [hdelays] at halt
      exact (List.cons.inj (List.cons.inj halt).2).2
    · have hmost := h.most
      rwa [hdelays, hlast] at hmost
    · intro k hk
      have hretried := h.retried (k + 1) (by rw [hdelays, List.length_cons]; omega)
      rwa [← Nat.add_assoc, Nat.add_right_comm] at hretried
    · have hstopped := h.stopped
      rwa [hdelays, hlast] at hstopped
    · have hreturned := h.returned
      rw [hdelays, hlast] at hreturned
      rw [hreports]
      exact hreturned
    · have hthrown := h.thrown
      rwa [hdelays, hlast] at hthrown
    · intro k other hk
      have hright := h.right (k + 1) other hk
      rwa [← Nat.add_assoc, Nat.add_right_comm] at hright
  · rintro ⟨hright, h⟩
    refine ⟨?_, ?_, ?_, ?_, ?_, ?_, ?_⟩
    · rw [hdelays]
      exact congrArg (fun events => RetryEvent.call first :: RetryEvent.sleep delay :: events)
        h.alternates
    · rw [hdelays, hlast]
      exact h.most
    · intro k hk
      cases k with
      | zero => exact hretries
      | succ k =>
          rw [hdelays, List.length_cons] at hk
          rw [← Nat.add_assoc, Nat.add_right_comm]
          exact h.retried k (by omega)
    · rw [hdelays, hlast]
      exact h.stopped
    · rw [hdelays, hlast, ← hreports]
      exact h.returned
    · rw [hdelays, hlast]
      exact h.thrown
    · intro k other hk
      cases k with
      | zero =>
          rw [hdelays] at hk
          cases hk
          exact hright
      | succ k =>
          rw [← Nat.add_assoc, Nat.add_right_comm]
          exact h.right k other hk

/-- The loop, from any of its turns on. -/
theorem attemptsFrom_backedOff (turns first : Nat) (attempts : List RetryAttemptReport)
    (lastError : Option Thrown) (hturns : first + turns = ⌊options.maxAttempts⌋₊)
    (hlength : attempts.length + 1 = first) :
    BackedOff options view operation first attempts
        (attemptsFrom P options view operation (turns + 1) first attempts lastError) ↔
      Manageable options view operation first := by
  have hmax : 0 ≤ options.maxAttempts := le_trans zero_le_one options.maxAttempts_pos
  have hle : (first : ℚ) ≤ options.maxAttempts :=
    (Nat.le_floor_iff hmax).mp (by omega)
  induction turns generalizing first attempts lastError with
  | zero =>
      rcases turn_cases options view operation 0 first attempts lastError with
        ⟨hstop, hrun⟩ | ⟨hretries, hless, hsleep⟩
      · rw [hrun]
        exact iff_of_true (backedOff_stop hle hstop) (manageable_of_stop hstop)
      · refine iff_of_false ?_ ?_
        · rcases hsleep with ⟨-, reason, error, hrun⟩ | ⟨-, rest, hevents, hrest⟩
          · rw [hrun]
            exact not_backedOff rfl (Or.inl rfl)
          · exact not_backedOff hevents hrest
        · intro hmanageable
          have hnext := ((manageable_step hretries hless).mp hmanageable).1.2.2
          have hfloor := (Nat.le_floor_iff hmax).mpr hnext
          omega
  | succ turns ih =>
      rcases turn_cases options view operation (turns + 1) first attempts lastError with
        ⟨hstop, hrun⟩ | ⟨hretries, hless, hsleep⟩
      · rw [hrun]
        exact iff_of_true (backedOff_stop hle hstop) (manageable_of_stop hstop)
      · have hnext : ((first + 1 : Nat) : ℚ) ≤ options.maxAttempts :=
          (Nat.le_floor_iff hmax).mp (by omega)
        have hcalls : attempts.length = first - 1 := by omega
        rw [manageable_step hretries hless]
        rcases hsleep with ⟨hresolved, reason, error, hrun⟩ | ⟨hrejected, rest, hevents, hrest⟩
        · have hrest := ih (first + 1) (attempts ++ [⟨first, delayAfter options
              (headerAfter (P := P) view (operation first)) first, reason⟩]) error (by omega)
            (by rw [List.length_append, ← hlength]; rfl) hnext
          have hdelay := delayAfter_right_iff options
            (headerAfter (P := P) view (operation first)) first
          rw [hcalls] at hresolved
          rw [hrun]
          refine (backedOff_step hretries).trans (and_congr (hdelay.trans ?_) hrest)
          exact ⟨fun h => ⟨h, hresolved, hnext⟩, fun h => h.1⟩
        · rw [hcalls] at hrejected
          exact iff_of_false (not_backedOff hevents hrest) fun h => hrejected h.1.2.1

/-- **Retrying is as it should be exactly where another attempt can be made.**  The calls of a
run have the numbers from one on, and are no more than the attempts there are; each but the last
is retried, and the last is not, or no attempt is left.  There is one sleep between two calls,
the delays are right, the report lists them, and the run ends as its last call does.  All of this
holds exactly if, wherever a retried attempt is not the last, its delay makes sense, its sleep is
not rejected, and the number of attempts leaves room for the next. -/
theorem withBackoff_backedOff (view : T → ResponseView) (operation : Nat → Except Thrown T) :
    BackedOff options view operation 1 [] (withBackoff P options view operation) ↔
      Manageable options view operation 1 := by
  have hfloor : 1 ≤ ⌊options.maxAttempts⌋₊ :=
    Nat.le_floor (by rw [Nat.cast_one]; exact options.maxAttempts_pos)
  obtain ⟨turns, hturns⟩ : ∃ turns, ⌊options.maxAttempts⌋₊ = turns + 1 :=
    ⟨_, (Nat.succ_pred_eq_of_pos hfloor).symm⟩
  unfold withBackoff
  rw [hturns]
  exact attemptsFrom_backedOff turns 1 [] none (by omega) rfl

end

/-! ### An operation that fails a thousand times

No delay is wanted between the attempts; the delay before the last of them is not a number. -/

def eagerPlatform : RetryPlatform where
  rounding := .exact
  number := fun _ => .nan
  dateParse := fun _ => .nan
  numberText := fun _ => ""
  toLowerCase := id
  now := fun _ => 0
  random := fun _ => 0
  random_unit := fun _ => ⟨le_refl 0, zero_lt_one⟩

def delayOption (q : ℚ) (h : 0 ≤ q) (hlimit : q < JsNumber.limit) :
    DelayOption eagerPlatform.rounding where
  value := .finite q
  nonneg := JsNumber.le_finite.mpr h
  exact := by
    intro q' heq
    cases heq
    exact ⟨rfl, hlimit⟩

def eagerOptions : RetryOptions eagerPlatform.rounding where
  maxAttempts := 1026
  maxAttempts_pos := by norm_num
  baseDelayMs := delayOption 0 (le_refl 0) JsNumber.limit_pos
  maxDelayMs := delayOption 1 zero_le_one JsNumber.one_lt_limit
  jitter := none
  retryableStatusCodes := none
  sleep := none

def failing (_ : Nat) : Except Thrown Unit := .error (.error "connection refused")

def noView (_ : Unit) : ResponseView := ⟨none, none⟩

theorem eagerRetry_not_backedOff : ¬ BackedOff eagerOptions noView failing 1 []
    (withBackoff eagerPlatform eagerOptions noView failing) := by
  have hfloor : ⌊eagerOptions.maxAttempts⌋₊ = 1025 + 1 := by
    show ⌊(1026 : ℚ)⌋₊ = 1026
    exact Nat.floor_natCast 1026
  unfold withBackoff
  rw [hfloor]
  refine fun h => ?_
  have hmanageable := (attemptsFrom_backedOff 1025 1 [] none (by rw [hfloor]) rfl).mp h
  have hlast := hmanageable 1025 (by omega)
    (by show ((1025 : Nat) : ℚ) < 1026; norm_num) (fun j _ _ => trivial)
  exact (hlast.1 rfl).1 ⟨rfl, Nat.le_refl 1024⟩

end OpenLagrange.Retry
