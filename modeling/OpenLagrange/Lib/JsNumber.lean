/-
Numbers as JavaScript computes with them.

A number is a rational, an infinity, or not a number.  What a product or a sum is rounded to is
left to a `Rounding`: it keeps the order, keeps what it has rounded, and keeps zero, a half, and
the double of what it keeps.  A result from `2 ^ 1024` on is an infinity.  The two zeros are one.
-/
import Mathlib.Algebra.Order.Floor.Ring
import Mathlib.Data.Rat.Floor
import Mathlib.Tactic.Linarith
import Mathlib.Tactic.NormNum
import Mathlib.Tactic.Positivity
import Mathlib.Tactic.Ring

inductive JsNumber where
  | finite (q : ℚ)
  | infinity
  | negInfinity
  | nan
  deriving DecidableEq, Repr

/-- How results are rounded, as if exponents had no bound. -/
structure Rounding where
  round : ℚ → ℚ
  mono : Monotone round
  round_round : ∀ q, round (round q) = round q
  round_zero : round 0 = 0
  round_half : round (1 / 2) = 1 / 2
  round_double : ∀ q, round q = q → round (2 * q) = 2 * q

/-- Nothing is lost. -/
def Rounding.exact : Rounding := ⟨id, monotone_id, fun _ => rfl, rfl, rfl, fun _ _ => rfl⟩

namespace JsNumber

/-- The least number that is too large. -/
def limit : ℚ := 2 ^ 1024

theorem limit_pos : 0 < limit := by
  unfold limit
  positivity

/-- A rounded result. -/
def ofResult (q : ℚ) : JsNumber :=
  if limit ≤ q then .infinity else if q ≤ -limit then .negInfinity else .finite q

/-- `a <= b`. -/
def le : JsNumber → JsNumber → Bool
  | .nan, _ => false
  | _, .nan => false
  | .finite a, .finite b => a ≤ b
  | .negInfinity, _ => true
  | _, .infinity => true
  | _, _ => false

abbrev Le (a b : JsNumber) : Prop := le a b = true

/-- `Math.min(a, b)`. -/
def min (a b : JsNumber) : JsNumber :=
  if a = .nan ∨ b = .nan then .nan else if Le a b then a else b

/-- `Math.max(a, b)`. -/
def max (a b : JsNumber) : JsNumber :=
  if a = .nan ∨ b = .nan then .nan else if Le a b then b else a

/-- `Math.floor(a)`. -/
def floor : JsNumber → JsNumber
  | .finite q => .finite ⌊q⌋
  | a => a

/-- An infinity of the sign of a rational. -/
def infinite (sign : ℚ) : JsNumber :=
  if sign = 0 then .nan else if 0 < sign then .infinity else .negInfinity

/-- `2 ** n`. -/
def twoTo (n : Nat) : JsNumber := if n < 1024 then .finite (2 ^ n) else .infinity

section

variable (R : Rounding)

/-- `a * b`. -/
def mul : JsNumber → JsNumber → JsNumber
  | .finite a, .finite b => ofResult (R.round (a * b))
  | .infinity, .finite b => infinite b
  | .finite a, .infinity => infinite a
  | .negInfinity, .finite b => infinite (-b)
  | .finite a, .negInfinity => infinite (-a)
  | .infinity, .infinity | .negInfinity, .negInfinity => .infinity
  | .infinity, .negInfinity | .negInfinity, .infinity => .negInfinity
  | .nan, _ | _, .nan => .nan

/-- `a + b`. -/
def add : JsNumber → JsNumber → JsNumber
  | .finite a, .finite b => ofResult (R.round (a + b))
  | .infinity, .negInfinity | .negInfinity, .infinity => .nan
  | .nan, _ | _, .nan => .nan
  | .infinity, _ | _, .infinity => .infinity
  | .negInfinity, _ | _, .negInfinity => .negInfinity

/-- The numbers added up, from the left. -/
def total (numbers : List JsNumber) : JsNumber := numbers.foldl (add R) (.finite 0)

/-- `a - b`. -/
def sub (a : JsNumber) : JsNumber → JsNumber
  | .finite b => add R a (.finite (-b))
  | .infinity => add R a .negInfinity
  | .negInfinity => add R a .infinity
  | .nan => .nan

end

/-! ### Order -/

theorem le_finite {a b : ℚ} : Le (.finite a) (.finite b) ↔ a ≤ b := decide_eq_true_iff

theorem le_infinity {a : JsNumber} (h : a ≠ .nan) : Le a .infinity := by
  cases a with
  | nan => exact (h rfl).elim
  | _ => rfl

theorem Le.ne_nan {a b : JsNumber} (h : Le a b) : a ≠ .nan ∧ b ≠ .nan := by
  constructor
  · rintro rfl
    cases b <;> cases h
  · rintro rfl
    cases a <;> cases h

theorem Le.refl {a : JsNumber} (h : a ≠ .nan) : Le a a := by
  cases a with
  | nan => exact (h rfl).elim
  | finite q => exact le_finite.mpr Rat.le_refl
  | _ => rfl

theorem Le.trans {a b c : JsNumber} (hab : Le a b) (hbc : Le b c) : Le a c := by
  cases a <;> cases b <;> cases c <;>
    first
      | rfl
      | exact (Bool.false_ne_true hab).elim
      | exact (Bool.false_ne_true hbc).elim
      | exact le_finite.mpr (Rat.le_trans (le_finite.mp hab) (le_finite.mp hbc))

theorem Le.total {a b : JsNumber} (ha : a ≠ .nan) (hb : b ≠ .nan) : Le a b ∨ Le b a := by
  cases a <;> cases b <;>
    first
      | exact (ha rfl).elim
      | exact (hb rfl).elim
      | exact Or.inl rfl
      | exact Or.inr rfl
      | exact Rat.le_total.imp le_finite.mpr le_finite.mpr

theorem min_eq_left {a b : JsNumber} (h : Le a b) : min a b = a := by
  unfold min
  rw [if_neg (not_or.mpr h.ne_nan), if_pos h]

theorem min_eq_right {a b : JsNumber} (h : Le b a) : min a b = b := by
  unfold min
  rw [if_neg (not_or.mpr h.ne_nan.symm)]
  split
  · rename_i hab
    cases a <;> cases b <;>
      first
        | rfl
        | exact (Bool.false_ne_true hab).elim
        | exact (Bool.false_ne_true h).elim
        | exact congrArg finite (Rat.le_antisymm (le_finite.mp hab) (le_finite.mp h))
  · rfl

/-- A minimum is one of the two, and below both. -/
theorem min_le {a b : JsNumber} (ha : a ≠ .nan) (hb : b ≠ .nan) :
    Le (min a b) a ∧ Le (min a b) b := by
  rcases Le.total ha hb with h | h
  · rw [min_eq_left h]
    exact ⟨Le.refl ha, h⟩
  · rw [min_eq_right h]
    exact ⟨h, Le.refl hb⟩

theorem le_min {a b c : JsNumber} (ha : Le c a) (hb : Le c b) : Le c (min a b) := by
  rcases Le.total ha.ne_nan.2 hb.ne_nan.2 with h | h
  · rwa [min_eq_left h]
  · rwa [min_eq_right h]

theorem zero_le_max {a : JsNumber} (ha : a ≠ .nan) : Le (.finite 0) (max (.finite 0) a) := by
  have hzero : finite 0 ≠ .nan := by
    intro h
    cases h
  unfold max
  rw [if_neg (not_or.mpr ⟨hzero, ha⟩)]
  split
  · assumption
  · exact Le.refl hzero

/-! ### Results -/

section Results

variable {R : Rounding}

theorem ofResult_ne_nan (q : ℚ) : ofResult q ≠ .nan := by
  unfold ofResult
  split
  · intro h; cases h
  · split <;> intro h <;> cases h

theorem ofResult_of_lt {q : ℚ} (h : 0 ≤ q) (hlimit : q < limit) : ofResult q = .finite q := by
  have hpos := limit_pos
  unfold ofResult
  rw [if_neg (not_le.mpr hlimit), if_neg (by linarith)]

theorem one_lt_limit : 1 < limit := by
  unfold limit
  exact one_lt_pow₀ (by norm_num) (by norm_num)

theorem round_nonneg {q : ℚ} (h : 0 ≤ q) : 0 ≤ R.round q := by
  rw [← R.round_zero]
  exact R.mono h

theorem ofResult_nonneg {q : ℚ} (h : 0 ≤ q) : Le (.finite 0) (ofResult q) := by
  unfold ofResult
  split
  · rfl
  · split
    · rename_i hneg
      have hpos := limit_pos
      linarith
    · exact le_finite.mpr h

theorem zero_le_add {a b : JsNumber} (ha : Le (.finite 0) a) (hb : Le (.finite 0) b) :
    Le (.finite 0) (add R a b) := by
  cases a <;> cases b <;>
    first
      | exact (Bool.false_ne_true ha).elim
      | exact (Bool.false_ne_true hb).elim
      | rfl
      | exact ofResult_nonneg (round_nonneg (add_nonneg (le_finite.mp ha) (le_finite.mp hb)))

theorem zero_le_foldl_add {numbers : List JsNumber} (h : ∀ a ∈ numbers, Le (.finite 0) a)
    {start : JsNumber} (hstart : Le (.finite 0) start) :
    Le (.finite 0) (numbers.foldl (add R) start) := by
  induction numbers generalizing start with
  | nil => exact hstart
  | cons a rest ih =>
      have hfirst := h a List.mem_cons_self
      exact ih (fun b hb => h b (List.mem_cons_of_mem _ hb)) (zero_le_add hstart hfirst)

theorem zero_le_total {numbers : List JsNumber} (h : ∀ a ∈ numbers, Le (.finite 0) a) :
    Le (.finite 0) (total R numbers) :=
  zero_le_foldl_add h (le_finite.mpr le_rfl)

/-- A power of two loses nothing. -/
theorem round_mul_two_pow {q : ℚ} (h : R.round q = q) (n : Nat) :
    R.round (q * 2 ^ n) = q * 2 ^ n := by
  induction n with
  | zero => simpa using h
  | succ n ih =>
      have hdouble := R.round_double _ ih
      have hpow : q * 2 ^ (n + 1) = 2 * (q * 2 ^ n) := by ring
      rw [hpow, hdouble]

end Results

end JsNumber
