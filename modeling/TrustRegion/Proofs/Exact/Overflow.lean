import Mathlib
import TrustRegion.Proofs.Exact.Scalar

/-!
# Real numbers that overflow

The arithmetic of 64-bit binary floating point without its rounding: a number is a real number whose modulus
is not greater than that of the largest finite one, a result beyond it is infinite, and what has no value
at all is no number.

`Overflowing.ofReal` takes a real number into this arithmetic.  As long as no operand overflows, an operation
gives what the exact one gives (`Overflowing.ofReal_add` and its companions), and where only sums of squares
are at stake this holds beyond (`Overflowing.sum_ofReal_of_nonneg`).
-/

namespace TrustRegion

open Finset

/-- The largest finite number of 64-bit binary floating point. -/
noncomputable def largest : ℝ := (((2 ^ 53 - 1) * 2 ^ 971 : ℕ) : ℝ)

theorem four_le_largest : 4 ≤ largest := by
  -- for any exponent: the power itself is too large to be evaluated
  have hnat : ∀ k, 4 ≤ (2 ^ 53 - 1) * 2 ^ k := fun k =>
    calc 4 ≤ (2 ^ 53 - 1) * 1 := by norm_num
      _ ≤ _ := Nat.mul_le_mul_left _ Nat.one_le_two_pow
  have hcast : ((4 : ℕ) : ℝ) ≤ largest := Nat.cast_le.2 (hnat 971)
  rwa [Nat.cast_ofNat] at hcast

theorem largest_pos : 0 < largest := by linarith [four_le_largest]

/-- What has a square within the range is itself far within the range. -/
theorem abs_le_half_largest {x : ℝ} (h : x ^ 2 ≤ largest) : |x| ≤ largest / 2 := by
  refine abs_le_of_sq_le_sq ?_ (by linarith [largest_pos])
  nlinarith [four_le_largest]

theorem abs_le_largest_of_sq {x : ℝ} (h : x ^ 2 ≤ largest) : |x| ≤ largest :=
  (abs_le_half_largest h).trans (by linarith [largest_pos])

theorem abs_zero_le_largest : |(0 : ℝ)| ≤ largest := abs_zero.trans_le largest_pos.le

theorem abs_one_le_largest : |(1 : ℝ)| ≤ largest := by
  rw [abs_one]
  linarith [four_le_largest]

theorem abs_two_le_largest : |(2 : ℝ)| ≤ largest := by
  rw [abs_two]
  linarith [four_le_largest]

theorem abs_sqrt_le {x : ℝ} (h : x ≤ largest) : |√x| ≤ largest := by
  rcases le_total 0 x with h0 | h0
  · exact abs_le_largest_of_sq (by rwa [Real.sq_sqrt h0])
  · rw [Real.sqrt_eq_zero_of_nonpos h0, abs_zero]
    exact largest_pos.le

/-- A number, an infinite value, or no number. -/
inductive Overflowing where
  | number (x : ℝ) (le : |x| ≤ largest)
  /-- A value beyond the range, on one side or the other. -/
  | infinite (negative : Bool)
  | nan

namespace Overflowing

/-! ## The arithmetic -/

/-- A real number, if it is within the range, and else an infinite value with its sign. -/
noncomputable def ofReal (x : ℝ) : Overflowing :=
  if h : |x| ≤ largest then number x h else infinite (decide (x < 0))

/-- The place in the order of all values; there is none for a value that is no number. -/
noncomputable def place? : Overflowing → Option EReal
  | number x _ => some x
  | infinite false => some ⊤
  | infinite true => some ⊥
  | nan => none

/-- A comparison of places. -/
def Compare (p : EReal → EReal → Prop) (a b : Overflowing) : Prop :=
  ∃ x y, a.place? = some x ∧ b.place? = some y ∧ p x y

/-- The opposite value. -/
def neg : Overflowing → Overflowing
  | number x h => number (-x) ((abs_neg x).trans_le h)
  | infinite s => infinite !s
  | nan => nan

/-- A sum; infinite values of both signs have none. -/
noncomputable def add : Overflowing → Overflowing → Overflowing
  | number x _, number y _ => ofReal (x + y)
  | number _ _, infinite t => infinite t
  | infinite s, number _ _ => infinite s
  | infinite s, infinite t => if s = t then infinite s else nan
  | _, _ => nan

/-- A product; an infinite value and zero have none. -/
noncomputable def mul : Overflowing → Overflowing → Overflowing
  | number x _, number y _ => ofReal (x * y)
  | number x _, infinite t => if x = 0 then nan else infinite (decide (x < 0) ^^ t)
  | infinite s, number y _ => if y = 0 then nan else infinite (s ^^ decide (y < 0))
  | infinite s, infinite t => infinite (s ^^ t)
  | _, _ => nan

/-- A quotient; two zeros and two infinite values have none. -/
noncomputable def div : Overflowing → Overflowing → Overflowing
  | number x _, number y _ =>
    if y = 0 then (if x = 0 then nan else infinite (decide (x < 0))) else ofReal (x / y)
  | number _ _, infinite _ => ofReal 0
  | infinite s, number y _ => infinite (s ^^ decide (y < 0))
  | _, _ => nan

/-- The square root; a negative value has none. -/
noncomputable def sqrt : Overflowing → Overflowing
  | number x _ => if 0 ≤ x then ofReal √x else nan
  | infinite false => infinite false
  | _ => nan

/-- The modulus. -/
noncomputable def abs : Overflowing → Overflowing
  | number x h => number |x| ((abs_abs x).trans_le h)
  | infinite _ => infinite false
  | nan => nan

noncomputable instance scalar : Scalar Overflowing where
  zero := ofReal 0
  one := ofReal 1
  natCast n := ofReal n
  add := add
  sub a b := add a (neg b)
  mul := mul
  div := div
  neg := neg
  lt := Compare (· < ·)
  le := Compare (· ≤ ·)
  sqrt := sqrt
  abs := abs
  decideLt _ _ := Classical.dec _
  decideLe _ _ := Classical.dec _

/-! ## Numbers within the range -/

variable {a b : Overflowing} {x y : ℝ}

theorem ofReal_zero : ofReal 0 = 0 := rfl

theorem ofReal_one : ofReal 1 = 1 := rfl

theorem ofReal_natCast (n : ℕ) : ofReal n = (n : Overflowing) := rfl

theorem ofReal_of_le (h : |x| ≤ largest) : ofReal x = number x h := dif_pos h

theorem ofReal_of_gt (h : largest < x) : ofReal x = infinite false := by
  have habs : ¬|x| ≤ largest := not_le.2 (h.trans_le (le_abs_self x))
  have hsign : ¬x < 0 := by linarith [largest_pos]
  rw [ofReal, dif_neg habs, decide_eq_false hsign]

theorem ofReal_of_lt (h : x < -largest) : ofReal x = infinite true := by
  have habs : ¬|x| ≤ largest := fun hle => by linarith [neg_abs_le x]
  have hsign : x < 0 := by linarith [largest_pos]
  rw [ofReal, dif_neg habs, decide_eq_true hsign]

theorem neg_ofReal (x : ℝ) : -ofReal x = ofReal (-x) := by
  show neg (ofReal x) = _
  unfold ofReal
  by_cases h : |x| ≤ largest
  · rw [dif_pos h, dif_pos ((abs_neg x).trans_le h)]
    rfl
  · rw [dif_neg h, dif_neg (by rwa [abs_neg]), neg]
    have hne : x ≠ 0 := by
      rintro rfl
      exact h abs_zero_le_largest
    congr 1
    rcases lt_or_gt_of_ne hne with hlt | hgt
    · simp [hlt, hlt.le]
    · simp [hgt, hgt.le]

section InRange

variable (hx : |x| ≤ largest) (hy : |y| ≤ largest)

include hx

theorem sqrt_ofReal (h : 0 ≤ x) : Scalar.sqrt (ofReal x) = ofReal √x := by
  rw [ofReal_of_le hx]
  exact if_pos h

include hy

theorem ofReal_add : ofReal x + ofReal y = ofReal (x + y) := by
  rw [ofReal_of_le hx, ofReal_of_le hy]
  rfl

theorem ofReal_sub : ofReal x - ofReal y = ofReal (x - y) := by
  show ofReal x + -ofReal y = _
  rw [neg_ofReal, ofReal_add hx ((abs_neg y).trans_le hy), sub_eq_add_neg]

theorem ofReal_mul : ofReal x * ofReal y = ofReal (x * y) := by
  rw [ofReal_of_le hx, ofReal_of_le hy]
  rfl

theorem ofReal_div (h : y ≠ 0) : ofReal x / ofReal y = ofReal (x / y) := by
  rw [ofReal_of_le hx, ofReal_of_le hy]
  exact if_neg h

theorem ofReal_le_ofReal : ofReal x ≤ ofReal y ↔ x ≤ y := by
  rw [ofReal_of_le hx, ofReal_of_le hy]
  show Compare _ _ _ ↔ _
  simp [Compare, place?]

theorem ofReal_lt_ofReal : ofReal x < ofReal y ↔ x < y := by
  rw [ofReal_of_le hx, ofReal_of_le hy]
  show Compare _ _ _ ↔ _
  simp [Compare, place?]

end InRange

theorem isZero_ofReal_iff (hx : |x| ≤ largest) : Scalar.isZero (ofReal x) = true ↔ x = 0 := by
  have h0 := abs_zero_le_largest
  unfold Scalar.isZero
  rw [Bool.and_eq_true, decide_eq_true_iff, decide_eq_true_iff, ← ofReal_zero,
    ofReal_le_ofReal hx h0, ofReal_le_ofReal h0 hx]
  exact ⟨fun h => le_antisymm h.1 h.2, fun h => ⟨h.le, h.ge⟩⟩

theorem isNaN_ofReal (x : ℝ) : Scalar.isNaN (ofReal x) = false := by
  have hle : ofReal x ≤ ofReal x := by
    show Compare _ _ _
    unfold ofReal
    split
    · exact ⟨_, _, rfl, rfl, le_rfl⟩
    · cases decide (x < 0) <;> exact ⟨_, _, rfl, rfl, le_rfl⟩
  simpa [Scalar.isNaN] using hle

theorem two_eq : (Scalar.two : Overflowing) = ofReal 2 := by
  have h1 := abs_one_le_largest
  rw [Scalar.two, ← ofReal_one, ofReal_add h1 h1, one_add_one_eq_two]

theorem larger_ofReal (hx : |x| ≤ largest) (hy : |y| ≤ largest) :
    Scalar.larger (ofReal x) (ofReal y) = ofReal (Scalar.larger x y) := by
  unfold Scalar.larger
  simp only [isNaN_ofReal, Scalar.isNaN_eq_false, ofReal_lt_ofReal hx hy]
  simp only [Bool.false_eq_true, if_false]
  split <;> rfl

/-- A value within the bounds is left alone. -/
theorem clamp_ofReal (hx : 0 < x) (hx1 : x < 1) : Scalar.clamp 0 1 (ofReal x) = ofReal x := by
  have h0 := abs_zero_le_largest
  have h1 := abs_one_le_largest
  have hxl : |x| ≤ largest := by rw [abs_of_pos hx]; linarith [four_le_largest]
  rw [← ofReal_zero, ← ofReal_one, Scalar.clamp, if_neg (by rw [ofReal_lt_ofReal hxl h0]; linarith),
    if_neg (by rw [ofReal_lt_ofReal h1 hxl]; linarith)]

/-! ## Beyond the range -/

section Beyond

variable (hx : |x| ≤ largest)

include hx

theorem infinite_mul_ofReal (h : 0 < x) : infinite false * ofReal x = infinite false := by
  rw [ofReal_of_le hx]
  show mul _ _ = _
  simp [mul, h.ne', h.le]

theorem infinite_div_ofReal (h : 0 < x) : infinite false / ofReal x = infinite false := by
  rw [ofReal_of_le hx]
  show div _ _ = _
  simp [div, h.le]

theorem ofReal_div_infinite (s : Bool) : ofReal x / infinite s = ofReal 0 := by
  rw [ofReal_of_le hx]
  rfl

theorem ofReal_le_infinite : ofReal x ≤ infinite false := by
  rw [ofReal_of_le hx]
  exact ⟨_, _, rfl, rfl, le_top⟩

theorem not_infinite_le : ¬infinite false ≤ ofReal x := by
  rw [ofReal_of_le hx]
  rintro ⟨y, z, hy, hz, hle⟩
  cases hy
  cases hz
  exact EReal.coe_ne_top x (top_le_iff.1 hle)

end Beyond

theorem zero_lt_infinite : 0 < infinite false := by
  rw [← ofReal_zero, ofReal_of_le abs_zero_le_largest]
  exact ⟨_, _, rfl, rfl, EReal.coe_lt_top 0⟩

theorem not_zero_lt_infinite : ¬0 < infinite true := by
  rw [← ofReal_zero, ofReal_of_le abs_zero_le_largest]
  rintro ⟨y, z, -, hz, hlt⟩
  cases hz
  exact not_lt_bot hlt

theorem isZero_infinite (s : Bool) : Scalar.isZero (infinite s) = false := by
  rw [Scalar.isZero, ← ofReal_zero, ofReal_of_le abs_zero_le_largest,
    Bool.and_eq_false_iff, decide_eq_false_iff_not, decide_eq_false_iff_not]
  cases s
  · left
    rintro ⟨y, z, hy, hz, hle⟩
    cases hy
    cases hz
    exact EReal.coe_ne_top 0 (top_le_iff.1 hle)
  · right
    rintro ⟨y, z, hy, hz, hle⟩
    cases hy
    cases hz
    exact EReal.coe_ne_bot 0 (le_bot_iff.1 hle)

theorem infinite_mul_infinite : infinite false * infinite false = infinite false := rfl

theorem nan_div (a : Overflowing) : nan / a = nan := by cases a <;> rfl

theorem nan_add (a : Overflowing) : nan + a = nan := by cases a <;> rfl

theorem mul_nan (a : Overflowing) : a * nan = nan := by cases a <;> rfl

theorem neg_nan : -nan = nan := rfl

theorem infinite_sub_infinite (s : Bool) : infinite s - infinite s = nan := by cases s <;> rfl

theorem not_le_nan (a : Overflowing) : ¬a ≤ nan := by
  rintro ⟨x, y, -, hy, -⟩
  cases hy

theorem not_nan_le (a : Overflowing) : ¬nan ≤ a := by
  rintro ⟨x, y, hx, -, -⟩
  cases hx

theorem not_lt_nan (a : Overflowing) : ¬a < nan := by
  rintro ⟨x, y, -, hy, -⟩
  cases hy

theorem isZero_nan : Scalar.isZero nan = false := by
  unfold Scalar.isZero
  rw [decide_eq_false (not_nan_le 0), Bool.false_and]

/-- Sums of numbers that are not negative overflow as soon as one of them does. -/
theorem ofReal_add_of_nonneg (hx : 0 ≤ x) (hy : 0 ≤ y) : ofReal x + ofReal y = ofReal (x + y) := by
  rcases le_or_gt x largest with hx' | hx'
  · have hxr : |x| ≤ largest := by rwa [abs_of_nonneg hx]
    rcases le_or_gt y largest with hy' | hy'
    · exact ofReal_add hxr (by rwa [abs_of_nonneg hy])
    · rw [ofReal_of_gt hy', ofReal_of_gt (show largest < x + y by linarith), ofReal_of_le hxr]
      rfl
  · rw [ofReal_of_gt hx', ofReal_of_gt (show largest < x + y by linarith)]
    rcases le_or_gt y largest with hy' | hy'
    · rw [ofReal_of_le (by rwa [abs_of_nonneg hy])]
      rfl
    · rw [ofReal_of_gt hy']
      rfl

/-! ## Sums -/

variable {n : ℕ} {f : ℕ → ℝ}

/-- A sum of numbers that are not negative is their sum, or infinite. -/
theorem sum_ofReal_of_nonneg (hf : ∀ i < n, 0 ≤ f i) :
    Scalar.sum n (fun i => ofReal (f i)) = ofReal (∑ i ∈ range n, f i) := by
  induction n with
  | zero => rfl
  | succ n ih =>
      rw [Scalar.sum_succ, ih fun i hi => hf i (by omega), sum_range_succ]
      exact ofReal_add_of_nonneg (sum_nonneg fun i hi => hf i (by have := mem_range.1 hi; omega))
        (hf n (by omega))

/-- A sum is exact as long as no partial sum overflows. -/
theorem sum_ofReal (hf : ∀ i < n, |f i| ≤ largest)
    (hsums : ∀ k < n, |∑ i ∈ range k, f i| ≤ largest) :
    Scalar.sum n (fun i => ofReal (f i)) = ofReal (∑ i ∈ range n, f i) := by
  induction n with
  | zero => rfl
  | succ n ih =>
      rw [Scalar.sum_succ, ih (fun i hi => hf i (by omega)) fun k hk => hsums k (by omega),
        sum_range_succ]
      exact ofReal_add (hsums n (by omega)) (hf n (by omega))

/-! ## Results that are numbers -/

theorem eq_of_ofReal {z : ℝ} {hz : |z| ≤ largest} (h : ofReal x = number z hz) : x = z := by
  unfold ofReal at h
  split at h
  · cases h; rfl
  · cases h

/-- Within the range different numbers differ. -/
theorem ofReal_inj_of_le (hy : |y| ≤ largest) (h : ofReal x = ofReal y) : x = y := by
  rw [ofReal_of_le hy] at h
  exact eq_of_ofReal h

theorem numbers_of_add {z : ℝ} {hz : |z| ≤ largest} (h : a + b = number z hz) :
    ∃ x y hx hy, a = number x hx ∧ b = number y hy ∧ x + y = z := by
  change add a b = _ at h
  rcases a with ⟨x, hx⟩ | s | _ <;> rcases b with ⟨y, hy⟩ | t | _
  case number.number => exact ⟨x, y, hx, hy, rfl, rfl, eq_of_ofReal h⟩
  case infinite.infinite =>
    change (if s = t then infinite s else nan) = _ at h
    split at h <;> cases h
  all_goals cases h

theorem numbers_of_mul {z : ℝ} {hz : |z| ≤ largest} (h : a * b = number z hz) :
    ∃ x y hx hy, a = number x hx ∧ b = number y hy ∧ x * y = z := by
  change mul a b = _ at h
  rcases a with ⟨x, hx⟩ | s | _ <;> rcases b with ⟨y, hy⟩ | t | _
  case number.number => exact ⟨x, y, hx, hy, rfl, rfl, eq_of_ofReal h⟩
  case number.infinite =>
    change (if x = 0 then nan else infinite _) = _ at h
    split at h <;> cases h
  case infinite.number =>
    change (if y = 0 then nan else infinite _) = _ at h
    split at h <;> cases h
  all_goals cases h

/-- A root that is not beyond a number is the root of a number. -/
theorem number_of_sqrt_le (hy : |y| ≤ largest) (h : Scalar.sqrt a ≤ ofReal y) :
    ∃ x hx, a = number x hx ∧ 0 ≤ x ∧ √x ≤ y := by
  rcases a with ⟨x, hx⟩ | s | _
  · by_cases hx0 : 0 ≤ x
    · rw [← ofReal_of_le hx, sqrt_ofReal hx hx0] at h
      exact ⟨x, hx, rfl, hx0, (ofReal_le_ofReal (abs_sqrt_le (abs_le.1 hx).2) hy).1 h⟩
    · change sqrt (number x hx) ≤ _ at h
      rw [sqrt, if_neg hx0] at h
      exact absurd h (not_nan_le _)
  · cases s
    · exact absurd h (not_infinite_le hy)
    · exact absurd h (not_nan_le _)
  · exact absurd h (not_nan_le _)

/-! ## Radii -/

theorem isFinite_ofReal (hx : |x| ≤ largest) : Scalar.isFinite (ofReal x) = true := by
  have h0 := abs_zero_le_largest
  rw [Scalar.isFinite, ofReal_sub hx hx, sub_self, isZero_ofReal_iff h0]

/-- Numbers pass the check of the radius if they are positive. -/
theorem checkRadius_ofReal (hx : |x| ≤ largest) (h : 0 < x) : checkRadius (ofReal x) = .ok () := by
  have h0 := abs_zero_le_largest
  exact if_pos ⟨(ofReal_lt_ofReal h0 hx).2 h, isFinite_ofReal hx⟩

/-- Nothing else passes it. -/
theorem exists_of_checkRadius (h : checkRadius a = .ok ()) :
    ∃ r, |r| ≤ largest ∧ 0 < r ∧ a = ofReal r := by
  have h0 := abs_zero_le_largest
  unfold checkRadius at h
  split at h
  · rename_i hradius
    obtain ⟨hpos, hfinite⟩ := hradius
    rcases a with ⟨x, hx⟩ | s | _
    · rw [← ofReal_of_le hx] at hpos ⊢
      exact ⟨x, hx, (ofReal_lt_ofReal h0 hx).1 hpos, rfl⟩
    · exact absurd hfinite (by rw [Scalar.isFinite, infinite_sub_infinite, isZero_nan]; decide)
    · exact absurd hpos (not_lt_nan _)
  · cases h

end Overflowing

end TrustRegion
