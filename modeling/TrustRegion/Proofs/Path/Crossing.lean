import Mathlib
import TrustRegion.Path.Crossing
import TrustRegion.Proofs.Exact.Space

/-!
# The point where a segment leaves a ball

In exact arithmetic, a segment that starts inside a ball about the origin and ends outside of it
crosses the sphere once.  The quadratic equation for the crossing is then negative at `0` and positive
at `1` (`Crossing.Bracketed`), which makes its discriminant positive and places the root of either
formula strictly between (`Crossing.Bracketed.root_mem`).

Main result: **`Crossing.share_mem`** — the share of the segment that is computed lies strictly between
zero and one, and the point after that share has exactly the radius as its norm.
-/

namespace TrustRegion

namespace Crossing

open scoped RealInnerProductSpace

/-! ## The quadratic equation -/

/-- The value of the quadratic polynomial. -/
def Coefficients.eval (k : Coefficients ℝ) (t : ℝ) : ℝ := k.a * t ^ 2 + k.b * t + k.c

/-- Is the polynomial convex, negative at zero and positive at one? -/
structure Bracketed (k : Coefficients ℝ) : Prop where
  /-- The polynomial is convex. -/
  a_pos : 0 < k.a
  /-- It is negative at zero. -/
  c_neg : k.c < 0
  /-- It is positive at one. -/
  one_pos : 0 < k.a + k.b + k.c

namespace Bracketed

variable {k : Coefficients ℝ}

theorem sq_b_lt (h : Bracketed k) : k.b ^ 2 < k.b ^ 2 - 4 * k.a * k.c := by
  have := mul_pos h.a_pos (neg_pos.2 h.c_neg)
  linarith

/-- The guard of the discriminant does nothing. -/
theorem discriminant_eq (h : Bracketed k) : discriminant k = k.b ^ 2 - 4 * k.a * k.c := by
  have hpos : 0 ≤ k.b ^ 2 - 4 * k.a * k.c := (sq_nonneg k.b).trans h.sq_b_lt.le
  have hfour : ((4 : ℕ) : ℝ) = 4 := by norm_num
  unfold discriminant
  rw [Scalar.larger_eq_max, hfour, ← sq]
  exact max_eq_left hpos

/-- The discriminant in the words of its definition. -/
theorem discriminant_unguarded (h : Bracketed k) :
    discriminant k = k.b * k.b - ((4 : ℕ) : ℝ) * k.a * k.c := by
  rw [h.discriminant_eq, Nat.cast_ofNat, sq]

theorem discriminant_nonneg (h : Bracketed k) : 0 ≤ discriminant k :=
  h.discriminant_eq ▸ (sq_nonneg k.b).trans h.sq_b_lt.le

/-- The root of the discriminant is larger than the modulus of the linear coefficient. -/
theorem abs_b_lt (h : Bracketed k) : |k.b| < √(discriminant k) := by
  rw [h.discriminant_eq]
  exact Real.lt_sqrt_of_sq_lt (by rw [sq_abs]; exact h.sq_b_lt)

theorem sq_sqrt (h : Bracketed k) : √(discriminant k) ^ 2 = k.b ^ 2 - 4 * k.a * k.c := by
  rw [Real.sq_sqrt h.discriminant_nonneg, h.discriminant_eq]

theorem discriminant_pos (h : Bracketed k) : 0 < discriminant k :=
  h.discriminant_eq ▸ (sq_nonneg k.b).trans_lt h.sq_b_lt

/-- The divisor of the formula that subtracts nothing is positive, whatever sign the linear coefficient
has. -/
theorem b_add_sqrt_pos (h : Bracketed k) : 0 < k.b + √(discriminant k) :=
  neg_lt_iff_pos_add.1 (abs_lt.1 h.abs_b_lt).1

/-- The two formulas agree. -/
theorem formulas_eq (h : Bracketed k) :
    -Scalar.two * k.c / (k.b + √(discriminant k)) =
      (-k.b + √(discriminant k)) / (Scalar.two * k.a) := by
  rw [Scalar.two_eq, div_eq_div_iff h.b_add_sqrt_pos.ne' (mul_pos two_pos h.a_pos).ne']
  linear_combination -h.sq_sqrt

/-- Whichever formula is taken, the root is what the other one gives as well. -/
theorem root_eq (h : Bracketed k) :
    root k = -Scalar.two * k.c / (k.b + √(discriminant k)) ∧
      root k = (-k.b + √(discriminant k)) / (Scalar.two * k.a) := by
  unfold root
  rw [Scalar.sqrt_eq]
  split
  · exact ⟨rfl, h.formulas_eq⟩
  · exact ⟨h.formulas_eq.symm, rfl⟩

/-- Both formulas give a positive number at which the polynomial vanishes. -/
theorem root_pos_and_eval (h : Bracketed k) : 0 < root k ∧ k.eval (root k) = 0 := by
  have hwidth := abs_lt.1 h.abs_b_lt
  have hsq := h.sq_sqrt
  unfold root Coefficients.eval
  rw [Scalar.sqrt_eq, Scalar.two_eq]
  generalize √(discriminant k) = width at hwidth hsq
  by_cases hb : 0 < k.b
  · rw [if_pos hb]
    have hden : 0 < k.b + width := by linarith
    refine ⟨div_pos (by linarith [h.c_neg]) hden, ?_⟩
    field_simp
    linear_combination k.c * hsq
  · rw [if_neg hb]
    have ha := h.a_pos
    refine ⟨div_pos (by linarith) (by linarith), ?_⟩
    field_simp
    linear_combination hsq

/-- Where the polynomial vanishes at a positive number, that number is less than one. -/
theorem lt_one_of_eval (h : Bracketed k) {t : ℝ} (ht : 0 < t) (hroot : k.eval t = 0) : t < 1 := by
  by_contra hge
  -- the polynomial is convex and negative at zero, so up to a zero beyond one it stays below zero
  have hline : t * (k.a + k.b + k.c) = (1 - t) * (t * k.a - k.c) := by
    unfold Coefficients.eval at hroot
    linear_combination hroot
  have hleft : 0 < t * (k.a + k.b + k.c) := mul_pos ht h.one_pos
  have hright : (1 - t) * (t * k.a - k.c) ≤ 0 :=
    mul_nonpos_of_nonpos_of_nonneg (by linarith) (by nlinarith [h.a_pos, h.c_neg])
  linarith

/-- **The root that is computed**: it lies strictly between zero and one, and solves the equation. -/
theorem root_mem (h : Bracketed k) : 0 < root k ∧ root k < 1 ∧ k.eval (root k) = 0 :=
  ⟨h.root_pos_and_eval.1, h.lt_one_of_eval h.root_pos_and_eval.1 h.root_pos_and_eval.2,
    h.root_pos_and_eval.2⟩

/-- It is the only positive root. -/
theorem eval_eq_zero_iff (h : Bracketed k) {t : ℝ} (ht : 0 < t) : k.eval t = 0 ↔ t = root k := by
  obtain ⟨hpos, -, hroot⟩ := h.root_mem
  constructor
  · intro heval
    unfold Coefficients.eval at heval hroot
    have hfactors : (t - root k) * (k.a * (t + root k) + k.b) = 0 := by
      linear_combination heval - hroot
    -- at a positive root the second factor has the sign of the product of the leading and the last coefficient
    have hsecond : t * (k.a * (t + root k) + k.b) = k.a * (t * root k) - k.c := by
      linear_combination heval
    have hne : t * (k.a * (t + root k) + k.b) ≠ 0 := by
      have := mul_pos h.a_pos (mul_pos ht hpos)
      linarith [h.c_neg]
    exact sub_eq_zero.1 ((mul_eq_zero.1 hfactors).resolve_right (right_ne_zero_of_mul hne))
  · rintro rfl
    exact hroot

end Bracketed

/-! ## The segment -/

variable {n : ℕ} {p q : Vec ℝ} {radius : ℝ}

theorem a_coefficients (hp : p.size = n) (hq : q.size = n) (hr : radius ≠ 0) :
    (coefficients p q radius).a * radius ^ 2 = ‖q.toSpace n - p.toSpace n‖ ^ 2 := by
  show (Scalar.sum (min p.size q.size) _) * _ = _
  rw [hp, hq, min_self, Vec.sum_entry, EuclideanSpace.real_norm_sq_eq, Finset.sum_mul]
  refine Finset.sum_congr rfl fun i _ => ?_
  show (q.entry i / radius - p.entry i / radius) * (q.entry i / radius - p.entry i / radius) *
    radius ^ 2 = (q.entry i - p.entry i) ^ 2
  field_simp

theorem b_coefficients (hp : p.size = n) (hq : q.size = n) (hr : radius ≠ 0) :
    (coefficients p q radius).b * radius ^ 2 =
      2 * ⟪p.toSpace n, q.toSpace n - p.toSpace n⟫ := by
  show (Scalar.sum (min p.size q.size) _) * Scalar.two * _ = _
  rw [hp, hq, min_self, Vec.sum_entry, Scalar.two_eq, PiLp.inner_apply, Finset.mul_sum,
    Finset.sum_mul, Finset.sum_mul]
  refine Finset.sum_congr rfl fun i _ => ?_
  show p.entry i / radius * (q.entry i / radius - p.entry i / radius) * 2 * radius ^ 2 =
    2 * ((q.entry i - p.entry i) * p.entry i)
  field_simp

theorem c_coefficients (hp : p.size = n) (hr : radius ≠ 0) :
    (coefficients p q radius).c * radius ^ 2 = ‖p.toSpace n‖ ^ 2 - radius ^ 2 := by
  show (p.norm / radius + 1) * (p.norm / radius - 1) * radius ^ 2 = _
  rw [Vec.norm_eq hp]
  field_simp
  ring

/-- The polynomial, in units of the radius, is the square of the distance from the origin along the
segment, less one. -/
theorem eval_coefficients (hp : p.size = n) (hq : q.size = n) (hr : radius ≠ 0) (t : ℝ) :
    (coefficients p q radius).eval t * radius ^ 2 =
      ‖p.toSpace n + t • (q.toSpace n - p.toSpace n)‖ ^ 2 - radius ^ 2 := by
  have ha := a_coefficients hp hq hr
  have hb := b_coefficients hp hq hr
  have hc := c_coefficients (q := q) hp hr
  rw [norm_add_sq_real, norm_smul, inner_smul_right, mul_pow, Real.norm_eq_abs, sq_abs]
  unfold Coefficients.eval
  linear_combination t ^ 2 * ha + t * hb + hc

/-- A segment from inside the ball to outside of it gives a bracketed equation. -/
theorem bracketed_coefficients (hp : p.size = n) (hq : q.size = n)
    (hin : ‖p.toSpace n‖ < radius) (hout : radius < ‖q.toSpace n‖) :
    Bracketed (coefficients p q radius) := by
  have hr : 0 < radius := (norm_nonneg _).trans_lt hin
  have hr2 : 0 < radius ^ 2 := pow_pos hr 2
  have hne : q.toSpace n - p.toSpace n ≠ 0 := by
    intro h
    rw [sub_eq_zero.1 h] at hout
    exact lt_asymm hin hout
  refine ⟨?_, ?_, ?_⟩
  · refine pos_of_mul_pos_left ?_ hr2.le
    rw [a_coefficients hp hq hr.ne']
    exact pow_pos (norm_pos_iff.2 hne) 2
  · refine neg_of_mul_neg_left ?_ hr2.le
    rw [c_coefficients hp hr.ne']
    exact sub_neg.2 (pow_lt_pow_left₀ hin (norm_nonneg _) two_ne_zero)
  · have hone := eval_coefficients hp hq hr.ne' 1
    rw [one_smul, add_sub_cancel] at hone
    refine pos_of_mul_pos_left ?_ hr2.le
    have hpow : radius ^ 2 < ‖q.toSpace n‖ ^ 2 := pow_lt_pow_left₀ hout hr.le two_ne_zero
    unfold Coefficients.eval at hone
    linarith

/-- For such a segment neither the guards nor the clamp change the root. -/
theorem share_eq_root (hp : p.size = n) (hq : q.size = n) (hin : ‖p.toSpace n‖ < radius)
    (hout : radius < ‖q.toSpace n‖) : share p q radius = root (coefficients p q radius) := by
  have h := bracketed_coefficients hp hq hin hout
  unfold share
  rw [if_neg (not_le.2 h.a_pos), Scalar.clamp_of_mem h.root_mem.1.le h.root_mem.2.1.le]

/-- **The crossing.**  The share of a segment that starts inside the ball and ends outside of it lies
strictly between zero and one, and the point after it lies on the sphere. -/
theorem share_mem (hp : p.size = n) (hq : q.size = n) (hin : ‖p.toSpace n‖ < radius)
    (hout : radius < ‖q.toSpace n‖) :
    0 < share p q radius ∧ share p q radius < 1 ∧
      ‖p.toSpace n + share p q radius • (q.toSpace n - p.toSpace n)‖ = radius := by
  have hr : 0 < radius := (norm_nonneg _).trans_lt hin
  obtain ⟨hpos, hlt, hroot⟩ := (bracketed_coefficients hp hq hin hout).root_mem
  rw [share_eq_root hp hq hin hout]
  refine ⟨hpos, hlt, ?_⟩
  have h := eval_coefficients hp hq hr.ne' (root (coefficients p q radius))
  rw [hroot, zero_mul] at h
  exact (sq_eq_sq₀ (norm_nonneg _) hr.le).1 (sub_eq_zero.1 h.symm)

end Crossing

end TrustRegion
