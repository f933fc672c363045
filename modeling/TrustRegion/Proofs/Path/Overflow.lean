import Mathlib
import TrustRegion.Proofs.Exact.OverflowVec
import TrustRegion.Proofs.Path.Landing

/-!
# Steps along the gradient that overflow

In the arithmetic that overflows, the step towards the Cauchy point, cut off at the radius, can fail in two
ways only: the norm of the gradient and the curvature along it are both infinite, so their quotient is no
number; or the step is cut off, and the radius is so much larger than the gradient that their quotient is
infinite.  `CauchyPoint.Survives` excludes the two.

Where it holds the step is a vector of numbers that is not longer than the radius
(**`CauchyPoint.exists_isStep`**), and where it does not hold no entry of the step is a number
(**`CauchyPoint.lost_of_not_survives`**).
-/

namespace TrustRegion

open Overflowing

namespace CauchyPoint

/-- Does the step within the radius `r` consist of numbers? -/
structure Survives (p : CauchyPoint Overflowing) (r : ℝ) : Prop where
  /-- The gradient and the curvature along it do not both overflow. -/
  curvature : p.gradientNorm = infinite false → p.curvature ≠ infinite false
  /-- A radius that cuts the step off does not overflow in units of the gradient. -/
  radius : ∀ x hx, p.gradientNorm = number x hx → 0 < x → p.norm.reaches (ofReal r) = true →
    r ≤ largest * x

variable {q : Model Overflowing} {g : Vec ℝ} {c : Overflowing} {r x : ℝ}

/-! ## The distance -/

section Distance

variable (hx : |x| ≤ largest) (hpos : 0 < x)

include hx hpos

/-- A quotient by a positive curvature is zero or positive. -/
theorem exists_div_of_pos (hc : 0 < c) : ∃ a, 0 ≤ a ∧ ofReal x / c = ofReal a := by
  have h0 := abs_zero_le_largest
  rcases c with ⟨y, hy⟩ | s | _
  · rw [← ofReal_of_le hy] at hc ⊢
    have hy0 : 0 < y := (ofReal_lt_ofReal h0 hy).1 hc
    exact ⟨x / y, (div_pos hpos hy0).le, ofReal_div hx hy hy0.ne'⟩
  · exact ⟨0, le_rfl, ofReal_div_infinite hx s⟩
  · exact absurd hc (not_lt_nan _)

/-- Multiplying by a positive number overflows, or is exact. -/
theorem mul_cases {a : ℝ} (ha : 0 ≤ a) :
    ofReal a * ofReal x = infinite false ∨ a ≤ largest ∧ ofReal a * ofReal x = ofReal (a * x) := by
  rcases le_or_gt a largest with h | h
  · exact Or.inr ⟨h, ofReal_mul ((abs_of_nonneg ha).trans_le h) hx⟩
  · rw [ofReal_of_gt h]
    exact Or.inl (infinite_mul_ofReal hx hpos)

/-- The distance is infinite, or an exact multiple of the norm of the gradient. -/
theorem distance_cases (c : Overflowing) :
    distance (ofReal x) c = .infinite ∨ distance (ofReal x) c = .finite (infinite false) ∨
      ∃ t, 0 ≤ t ∧ t ≤ largest ∧ distance (ofReal x) c = .finite (ofReal (t * x)) := by
  unfold distance
  by_cases hc : 0 < c
  · rw [if_pos hc]
    right
    obtain ⟨a, ha, hdiv⟩ := exists_div_of_pos hx hpos hc
    rw [hdiv]
    rcases mul_cases hx hpos ha with h | ⟨-, h⟩
    · left
      rw [h, infinite_mul_ofReal hx hpos]
    · rw [h]
      rcases mul_cases hx hpos (mul_nonneg ha hpos.le) with h' | ⟨hle, h'⟩
      · exact Or.inl (by rw [h'])
      · exact Or.inr ⟨a * x, mul_nonneg ha hpos.le, hle, by rw [h']⟩
  · exact Or.inl (if_neg hc)

/-- A point within the radius is at a distance that is an exact multiple. -/
theorem exists_of_not_reaches (hr : |r| ≤ largest)
    (h : (distance (ofReal x) c).reaches (ofReal r) = false) :
    ∃ t, 0 ≤ t ∧ t ≤ largest ∧ t * x < r ∧ distance (ofReal x) c = .finite (ofReal (t * x)) := by
  rcases distance_cases hx hpos c with hd | hd | ⟨t, ht, htl, hd⟩
  · rw [hd, Extended.reaches, isNaN_ofReal] at h
    cases h
  · rw [hd, Extended.reaches, decide_eq_true (ofReal_le_infinite hr)] at h
    cases h
  · rw [hd, Extended.reaches, decide_eq_false_iff_not] at h
    have htx : 0 ≤ t * x := mul_nonneg ht hpos.le
    rcases le_or_gt (t * x) largest with hle | hgt
    · rw [ofReal_le_ofReal hr ((abs_of_nonneg htx).trans_le hle), not_le] at h
      exact ⟨t, ht, htl, h, hd⟩
    · rw [ofReal_of_gt hgt] at h
      exact absurd (ofReal_le_infinite hr) h

end Distance

/-- From a gradient whose norm overflows a point is too far for any radius, unless the curvature overflows
as well. -/
theorem reaches_distance_infinite (hr : |r| ≤ largest) (hc : c ≠ infinite false) :
    (distance (infinite false) c).reaches (ofReal r) = true := by
  have h0 := abs_zero_le_largest
  unfold distance
  by_cases hpos : 0 < c
  · rw [if_pos hpos]
    rcases c with ⟨y, hy⟩ | s | _
    · rw [← ofReal_of_le hy] at hpos ⊢
      rw [infinite_div_ofReal hy ((ofReal_lt_ofReal h0 hy).1 hpos), infinite_mul_infinite,
        infinite_mul_infinite, Extended.reaches, decide_eq_true (ofReal_le_infinite hr)]
    · cases s
      · exact absurd rfl hc
      · exact absurd hpos not_zero_lt_infinite
    · exact absurd hpos (not_lt_nan _)
  · rw [if_neg hpos, Extended.reaches, isNaN_ofReal]
    rfl

/-! ## The step -/

/-- Is the step within the radius `r` the vector `k` of numbers, which is not longer than `r`, and shorter
unless the step is cut off? -/
structure IsStep (p : CauchyPoint Overflowing) (g : Vec ℝ) (r : ℝ) (k : Vec ℝ) : Prop where
  step : (p.stepWithin g.overflowing (ofReal r)).1 = k.overflowing
  inRange : k.InRange
  norm_le : k.norm ≤ r
  /-- If it is not cut off, it is shorter. -/
  norm_lt : p.norm.reaches (ofReal r) = false → k.norm < r

theorem IsStep.within {p : CauchyPoint Overflowing} {k : Vec ℝ} (h : p.IsStep g r k) :
    (p.stepWithin g.overflowing (ofReal r)).1.Within r := ⟨k, h.step, h.inRange, h.norm_le⟩

theorem IsStep.size {p : CauchyPoint Overflowing} {k : Vec ℝ} (h : p.IsStep g r k) :
    k.size = g.size := by
  have hsize := congrArg Vec.size h.step
  rwa [size_stepWithin, Vec.size_overflowing, Vec.size_overflowing, eq_comm] at hsize

/-- Where there is a gradient, the step is a multiple of it. -/
theorem stepWithin_of_not_isZero {p : CauchyPoint Overflowing} (h : p.isZeroGradient = false)
    (v : Vec Overflowing) (a : Overflowing) :
    (p.stepWithin v a).1 = v.scale (-(p.reach a).1 / p.gradientNorm) := by
  unfold stepWithin
  rw [h]
  rfl

section Step

variable (hq : q.gradient = g.overflowing) (hg : g.InRange) (hr : 0 < r) (hrl : |r| ≤ largest)

include hq

/-! ### No gradient -/

include hr in
theorem isStep_of_zero (hzero : g.norm = 0) : (along q).IsStep g r (Vec.zeros g.size) := by
  have h0 := abs_zero_le_largest
  have hnormSq : g.normSq = 0 := by rw [← g.norm_mul_self, hzero, mul_zero]
  have hnorm : q.gradient.norm = ofReal 0 := by
    rw [hq, Vec.norm_overflowing_of_le (hnormSq.trans_le largest_pos.le), hzero]
  have hisZero : Scalar.isZero q.gradient.norm = true := by rw [hnorm, isZero_ofReal_iff h0]
  have hzeros : (Vec.zeros g.size : Vec ℝ).norm = 0 := Vec.norm_zeros g.size
  refine ⟨?_, Vec.inRange_of_norm (hzeros.trans_le largest_pos.le), hzeros.trans_le hr.le,
    fun _ => hzeros.trans_lt hr⟩
  unfold stepWithin isZeroGradient
  rw [along_gradientNorm, if_pos hisZero, Vec.size_overflowing]
  refine Vec.ext_entry (by simp) fun i _ => ?_
  rw [Vec.entry_zeros, Vec.entry_overflowing, Vec.entry_zeros]
  rfl

/-! ### A gradient whose norm is a number -/

section Number

variable (hle : g.normSq ≤ largest) (hpos : 0 < g.norm)

include hle

theorem gradientNorm_of_le : q.gradient.norm = ofReal g.norm := by
  rw [hq, Vec.norm_overflowing_of_le hle]

include hpos

theorem isZero_of_pos : Scalar.isZero q.gradient.norm = false := by
  rw [gradientNorm_of_le hq hle, Bool.eq_false_iff, Ne,
    isZero_ofReal_iff (Vec.abs_norm_le hle)]
  exact hpos.ne'

/-- The step is the gradient, times the length that is gone in units of its norm. -/
theorem stepWithin_of_reach {d : ℝ} (hd : |d| ≤ largest)
    (hreach : ((along q).reach (ofReal r)).1 = ofReal d) :
    ((along q).stepWithin g.overflowing (ofReal r)).1 =
      g.overflowing.scale (ofReal (-d / g.norm)) := by
  have hnorm : |g.norm| ≤ largest := Vec.abs_norm_le hle
  rw [stepWithin_of_not_isZero (by rw [isZeroGradient, along_gradientNorm, isZero_of_pos hq hle hpos]),
    hreach, along_gradientNorm, gradientNorm_of_le hq hle, neg_ofReal,
    ofReal_div ((abs_neg d).trans_le hd) hnorm hpos.ne']

include hrl in
theorem exists_isStep_of_not_reaches (hreach : (along q).norm.reaches (ofReal r) = false) :
    ∃ k, (along q).IsStep g r k := by
  have hnorm : |g.norm| ≤ largest := Vec.abs_norm_le hle
  have hisZero := isZero_of_pos hq hle hpos
  rw [along_of_isZero_eq_false hisZero, gradientNorm_of_le hq hle] at hreach
  obtain ⟨t, ht, htl, hlt, hdistance⟩ := exists_of_not_reaches hnorm hpos hrl hreach
  have hdl : |t * g.norm| ≤ largest := by
    rw [abs_of_nonneg (mul_nonneg ht hpos.le)]
    exact hlt.le.trans ((le_abs_self r).trans hrl)
  have hlength : ((along q).reach (ofReal r)).1 = ofReal (t * g.norm) := by
    unfold reach
    rw [along_of_isZero_eq_false hisZero, gradientNorm_of_le hq hle]
    simp only [hreach]
    rw [hdistance]
    rfl
  have hfactor : -(t * g.norm) / g.norm = -t := by field_simp
  have hscaled : (g.scale (-t)).norm < r := by
    rwa [Vec.norm_scale, abs_neg, abs_of_nonneg ht, mul_comm]
  refine ⟨g.scale (-t), ?_, Vec.inRange_of_norm (hscaled.le.trans ((le_abs_self r).trans hrl)),
    hscaled.le, fun _ => hscaled⟩
  rw [stepWithin_of_reach hq hle hpos hdl hlength, hfactor,
    Vec.scale_overflowing (Vec.inRange_of_normSq hle) (by rwa [abs_neg, abs_of_nonneg ht])]

section Cut

variable (hreach : (along q).norm.reaches (ofReal r) = true)

include hreach

omit hq hle hpos in
theorem reach_of_reaches : ((along q).reach (ofReal r)).1 = ofReal r := by
  unfold reach
  rw [if_pos hreach]

include hr hrl

theorem isStep_of_reaches (hunit : r ≤ largest * g.norm) :
    (along q).IsStep g r (g.scale (-r / g.norm)) := by
  have hfactor : |-r / g.norm| ≤ largest := by
    rwa [abs_div, abs_neg, abs_of_pos hr, abs_of_pos hpos, div_le_iff₀ hpos]
  have hscaled : (g.scale (-r / g.norm)).norm = r := by
    rw [Vec.norm_scale, abs_div, abs_neg, abs_of_pos hr, abs_of_pos hpos]
    field_simp
  refine ⟨?_, Vec.inRange_of_norm (hscaled.trans_le ((le_abs_self r).trans hrl)), hscaled.le,
    fun h => by rw [h] at hreach; cases hreach⟩
  rw [stepWithin_of_reach hq hle hpos hrl (reach_of_reaches hreach),
    Vec.scale_overflowing (Vec.inRange_of_normSq hle) hfactor]

omit hr in
theorem lost_of_reaches (hunit : largest * g.norm < r) :
    ((along q).stepWithin g.overflowing (ofReal r)).1.Lost := by
  have hfactor : -r / g.norm < -largest := by
    rw [neg_div, neg_lt_neg_iff, lt_div_iff₀ hpos]
    exact hunit
  intro i hi x hx
  rw [size_stepWithin] at hi
  rw [stepWithin_of_reach hq hle hpos hrl (reach_of_reaches hreach), ofReal_of_lt hfactor,
    Vec.entry_scale _ hi]
  intro hnumber
  obtain ⟨-, y, -, hy, -, hinfinite, -⟩ := numbers_of_mul hnumber
  cases hinfinite

end Cut

end Number

/-! ### A gradient whose norm overflows -/

section Infinite

variable (hgt : largest < g.normSq)

include hg hgt

theorem gradientNorm_of_gt : q.gradient.norm = infinite false := by
  rw [hq, Vec.norm_overflowing_of_gt hg hgt]

theorem along_of_gt : along q =
    ⟨infinite false, q.curvatureAt q.gradient,
      distance (infinite false) (q.curvatureAt q.gradient)⟩ := by
  have hisZero : Scalar.isZero q.gradient.norm = false := by
    rw [gradientNorm_of_gt hq hg hgt]
    exact isZero_infinite false
  rw [along_of_isZero_eq_false hisZero, gradientNorm_of_gt hq hg hgt]

/-- A curvature that does not overflow leaves no step at all. -/
theorem isStep_of_gt (hr : 0 < r) (hrl : |r| ≤ largest)
    (hc : q.curvatureAt q.gradient ≠ infinite false) : (along q).IsStep g r (g.scale 0) := by
  have h0 := abs_zero_le_largest
  have hreach : (along q).norm.reaches (ofReal r) = true := by
    rw [along_of_gt hq hg hgt]
    exact reaches_distance_infinite hrl hc
  have hscaled : (g.scale 0).norm = 0 := by rw [Vec.norm_scale, abs_zero, mul_zero]
  refine ⟨?_, Vec.inRange_of_norm (hscaled.trans_le largest_pos.le), hscaled.trans_le hr.le,
    fun h => by rw [h] at hreach; cases hreach⟩
  rw [stepWithin_of_not_isZero (by rw [along_of_gt hq hg hgt]; exact isZero_infinite false),
    reach_of_reaches hreach, along_of_gt hq hg hgt, neg_ofReal,
    ofReal_div_infinite ((abs_neg r).trans_le hrl), Vec.scale_overflowing hg h0]

/-- A curvature that overflows as well makes the step no number throughout. -/
theorem entry_of_gt (hc : q.curvatureAt q.gradient = infinite false) {i : ℕ} (hi : i < g.size) :
    ((along q).stepWithin g.overflowing (ofReal r)).1.entry i = nan := by
  have hdistance : distance (infinite false) (infinite false) = .finite nan := by
    unfold distance
    rw [if_pos zero_lt_infinite]
    rfl
  have hlength : ((along q).reach (ofReal r)).1 = nan := by
    unfold reach
    rw [along_of_gt hq hg hgt, hc]
    simp only [hdistance, Extended.reaches, decide_eq_false (not_le_nan (ofReal r))]
    rfl
  rw [stepWithin_of_not_isZero (by rw [along_of_gt hq hg hgt]; exact isZero_infinite false),
    Vec.entry_scale _ (by simpa using hi), hlength, neg_nan, nan_div, mul_nan]

end Infinite

end Step

/-! ## The two outcomes -/

section Outcome

variable (hq : q.gradient = g.overflowing) (hg : g.InRange) (hr : 0 < r) (hrl : |r| ≤ largest)

include hq hg hr hrl

/-- **A step that survives** is a vector of numbers within the radius. -/
theorem exists_isStep (h : (along q).Survives r) : ∃ k, (along q).IsStep g r k := by
  rcases lt_or_ge largest g.normSq with hgt | hle
  · have hcurvature := h.curvature
    rw [along_of_gt hq hg hgt] at hcurvature
    exact ⟨_, isStep_of_gt hq hg hgt hr hrl (hcurvature rfl)⟩
  rcases g.norm_nonneg.eq_or_lt with hzero | hpos
  · exact ⟨_, isStep_of_zero hq hr hzero.symm⟩
  cases hreach : (along q).norm.reaches (ofReal r) with
  | false => exact exists_isStep_of_not_reaches hq hrl hle hpos hreach
  | true =>
      have hnorm : (along q).gradientNorm = number g.norm (Vec.abs_norm_le hle) := by
        rw [along_gradientNorm, gradientNorm_of_le hq hle]
        exact ofReal_of_le (Vec.abs_norm_le hle)
      exact ⟨_, isStep_of_reaches hq hr hrl hle hpos hreach (h.radius _ _ hnorm hpos hreach)⟩

omit hr hrl in
/-- A gradient whose norm overflows fails only with a curvature that overflows as well. -/
theorem survives_of_gt (hgt : largest < g.normSq) (hc : q.curvatureAt q.gradient ≠ infinite false) :
    (along q).Survives r := by
  refine ⟨fun _ => ?_, fun x hx hnumber => ?_⟩
  · rwa [along_of_gt hq hg hgt]
  · rw [along_of_gt hq hg hgt] at hnumber
    cases hnumber

omit hg hr hrl in
/-- A gradient whose norm is a number fails only with a radius that is too large for it. -/
theorem survives_of_le (hle : g.normSq ≤ largest)
    (hunit : (along q).norm.reaches (ofReal r) = true → 0 < g.norm → r ≤ largest * g.norm) :
    (along q).Survives r := by
  refine ⟨fun hinfinite => ?_, fun x hx hnumber hpos hreach => ?_⟩
  · rw [along_gradientNorm, gradientNorm_of_le hq hle,
      ofReal_of_le (Vec.abs_norm_le hle)] at hinfinite
    cases hinfinite
  · rw [along_gradientNorm, gradientNorm_of_le hq hle] at hnumber
    obtain rfl := eq_of_ofReal hnumber
    exact hunit hreach hpos

omit hr in
/-- **A step that does not survive** has no entry that is a number. -/
theorem lost_of_not_survives (h : ¬(along q).Survives r) :
    ((along q).stepWithin g.overflowing (ofReal r)).1.Lost := by
  rcases lt_or_ge largest g.normSq with hgt | hle
  · have hcurvature : q.curvatureAt q.gradient = infinite false :=
      not_not.1 fun hc => h (survives_of_gt hq hg hgt hc)
    intro i hi x hx
    rw [entry_of_gt hq hg hgt hcurvature (by simpa using hi)]
    exact fun hnumber => by cases hnumber
  · obtain ⟨hreach, hpos, hunit⟩ : (along q).norm.reaches (ofReal r) = true ∧ 0 < g.norm ∧
        largest * g.norm < r := by
      by_contra hnot
      exact h (survives_of_le hq hle fun hreach hpos => not_lt.1 fun hunit =>
        hnot ⟨hreach, hpos, hunit⟩)
    exact lost_of_reaches hq hrl hle hpos hreach hunit

omit hr hrl in
/-- If it has not been cut off, every entry is no number. -/
theorem entry_of_not_survives (h : ¬(along q).Survives r)
    (hreach : (along q).norm.reaches (ofReal r) = false) {i : ℕ} (hi : i < g.size) :
    ((along q).stepWithin g.overflowing (ofReal r)).1.entry i = nan := by
  have hgt : largest < g.normSq := not_le.1 fun hle => h (survives_of_le hq hle fun hreaches => by
    rw [hreach] at hreaches
    cases hreaches)
  exact entry_of_gt hq hg hgt (not_not.1 fun hc => h (survives_of_gt hq hg hgt hc)) hi

end Outcome

end CauchyPoint

end TrustRegion
