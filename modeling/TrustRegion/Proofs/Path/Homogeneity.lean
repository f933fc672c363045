import Mathlib
import TrustRegion.Proofs.Path.Landing
import TrustRegion.Proofs.Solver.Homogeneity

/-!
# Multiples of a problem

A problem whose residuals and gradient are multiplied by `c` has a dogleg path that is larger by the
factor `|c|`, turned round if `c` is negative.  Each part of a step has a degree in `c`: the norm of the
gradient and the distance of the Cauchy point the first, the curvature along the gradient the second,
and the coefficients of the quadratic equation for the crossing, which are measured in units of the
radius, none.  So every comparison on the way comes out as before if the radius is larger by the same
factor, and the step is the same multiple of the step before (**`DoglegPath.landing_multiple`**).
-/

namespace TrustRegion

variable {c : ℝ}

/-! ## The Cauchy point -/

/-- A multiple of a length. -/
noncomputable def Extended.scale : Extended ℝ → ℝ → Extended ℝ
  | finite x, c => finite (x * c)
  | infinite, _ => infinite

theorem Extended.reaches_scale (d : Extended ℝ) (radius : ℝ) (hc : 0 < c) :
    (d.scale c).reaches (radius * c) = d.reaches radius := by
  cases d with
  | finite x => exact decide_eq_decide.2 (mul_le_mul_iff_left₀ hc)
  | infinite => rw [scale, reaches_infinite, reaches_infinite]

/-- What is zero, and what is not, stays so when it is multiplied. -/
theorem Scalar.isZero_mul (x : ℝ) (hc : c ≠ 0) : isZero (x * c) = isZero x :=
  Bool.eq_iff_iff.2 (by rw [isZero_iff, isZero_iff, mul_eq_zero, or_iff_left hc])

namespace CauchyPoint

/-- The Cauchy point of a model whose gradient is multiplied by `c`. -/
noncomputable def multiple (p : CauchyPoint ℝ) (c : ℝ) : CauchyPoint ℝ :=
  { gradientNorm := p.gradientNorm * |c|
    curvature := p.curvature * (c * c)
    norm := p.norm.scale |c| }

theorem isZeroGradient_multiple (p : CauchyPoint ℝ) (hc : c ≠ 0) :
    (p.multiple c).isZeroGradient = p.isZeroGradient :=
  Scalar.isZero_mul _ (abs_ne_zero.2 hc)

theorem isUnbounded_multiple (p : CauchyPoint ℝ) (hc : c ≠ 0) :
    (p.multiple c).isUnbounded = p.isUnbounded := by
  unfold isUnbounded
  rw [isZeroGradient_multiple p hc, multiple,
    decide_eq_decide.2 (mul_pos_iff_of_pos_right (mul_self_pos.2 hc))]

/-- The distance, a third power of the gradient divided by a second one, is of the first degree. -/
theorem distance_multiple (gradientNorm curvature : ℝ) (hc : c ≠ 0) :
    distance (gradientNorm * |c|) (curvature * (c * c)) =
      (distance gradientNorm curvature).scale |c| := by
  unfold distance
  by_cases hpos : 0 < curvature
  · rw [if_pos hpos, if_pos (mul_pos hpos (mul_self_pos.2 hc)), Extended.scale, ← abs_mul_abs_self c]
    have hne : |c| ≠ 0 := abs_ne_zero.2 hc
    congr 1
    field_simp
  · rw [if_neg hpos, if_neg fun h => hpos (pos_of_mul_pos_left h (mul_self_nonneg c))]
    rfl

theorem reach_multiple (p : CauchyPoint ℝ) (radius : ℝ) (hc : c ≠ 0) :
    (p.multiple c).reach (radius * |c|) = ((p.reach radius).1 * |c|, (p.reach radius).2) := by
  unfold reach
  rw [multiple, Extended.reaches_scale _ _ (abs_pos.2 hc)]
  cases hnorm : p.norm with
  | finite x => split <;> rfl
  | infinite =>
      rw [Extended.reaches_infinite]
      rfl

theorem stepWithin_multiple (p : CauchyPoint ℝ) (gradient : Vec ℝ) (radius : ℝ) (hc : c ≠ 0) :
    (p.multiple c).stepWithin (gradient.scale c) (radius * |c|) =
      ((p.stepWithin gradient radius).1.scale c, (p.stepWithin gradient radius).2) := by
  unfold stepWithin
  rw [isZeroGradient_multiple p hc, reach_multiple p radius hc]
  split
  · refine Prod.ext (Vec.ext_entry (by simp) fun i _ => ?_) rfl
    rw [Vec.entry_scale_eq, Vec.entry_zeros, Vec.entry_zeros, zero_mul]
  · refine Prod.ext (Vec.ext_entry (by simp) fun i _ => ?_) rfl
    have hne : |c| ≠ 0 := abs_ne_zero.2 hc
    simp only [Vec.entry_scale_eq, multiple]
    rw [← neg_mul, mul_div_mul_right _ _ hne]
    ring

end CauchyPoint

/-! ## The crossing -/

namespace Crossing

/-- In units of the radius nothing has changed but the sign of the coordinates. -/
theorem coefficients_multiple (p q : Vec ℝ) (radius : ℝ) (hc : c ≠ 0) :
    coefficients (p.scale c) (q.scale c) (radius * |c|) = coefficients p q radius := by
  have hne : |c| ≠ 0 := abs_ne_zero.2 hc
  have hunit : c / |c| * (c / |c|) = 1 := by
    rw [div_mul_div_comm, abs_mul_abs_self, div_self (mul_self_ne_zero.2 hc)]
  have hentry : ∀ (x : Vec ℝ) i, (x.scale c).entry i / (radius * |c|) =
      x.entry i / radius * (c / |c|) := fun x i => by
    rw [Vec.entry_scale_eq, mul_div_mul_comm]
  unfold coefficients
  simp only [Vec.size_scale, hentry, Vec.norm_scale, mul_div_mul_right _ _ hne]
  congr 1
  · rw [Scalar.sum_eq, Scalar.sum_eq]
    refine Finset.sum_congr rfl fun i _ => ?_
    linear_combination (q.entry i / radius - p.entry i / radius) ^ 2 * hunit
  · rw [Scalar.sum_eq, Scalar.sum_eq]
    congr 1
    refine Finset.sum_congr rfl fun i _ => ?_
    linear_combination p.entry i / radius * (q.entry i / radius - p.entry i / radius) * hunit

theorem share_multiple (p q : Vec ℝ) (radius : ℝ) (hc : c ≠ 0) :
    share (p.scale c) (q.scale c) (radius * |c|) = share p q radius := by
  unfold share
  rw [coefficients_multiple p q radius hc]

end Crossing

/-! ## The path -/

namespace DoglegPath

theorem crossingPoint_multiple (x y : Vec ℝ) (radius : ℝ) (hc : c ≠ 0) :
    crossingPoint (x.scale c) (y.scale c) (radius * |c|) = (crossingPoint x y radius).scale c := by
  unfold crossingPoint
  rw [Crossing.share_multiple x y radius hc, Vec.size_scale, ← Vec.tabulate_mul]
  refine Vec.tabulate_congr fun i _ => ?_
  rw [Vec.entry_scale_eq, Vec.entry_scale_eq]
  ring

/-- **The step of a multiple.**  The regime and the flag are the same, and the step is the same multiple
of the step before. -/
theorem landing_multiple (p : CauchyPoint ℝ) (gradient : Vec ℝ) (q? : Option (Vec ℝ)) (radius : ℝ)
    (hc : c ≠ 0) :
    landing (p.multiple c) (gradient.scale c) (q?.map (·.scale c)) (radius * |c|) =
      { landing p gradient q? radius with step := (landing p gradient q? radius).step.scale c } := by
  have habs : 0 < |c| := abs_pos.2 hc
  unfold landing
  cases q? with
  | none => simp only [Option.map_none, CauchyPoint.stepWithin_multiple p gradient radius hc]
  | some q =>
      have hreach : (p.multiple c).norm.reaches (radius * |c|) = p.norm.reaches radius :=
        Extended.reaches_scale _ _ habs
      simp only [Option.map_some, CauchyPoint.stepWithin_multiple p gradient radius hc, Vec.norm_scale,
        mul_le_mul_iff_left₀ habs, hreach, crossingPoint_multiple _ q radius hc]
      split
      · rfl
      · split <;> rfl

end DoglegPath

/-! ## Problems -/

/-- Has the problem `l'` the Jacobian of `l`, and `c` times its residuals and its gradient?  Parameters and
cost may be any. -/
structure Linearization.IsMultiple (l' : Linearization ℝ) (c : ℝ) (l : Linearization ℝ) : Prop where
  jacobian : l'.jacobian = l.jacobian
  residuals : l'.residuals = l.residuals.scale c
  gradient : l'.gradient = l.gradient.scale c

namespace Linearization.IsMultiple

variable {l l' : Linearization ℝ} (h : l'.IsMultiple c l)

include h

theorem system_eq : l'.system = l.system.multiple c := by
  unfold system NormalEquations.multiple
  rw [h.jacobian, h.residuals, h.gradient]

theorem gaussNewtonPoint?_eq (kind : SolverKind) (tolerance : ℝ) :
    DoglegPath.gaussNewtonPoint? kind tolerance l' =
      (DoglegPath.gaussNewtonPoint? kind tolerance l).map (·.scale c) := by
  unfold DoglegPath.gaussNewtonPoint?
  rw [h.system_eq, Solver.answer_multiple]
  cases Solver.answer kind l.system tolerance <;> rfl

variable {n m : ℕ}

/-- The curvature along a multiple. -/
theorem curvatureAt_eq (v : Vec ℝ) :
    (Model.holding n m l').curvatureAt (v.scale c) = (Model.holding n m l).curvatureAt v * (c * c) := by
  unfold Model.curvatureAt
  rw [show (Model.holding n m l').hessian = (Model.holding n m l).hessian by
    unfold Model.holding; rw [h.jacobian]]
  rw [Scalar.sumFrom_eq, Scalar.sumFrom_eq, neg_zero, zero_add, zero_add, Vec.size_scale,
    Finset.sum_mul]
  refine Finset.sum_congr rfl fun j _ => ?_
  rw [Vec.entry_scale_eq, Vec.inner_eq_sum, Vec.inner_eq_sum, Finset.sum_mul, Finset.sum_mul,
    Finset.sum_mul]
  refine Finset.sum_congr rfl fun i _ => ?_
  rw [Vec.entry_scale_eq]
  ring

/-- What the model falls is of the second degree. -/
theorem reductionAt_eq (v : Vec ℝ) :
    (Model.holding n m l').reductionAt (v.scale c) = c ^ 2 * (Model.holding n m l).reductionAt v := by
  unfold Model.reductionAt
  rw [h.curvatureAt_eq, show (Model.holding n m l').gradient = l.gradient.scale c from h.gradient,
    Vec.inner_scale]
  show _ = c ^ 2 * -(v.inner l.gradient + _)
  ring

theorem along_eq (hc : c ≠ 0) :
    CauchyPoint.along (Model.holding n m l') =
      (CauchyPoint.along (Model.holding n m l)).multiple c := by
  unfold CauchyPoint.along
  rw [show (Model.holding n m l').gradient = (Model.holding n m l).gradient.scale c from h.gradient,
    Vec.norm_scale, Scalar.isZero_mul _ (abs_ne_zero.2 hc)]
  split
  · simp only [CauchyPoint.multiple, Extended.scale, zero_mul]
  · rw [h.curvatureAt_eq, CauchyPoint.distance_multiple _ _ hc]
    rfl

theorem report_eq (hc : c ≠ 0) (kind : SolverKind) (tolerance : ℝ) :
    DoglegPath.report n m kind tolerance l' = DoglegPath.report n m kind tolerance l := by
  unfold DoglegPath.report
  rw [h.gaussNewtonPoint?_eq, h.along_eq hc, CauchyPoint.isUnbounded_multiple _ hc,
    CauchyPoint.isZeroGradient_multiple _ hc, h.jacobian]
  cases DoglegPath.gaussNewtonPoint? kind tolerance l <;> rfl

end Linearization.IsMultiple

end TrustRegion
