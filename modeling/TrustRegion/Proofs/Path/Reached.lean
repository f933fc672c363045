import Mathlib
import TrustRegion.Proofs.Path.Crossing
import TrustRegion.Proofs.Path.Geometry
import TrustRegion.Proofs.Path.Landing

/-!
# The point that is reached

In exact arithmetic the step within a radius is a point of the dogleg path.  `DoglegPath.Reached` lists
the four ways in which it can end, each with the point, the regime and the flag that belong to it, and
**`DoglegPath.landing_reached`** proves that the step is always of one of them: the distances that are
compared are those of the points that are written.
-/

namespace TrustRegion

open scoped RealInnerProductSpace

variable {n m : ℕ} {l : Linearization ℝ} {radius : ℝ}

/-- The curvature `g·B g` of the model of a problem along its gradient, `B = JᵀJ`. -/
noncomputable def Linearization.curvature (l : Linearization ℝ) (n : ℕ) : ℝ :=
  ∑ i : Fin n, l.gradient.entry i * ∑ j : Fin n, l.jacobian.gram.entry i j * l.gradient.entry j

/-- The curvature is the square of the length of `J g`. -/
theorem Linearization.curvature_eq (hl : l.check n m = .ok ()) :
    l.curvature n = ‖l.jacobian.toMap m n (l.gradient.toSpace n)‖ ^ 2 := by
  have hJ : l.jacobian.HasShape m n := Linearization.hasShape_jacobian hl
  rw [← real_inner_self_eq_norm_sq, Matrix.inner_toMap hJ, Linearization.curvature]
  exact Finset.sum_congr rfl fun i _ => mul_comm _ _

theorem Linearization.curvature_nonneg (hl : l.check n m = .ok ()) : 0 ≤ l.curvature n := by
  rw [curvature_eq hl]
  positivity

/-! ## The Cauchy point -/

/-- The length as an extended real number. -/
noncomputable def Extended.toEReal : Extended ℝ → EReal
  | finite x => x
  | infinite => ⊤

theorem Extended.reaches_iff {e : Extended ℝ} {bound : ℝ} :
    e.reaches bound = true ↔ (bound : EReal) ≤ e.toEReal := by
  cases e with
  | finite x => exact reaches_finite.trans EReal.coe_le_coe_iff.symm
  | infinite => exact iff_of_true (reaches_infinite bound) le_top

namespace CauchyPoint

theorem reach_fst (c : CauchyPoint ℝ) (radius : ℝ) :
    (c.reach radius).1 = (min (radius : EReal) c.norm.toEReal).toReal := by
  unfold reach
  by_cases h : c.norm.reaches radius = true
  · rw [if_pos h, min_eq_left (Extended.reaches_iff.1 h), EReal.toReal_coe]
  · rw [if_neg h, min_eq_right (not_le.1 (mt Extended.reaches_iff.2 h)).le]
    cases hc : c.norm with
    | finite x => exact (EReal.toReal_coe x).symm
    | infinite => exact absurd (hc ▸ Extended.reaches_infinite radius) h

theorem gradientNorm_along (hl : l.check n m = .ok ()) :
    (along (Model.holding n m l)).gradientNorm = ‖l.gradient.toSpace n‖ := by
  rw [along_gradientNorm]
  exact Vec.norm_eq (Linearization.size_gradient hl)

theorem isZeroGradient_along (hl : l.check n m = .ok ()) :
    (along (Model.holding n m l)).isZeroGradient = true ↔ l.gradient.toSpace n = 0 := by
  unfold isZeroGradient
  rw [gradientNorm_along hl, Scalar.isZero_iff, norm_eq_zero]

/-- Without a gradient the Cauchy point is the origin. -/
theorem along_of_no_gradient (hl : l.check n m = .ok ()) (h : l.gradient.toSpace n = 0) :
    along (Model.holding n m l) = origin := by
  have hg : l.gradient.size = n := Linearization.size_gradient hl
  have hnorm : (Model.holding n m l).gradient.norm = 0 :=
    (Vec.norm_eq hg).trans (norm_eq_zero.2 h)
  unfold along
  rw [hnorm, if_pos (Scalar.isZero_iff.2 rfl)]
  rfl

/-- Where there is a gradient, the curvature along it is kept as well. -/
theorem along_of_gradient (hl : l.check n m = .ok ()) (h : l.gradient.toSpace n ≠ 0) :
    along (Model.holding n m l) = ⟨‖l.gradient.toSpace n‖, l.curvature n,
      distance ‖l.gradient.toSpace n‖ (l.curvature n)⟩ := by
  have hg : l.gradient.size = n := Linearization.size_gradient hl
  have hnorm : (Model.holding n m l).gradient.norm = ‖l.gradient.toSpace n‖ := Vec.norm_eq hg
  have hκ : (Model.holding n m l).curvatureAt (Model.holding n m l).gradient = l.curvature n :=
    (Model.curvatureAt_holding hl hg).trans (Linearization.curvature_eq hl).symm
  unfold along
  rw [hnorm, hκ, if_neg (by rw [Scalar.isZero_iff]; exact norm_ne_zero_iff.2 h)]

/-- The distance that is kept for the Cauchy point is the one the formula gives. -/
theorem norm_along (hl : l.check n m = .ok ()) :
    (along (Model.holding n m l)).norm.toEReal =
      cauchyLength (l.gradient.toSpace n) (l.curvature n) := by
  rcases eq_or_ne (l.gradient.toSpace n) 0 with h | h
  · rw [along_of_no_gradient hl h, h, cauchyLength_zero]
    rfl
  rw [along_of_gradient hl h]
  unfold distance
  rcases (Linearization.curvature_nonneg hl).eq_or_lt with hflat | hcurved
  · rw [← hflat, if_neg (lt_irrefl _), cauchyLength_of_flat h]
    rfl
  · rw [if_pos hcurved, cauchyLength_of_curved h hcurved.ne']
    show ((_ : ℝ) : EReal) = _
    congr 1
    ring

/-- The step to the Cauchy point is the point of the ray at its distance, cut off at the radius. -/
theorem toSpace_stepWithin (hl : l.check n m = .ok ()) (radius : ℝ) :
    ((along (Model.holding n m l)).stepWithin l.gradient radius).1.toSpace n =
      clippedPoint (l.gradient.toSpace n) (l.curvature n) radius := by
  unfold stepWithin clippedPoint
  by_cases h : l.gradient.toSpace n = 0
  · rw [if_pos ((isZeroGradient_along hl).2 h), h, smul_zero, neg_zero]
    exact Vec.toSpace_zeros n _
  · rw [if_neg (by rw [isZeroGradient_along hl]; exact h)]
    show (l.gradient.scale _).toSpace n = _
    rw [Vec.toSpace_scale, gradientNorm_along hl, reach_fst, norm_along hl, neg_div, neg_smul]
    rfl

/-- The flag is set exactly if the radius ends the way. -/
theorem stepWithin_snd (hl : l.check n m = .ok ()) (hr : 0 < radius) :
    ((along (Model.holding n m l)).stepWithin l.gradient radius).2 = true ↔
      (radius : EReal) ≤ cauchyLength (l.gradient.toSpace n) (l.curvature n) := by
  unfold stepWithin
  by_cases h : l.gradient.toSpace n = 0
  · rw [if_pos ((isZeroGradient_along hl).2 h), h, cauchyLength_zero]
    simpa using hr
  · rw [if_neg (by rw [isZeroGradient_along hl]; exact h), ← norm_along hl, ← Extended.reaches_iff]
    unfold reach
    split <;> simp_all

end CauchyPoint

/-! ## The step -/

namespace DoglegPath

/-- The ways in which a step within a radius ends, for a gradient `g` with the curvature `κ` and the
Gauss-Newton point, if there is one. -/
inductive Reached (n : ℕ) (g : EuclideanSpace ℝ (Fin n)) (κ radius : ℝ) :
    Option (Vec ℝ) → Landing ℝ → Prop
  /-- At the Gauss-Newton point, which is near enough. -/
  | gaussNewton {p : Vec ℝ} (near : ‖p.toSpace n‖ ≤ radius) :
      Reached n g κ radius (some p) ⟨.gaussNewton, p, false⟩
  /-- On the sphere, before the Cauchy point. -/
  | before {p x : Vec ℝ} (far : radius < ‖p.toSpace n‖) (reaches : radius ≤ cauchyLength g κ)
      (point : x.toSpace n = -((radius / ‖g‖) • g)) :
      Reached n g κ radius (some p) ⟨.cauchy, x, true⟩
  /-- On the sphere, between the Cauchy point and the Gauss-Newton point. -/
  | between {p x : Vec ℝ} {share : ℝ} (far : radius < ‖p.toSpace n‖)
      (passes : cauchyLength g κ < radius) (share_pos : 0 < share) (share_lt : share < 1)
      (point : x.toSpace n = cauchyPoint g κ + share • (p.toSpace n - cauchyPoint g κ))
      (norm_eq : ‖x.toSpace n‖ = radius) :
      Reached n g κ radius (some p) ⟨.combined, x, true⟩
  /-- On the ray, because there is no Gauss-Newton point. -/
  | alone {x : Vec ℝ} {flag : Bool} (point : x.toSpace n = clippedPoint g κ radius)
      (flag_iff : flag = true ↔ radius ≤ cauchyLength g κ) :
      Reached n g κ radius none ⟨.cauchy, x, flag⟩

namespace Reached

variable {g : EuclideanSpace ℝ (Fin n)} {κ : ℝ} {p : Vec ℝ} {L : Landing ℝ}

/-- Straight down the slope, the sphere is at the distance of the radius. -/
theorem norm_neg_smul (hr : 0 ≤ radius) (hκ : 0 ≤ κ) (h : (radius : EReal) ≤ cauchyLength g κ) :
    ‖-((radius / ‖g‖) • g)‖ = radius := by
  rw [← clippedPoint_of_le h, norm_clippedPoint hr hκ, reachWithin_of_le h]

/-- With a Gauss-Newton point the step is as long as it can be up to that point. -/
theorem norm_eq_min (h : Reached n g κ radius (some p) L) (hr : 0 ≤ radius) (hκ : 0 ≤ κ) :
    ‖L.step.toSpace n‖ = min radius ‖p.toSpace n‖ := by
  cases h with
  | gaussNewton near => exact (min_eq_right near).symm
  | before far reaches point =>
      rw [min_eq_left far.le]
      show ‖Vec.toSpace n _‖ = radius
      rw [point, norm_neg_smul hr hκ reaches]
  | between far passes share_pos share_lt point norm_eq =>
      rw [min_eq_left far.le]
      exact norm_eq

/-- Without one it is as long as it can be up to the Cauchy point. -/
theorem norm_eq_reachWithin (h : Reached n g κ radius none L) (hr : 0 ≤ radius) (hκ : 0 ≤ κ) :
    ‖L.step.toSpace n‖ = reachWithin g κ radius := by
  cases h with
  | alone point flag_iff =>
      show ‖Vec.toSpace n _‖ = _
      rw [point, norm_clippedPoint hr hκ]

/-- The step never leaves the trust region. -/
theorem norm_le {p? : Option (Vec ℝ)} (h : Reached n g κ radius p? L) (hr : 0 ≤ radius)
    (hκ : 0 ≤ κ) : ‖L.step.toSpace n‖ ≤ radius := by
  cases p? with
  | none => exact (h.norm_eq_reachWithin hr hκ).trans_le (reachWithin_le hr hκ)
  | some p => exact (h.norm_eq_min hr hκ).trans_le (min_le_left _ _)

/-- Without a gradient there is no step, if there is no way to the Gauss-Newton point either. -/
theorem eq_zero_of_gradient {p? : Option (Vec ℝ)} (h : Reached n 0 κ radius p? L) (hr : 0 < radius)
    (hp : ∀ p, p? = some p → p.toSpace n = 0) :
    L.step.toSpace n = 0 ∧ L.onBoundary = false := by
  cases h with
  | gaussNewton near => exact ⟨hp _ rfl, rfl⟩
  | before far reaches point =>
      rw [hp _ rfl, norm_zero] at far
      exact absurd far (not_lt.2 hr.le)
  | between far passes share_pos share_lt point norm_eq =>
      rw [hp _ rfl, norm_zero] at far
      exact absurd far (not_lt.2 hr.le)
  | alone point flag_iff =>
      refine ⟨point.trans (by simp [clippedPoint]), Bool.eq_false_iff.2 fun hflag => ?_⟩
      rw [flag_iff, cauchyLength_zero] at hflag
      exact absurd (EReal.coe_nonpos.1 hflag) (not_le.2 hr)

end Reached

/-- Between a Cauchy point inside and a Gauss-Newton point outside the sphere is reached. -/
theorem reached_crossingPoint {p x : Vec ℝ} {g : EuclideanSpace ℝ (Fin n)} {κ : ℝ} (hκ : 0 ≤ κ)
    (hx : x.size = n) (hp : p.size = n)
    (hpoint : x.toSpace n = clippedPoint g κ radius) (passes : cauchyLength g κ < radius)
    (far : radius < ‖p.toSpace n‖) :
    Reached n g κ radius (some p) ⟨.combined, crossingPoint x p radius, true⟩ := by
  have hin : ‖x.toSpace n‖ < radius := by
    rw [hpoint]
    exact norm_clippedPoint_lt hκ passes
  obtain ⟨hpos, hlt, hnorm⟩ := Crossing.share_mem hx hp hin far
  have hcross : (crossingPoint x p radius).toSpace n =
      x.toSpace n + Crossing.share x p radius • (p.toSpace n - x.toSpace n) :=
    Vec.toSpace_towards hx _
  refine .between far passes hpos hlt ?_ (hcross ▸ hnorm)
  rw [hcross, hpoint, clippedPoint_of_lt passes]

/-- **The step ends in one of these ways.** -/
theorem landing_reached (hl : l.check n m = .ok ()) (hr : 0 < radius) (p? : Option (Vec ℝ))
    (hp : ∀ p, p? = some p → p.size = n) :
    Reached n (l.gradient.toSpace n) (l.curvature n) radius p?
      (landing (CauchyPoint.along (Model.holding n m l)) l.gradient p? radius) := by
  have hpoint := CauchyPoint.toSpace_stepWithin hl radius
  have hflag := CauchyPoint.stepWithin_snd hl hr
  have hκ := Linearization.curvature_nonneg hl
  unfold landing
  generalize hstep : (CauchyPoint.along (Model.holding n m l)).stepWithin l.gradient radius = step
    at hpoint hflag
  obtain ⟨x, flag⟩ := step
  cases p? with
  | none => exact .alone hpoint hflag
  | some p =>
      have hsize := hp p rfl
      simp only [Vec.norm_eq hsize]
      by_cases hnear : ‖p.toSpace n‖ ≤ radius
      · rw [if_pos hnear]
        exact .gaussNewton hnear
      have hfar := not_le.1 hnear
      rw [if_neg hnear]
      by_cases hreach : (CauchyPoint.along (Model.holding n m l)).norm.reaches radius = true
      · rw [if_pos hreach]
        rw [Extended.reaches_iff, CauchyPoint.norm_along hl] at hreach
        obtain rfl := hflag.2 hreach
        exact .before hfar hreach (hpoint.trans (clippedPoint_of_le hreach))
      · rw [if_neg hreach]
        rw [Extended.reaches_iff, CauchyPoint.norm_along hl, not_le] at hreach
        have hx : x.size = n := by
          have hsame := CauchyPoint.size_stepWithin_of_check hl
            (CauchyPoint.along (Model.holding n m l)) radius
          rwa [hstep] at hsame
        exact reached_crossingPoint hκ hx hsize hpoint hreach hfar

end DoglegPath

end TrustRegion
