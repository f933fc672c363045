import Mathlib
import TrustRegion.Proofs.Stepper.AtHand
import TrustRegion.Proofs.Stepper.Optimality

/-!
# The step along the gradient is the best of its kind

The solver that only goes along the gradient keeps a distance and scales the gradient by it.  In exact
arithmetic the vector that comes out is the line minimiser of the model within the radius, whatever the
gradient: **`CauchyStepper.step_line_minimiser`**.
-/

namespace TrustRegion

variable {n m : ℕ} {l : Linearization ℝ} {radius : ℝ}

/-! ## The Cauchy point -/

namespace CauchyPoint

/-- The step is a multiple of the gradient, also where that vanishes. -/
theorem stepWithin_eq_scale (hl : l.check n m = .ok ()) (radius : ℝ) :
    ((along (Model.holding n m l)).stepWithin l.gradient radius).1 =
      l.gradient.scale (-(reachWithin (l.gradient.toSpace n) (l.curvature n) radius /
        ‖l.gradient.toSpace n‖)) := by
  have hg : l.gradient.size = n := Linearization.size_gradient hl
  rw [← Vec.toSpace_inj (size_stepWithin_of_check hl _ _) ((Vec.size_scale _ _).trans hg),
    toSpace_stepWithin hl, Vec.toSpace_scale, neg_smul]
  rfl

/-- The flag is set exactly if the gradient does not vanish and the step is as long as the radius. -/
theorem stepWithin_snd_iff (hl : l.check n m = .ok ()) (hr : 0 < radius) :
    ((along (Model.holding n m l)).stepWithin l.gradient radius).2 = true ↔
      l.gradient.toSpace n ≠ 0 ∧
        reachWithin (l.gradient.toSpace n) (l.curvature n) radius / ‖l.gradient.toSpace n‖ *
          ‖l.gradient.toSpace n‖ = radius := by
  rw [stepWithin_snd hl hr]
  by_cases hg : l.gradient.toSpace n = 0
  · rw [hg, cauchyLength_zero]
    simp [hr]
  · rw [reachWithin_div_mul hg, reachWithin_eq_iff hr.le (Linearization.curvature_nonneg hl)]
    exact (and_iff_right hg).symm

/-- The report of a model without positive curvature means that `J` takes the gradient to zero. -/
theorem isUnbounded_along (hl : l.check n m = .ok ()) :
    (along (Model.holding n m l)).isUnbounded = true ↔
      l.gradient.toSpace n ≠ 0 ∧ l.jacobian.toMap m n (l.gradient.toSpace n) = 0 := by
  by_cases h : l.gradient.toSpace n = 0
  · rw [along_of_no_gradient hl h]
    simp [isUnbounded, isZeroGradient, origin, Scalar.isZero_iff, h]
  · have hz : Scalar.isZero ‖l.gradient.toSpace n‖ = false :=
      Scalar.isZero_eq_false_iff.2 (norm_ne_zero_iff.2 h)
    rw [along_of_gradient hl h, Linearization.curvature_eq hl]
    simp [isUnbounded, isZeroGradient, hz, h]

end CauchyPoint

/-- The value of the model on the ray is the cost, less what the model falls. -/
theorem Model.value_holding_scale (hl : l.check n m = .ok ()) (u : ℝ) :
    (holding n m l).value (l.gradient.scale (-u)) =
      some ((holding n m l).cost -
        fall (l.jacobian.toMap m n) (l.gradient.toSpace n) (-(u • l.gradient.toSpace n))) := by
  have hg : l.gradient.size = n := Linearization.size_gradient hl
  rw [value_holding hl ((Vec.size_scale _ _).trans hg), Vec.toSpace_scale, neg_smul]

/-! ## The step -/

namespace CauchyStepper

open Stepper (Call log lastPrepared problemAtHand)

/-- **The line minimiser.**  While a problem is at hand, a request for a step with a positive radius
succeeds, and the step is `-τ g` with `0 ≤ τ ‖g‖ ≤ radius`.  At no other point of the ray within the
radius does the model have as low a value, unless the gradient vanishes.

The flag is set exactly if the gradient does not vanish and the step is as long as the radius.  That is so
in particular if the model has no curvature along the gradient, which is what the report says exactly if
`J g = 0`. -/
theorem step_line_minimiser {calls : List (Call ℝ)} {s : CauchyStepper ℝ}
    {answers : List (Stepper.Answered ℝ (CauchyStepper ℝ))} {out : Vec ℝ}
    (hrun : Stepper.run (fresh : CauchyStepper ℝ) calls = some (s, answers))
    (hsize : lastPrepared (log calls answers) = some (n, m))
    (hproblem : problemAtHand (log calls answers) = some l) (hr : 0 < radius) (hout : out.size = n) :
    ∃ t q τ, Stepper.computeStep s radius out = some t ∧ t.result = .ok .cauchy ∧
      t.state.1.model = some q ∧ q.gradient = l.gradient ∧ q.hessian = l.jacobian.gram ∧
      let g := l.gradient.toSpace n
      0 ≤ τ ∧ τ * ‖g‖ ≤ radius ∧ t.state.2 = l.gradient.scale (-τ) ∧
      (∃ v, q.value t.state.2 = some v ∧ ∀ u, 0 ≤ u → u * ‖g‖ ≤ radius →
        ∃ w, q.value (l.gradient.scale (-u)) = some w ∧ v ≤ w ∧ (g ≠ 0 → u ≠ τ → v < w)) ∧
      (Stepper.isMaxStep t.state.1 = true ↔ g ≠ 0 ∧ τ * ‖g‖ = radius) ∧
      (t.state.1.diagnostics.nonPositiveCurvature = true ↔ g ≠ 0 ∧ l.jacobian.toMap m n g = 0) ∧
      (t.state.1.diagnostics.nonPositiveCurvature = true → Stepper.isMaxStep t.state.1 = true) := by
  obtain ⟨t, ht, hlands, hmodel⟩ :=
    exists_step_atHand hrun hsize hproblem (checkRadius_eq_ok_iff.2 hr) hout
  have hl := (state_of_problemAtHand hrun hsize hproblem).1
  have hstep := hlands.step.trans (CauchyPoint.stepWithin_eq_scale hl radius)
  have hbest := lineMinimiser_reachWithin (J := l.jacobian.toMap m n) (g := l.gradient.toSpace n) hr.le
  rw [← Linearization.curvature_eq hl] at hbest
  have hflag := CauchyPoint.stepWithin_snd_iff hl hr
  have hflat := CauchyPoint.isUnbounded_along hl
  rw [← hlands.maxStep] at hflag
  refine ⟨t, Model.holding n m l, _, ht, hlands.result, hmodel, rfl, rfl, hbest.nonneg, hbest.within,
    hstep, ?_, hflag, ?_, ?_⟩
  · rw [hstep]
    exact ⟨_, Model.value_holding_scale hl _, fun u hu hin => ⟨_, Model.value_holding_scale hl u,
      sub_le_sub_left (hbest.fall_le hu hin) _,
      fun hg hne => sub_lt_sub_left (hbest.fall_lt hg u hu hin hne) _⟩⟩
  · rw [hlands.diagnostics]
    exact hflat
  · intro hreport
    rw [hlands.diagnostics] at hreport
    obtain ⟨hg, hJg⟩ := hflat.1 hreport
    refine hflag.2 ⟨hg, ?_⟩
    rw [reachWithin_div_mul hg, Linearization.curvature_eq hl, hJg, norm_zero]
    refine reachWithin_of_le ?_
    simp [cauchyLength_of_flat hg]

/-- A gradient that belongs to no residuals, and along which the model is flat: the step goes as far as
the radius. -/
theorem step_line_minimiser_of_flat :
    let flat : Linearization ℝ :=
      { point := Vec.zeros 2
        residuals := Vec.zeros 1
        jacobian := Matrix.tabulate 1 2 fun _ _ => 1
        gradient := Vec.tabulate 2 fun j => 1 - 2 * j
        cost := 0 }
    ∃ s answers t,
      Stepper.run (fresh : CauchyStepper ℝ) [.setInputs flat, .init 2 1, .setInputs flat] =
        some (s, answers) ∧
      Stepper.computeStep s (6 : ℝ) (Vec.zeros 2) = some t ∧ t.result = .ok .cauchy ∧
      t.state.1.diagnostics.nonPositiveCurvature = true ∧ Stepper.isMaxStep t.state.1 = true := by
  intro flat
  have hl : flat.check 2 1 = .ok () :=
    Linearization.check_eq_ok_iff.2 ⟨Vec.size_zeros _, Vec.size_zeros _,
      Matrix.hasShape_tabulate _ _ _, Vec.size_tabulate _ _⟩
  have hg : flat.gradient.toSpace 2 ≠ 0 := by
    intro hzero
    have := congrArg (fun p : EuclideanSpace ℝ (Fin 2) => p 0) hzero
    simp [flat, Vec.entry_tabulate] at this
  have hflat : flat.jacobian.toMap 1 2 (flat.gradient.toSpace 2) = 0 := by
    ext i
    simp [flat, Fin.sum_univ_two, Vec.entry_tabulate, Matrix.entry_tabulate]
    norm_num
  obtain ⟨s, answers, hrun, hsize, hproblem⟩ := exists_atHand [.setInputs flat] two_pos one_pos hl
  obtain ⟨t, q, τ, ht, hresult, -, -, -, -, -, -, -, -, hreport, hmax⟩ :=
    step_line_minimiser hrun hsize hproblem (by norm_num : (0 : ℝ) < 6) (Vec.size_zeros 2)
  have hreported := hreport.2 ⟨hg, hflat⟩
  exact ⟨s, answers, t, hrun, ht, hresult, hreported, hmax hreported⟩

end CauchyStepper

end TrustRegion
