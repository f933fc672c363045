import Mathlib
import TrustRegion.Proofs.Stepper.Cauchy
import TrustRegion.Proofs.Stepper.Optimality

/-!
# Sufficient decrease

The convergence of a trust-region method rests on one inequality: with every step the model falls by
at least half of what its slope promises up to the Cauchy point or the boundary, whichever comes first.
The main result, **`Stepper.sufficient_decrease`**, proves it in exact arithmetic for both step solvers,
after any history: for the one that goes along the gradient from the shape of its step, for the one
that follows the dogleg path from the optimality of its step on the path.
-/

namespace TrustRegion

open scoped RealInnerProductSpace

/-- Half of what the slope promises, up to the Cauchy point cut off at the radius. -/
theorem half_le_fall_clippedPoint {E F : Type*} [NormedAddCommGroup E] [InnerProductSpace ℝ E]
    [NormedAddCommGroup F] [InnerProductSpace ℝ F] {J : E →ₗ[ℝ] F} {g : E} {radius : ℝ}
    (hr : 0 ≤ radius) :
    1 / 2 * ‖g‖ * reachWithin g (‖J g‖ ^ 2) radius ≤
      fall J g (clippedPoint g (‖J g‖ ^ 2) radius) := by
  have hdown := half_le_fall (J := J) (g := g)
    (div_nonneg (reachWithin_nonneg hr (sq_nonneg ‖J g‖)) (norm_nonneg g))
    (reachWithin_mul_le hr (sq_nonneg _))
  refine le_trans (le_of_eq ?_) hdown
  rcases eq_or_ne g 0 with rfl | hg
  · simp
  · have hg' : ‖g‖ ≠ 0 := norm_ne_zero_iff.2 hg
    field_simp

namespace Stepper

/-- Does a step `h`, with what is reported after it, make the model of a problem fall far enough? -/
structure Decreases (n : ℕ) (l : Linearization ℝ) (radius : ℝ) (h : Vec ℝ) (reduction : ℝ)
    (maxStep : Bool) : Prop where
  size : h.size = n
  /-- The model falls by half of `‖g‖` times the distance of the Cauchy point within the radius. -/
  bound : ((1 / 2 * ‖l.gradient.toSpace n‖ : ℝ) : EReal) *
      min (radius : EReal) (cauchyLength (l.gradient.toSpace n) (l.curvature n)) ≤ reduction
  /-- Where there is a gradient, there is a step, and the model falls. -/
  pos : l.gradient.toSpace n ≠ 0 → 0 < reduction ∧ h.toSpace n ≠ 0
  /-- Where there is none, there is no step. -/
  zero : l.gradient.toSpace n = 0 → reduction = 0 ∧ h.toSpace n = 0 ∧ maxStep = false

/-- It is enough that the model falls at least as far as to the Cauchy point within the radius, and that
nothing happens without a gradient. -/
theorem Decreases.of_fall {n m : ℕ} {l : Linearization ℝ} {radius : ℝ} {h : Vec ℝ} {maxStep : Bool}
    (hl : l.check n m = .ok ()) (hr : 0 < radius) (hsize : h.size = n)
    (hfall : fall (l.jacobian.toMap m n) (l.gradient.toSpace n)
        (clippedPoint (l.gradient.toSpace n) (l.curvature n) radius) ≤
      fall (l.jacobian.toMap m n) (l.gradient.toSpace n) (h.toSpace n))
    (hzero : l.gradient.toSpace n = 0 → h.toSpace n = 0 ∧ maxStep = false) :
    Decreases n l radius h
      (fall (l.jacobian.toMap m n) (l.gradient.toSpace n) (h.toSpace n)) maxStep := by
  have hκ := Linearization.curvature_nonneg hl
  have hhalf := half_le_fall_clippedPoint (J := l.jacobian.toMap m n) (g := l.gradient.toSpace n) hr.le
  rw [← Linearization.curvature_eq hl] at hhalf
  have hbound := hhalf.trans hfall
  have horigin : fall (l.jacobian.toMap m n) (l.gradient.toSpace n) 0 = 0 := by
    unfold fall
    rw [inner_zero_right, map_zero, norm_zero]
    ring
  refine ⟨hsize, ?_, fun hg => ?_, fun hg => ?_⟩
  · rw [← coe_reachWithin hr.le hκ, ← EReal.coe_mul]
    exact EReal.coe_le_coe_iff.2 hbound
  · have hpos : 0 < fall (l.jacobian.toMap m n) (l.gradient.toSpace n) (h.toSpace n) :=
      (mul_pos (mul_pos one_half_pos (norm_pos_iff.2 hg)) (reachWithin_pos hr hκ hg)).trans_le hbound
    refine ⟨hpos, fun hh => ?_⟩
    rw [hh, horigin] at hpos
    exact lt_irrefl 0 hpos
  · obtain ⟨hh, hflag⟩ := hzero hg
    refine ⟨?_, hh, hflag⟩
    rw [hh]
    exact horigin

end Stepper

/-! ## Along the gradient -/

theorem CauchyStepper.decreases_of_lands {n m : ℕ} {l : Linearization ℝ} {radius : ℝ}
    {t : Turn ℝ (CauchyStepper ℝ × Vec ℝ) (StepError ℝ) Regime} (hl : l.check n m = .ok ())
    (hr : 0 < radius) (h : Lands n m l radius t) :
    Stepper.Decreases n l radius t.state.2 t.state.1.reduction t.state.1.maxStep := by
  have hpoint : t.state.2.toSpace n =
      clippedPoint (l.gradient.toSpace n) (l.curvature n) radius := by
    rw [h.step]
    exact CauchyPoint.toSpace_stepWithin hl radius
  have hsize : t.state.2.size = n := by
    rw [h.step]
    exact CauchyPoint.size_stepWithin_of_check hl _ _
  have hred : t.state.1.reduction =
      fall (l.jacobian.toMap m n) (l.gradient.toSpace n) (t.state.2.toSpace n) := by
    rw [h.reduction, h.step]
    exact Model.reductionAt_eq_fall hl (CauchyPoint.size_stepWithin_of_check hl _ _)
  rw [hred]
  refine .of_fall hl hr hsize (by rw [hpoint]) fun hzero => ⟨?_, ?_⟩
  · rw [hpoint, hzero]
    simp [clippedPoint]
  · rw [h.maxStep]
    refine Bool.eq_false_iff.2 fun hflag => ?_
    rw [CauchyPoint.stepWithin_snd hl hr, hzero, cauchyLength_zero] at hflag
    exact absurd (EReal.coe_nonpos.1 hflag) (not_le.2 hr)

/-! ## Along the dogleg path -/

theorem DoglegStepper.decreases_of_lands {settings : Settings ℝ} {n m : ℕ} {l : Linearization ℝ}
    {radius : ℝ} {t : Turn ℝ (DoglegStepper ℝ × Vec ℝ) (StepError ℝ) Regime} {regime : Regime}
    (hl : l.check n m = .ok ()) (hr : 0 < radius) (hg : settings.solver = .qr → l.Consistent)
    (h : Lands settings n m l radius t) (hok : t.result = .ok regime) :
    Stepper.Decreases n l radius t.state.2 t.state.1.reduction t.state.1.maxStep := by
  have hreached := reached_of_lands hl hr h hok
  have hstat := stationary_of_lands hl hg h
  have hκ := Linearization.curvature_eq hl
  rw [reduction_of_lands hl h]
  have hsize : t.state.2.size = n := by
    rw [h.step]
    exact DoglegPath.size_landing hl
  refine .of_fall hl hr hsize ?_ fun hzero => ?_
  · rw [hκ] at hreached ⊢
    exact hreached.fall_clippedPoint_le hr.le hstat
  · -- without a gradient the Gauss-Newton point is the origin
    have horigin : ∀ p, t.state.1.gaussNewtonStep = some p → p.toSpace n = 0 := by
      intro p hp
      have hself := hstat p hp (p.toSpace n)
      rw [hzero, inner_zero_left, neg_zero, inner_self_eq_zero] at hself
      rw [h.gaussNewtonStep] at hp
      exact DoglegPath.injective_of_gaussNewtonPoint hl hg hp hself
    rw [hzero] at hreached
    exact hreached.eq_zero_of_gradient hr horigin

/-! ## Both -/

namespace Stepper

/-- **Sufficient decrease.**  After any calls to either step solver, with a step that succeeds the model
of the problem last given falls far enough. -/
theorem sufficient_decrease :
    (∀ (calls : List (Call ℝ)) (s : CauchyStepper ℝ) (answers : List (Answered ℝ (CauchyStepper ℝ)))
        (radius : ℝ) (out : Vec ℝ) (t : Turn ℝ (CauchyStepper ℝ × Vec ℝ) (StepError ℝ) Regime)
        (regime : Regime),
      run (CauchyStepper.fresh : CauchyStepper ℝ) calls = some (s, answers) →
      computeStep s radius out = some t → t.result = .ok regime →
      ∃ n m l, lastInputs calls = some l ∧ l.check n m = .ok () ∧
        Decreases n l radius t.state.2 (predictedReduction t.state.1) (isMaxStep t.state.1)) ∧
    ∀ (settings : Settings ℝ) (calls : List (Call ℝ)) (s : DoglegStepper ℝ)
        (answers : List (Answered ℝ (DoglegStepper ℝ))) (radius : ℝ) (out : Vec ℝ)
        (t : Turn ℝ (DoglegStepper ℝ × Vec ℝ) (StepError ℝ) Regime) (regime : Regime),
      run (DoglegStepper.fresh settings) calls = some (s, answers) →
      computeStep s radius out = some t → t.result = .ok regime →
      (settings.solver = .qr → ∀ l, lastInputs calls = some l → l.Consistent) →
      ∃ n m l, lastInputs calls = some l ∧ l.check n m = .ok () ∧
        Decreases n l radius t.state.2 (predictedReduction t.state.1) (isMaxStep t.state.1) := by
  constructor
  · intro calls s answers radius out t regime hrun hstep hok
    obtain ⟨n, m, l, hradius, hinputs, hl, -, -, -, h⟩ := CauchyStepper.lands_of_ok hrun hstep hok
    exact ⟨n, m, l, hinputs, hl,
      CauchyStepper.decreases_of_lands hl (checkRadius_eq_ok_iff.1 hradius) h⟩
  · intro settings calls s answers radius out t regime hrun hstep hok hg
    obtain ⟨n, m, l, -, hradius, -, hinputs, hl, -, -, -, h⟩ :=
      DoglegStepper.lands_of_ok hrun hstep hok
    exact ⟨n, m, l, hinputs, hl, DoglegStepper.decreases_of_lands hl
      (checkRadius_eq_ok_iff.1 hradius) (fun hqr => hg hqr l hinputs) h hok⟩

/-- With a singular Hessian and a gradient that belongs to no residuals, both step solvers make the model
fall. -/
theorem sufficient_decrease_of_singular :
    let settings : Settings ℝ := { solver := .lu, tolerance := 0, logLevel := none, logFile := none }
    let wide : Linearization ℝ :=
      { point := Vec.zeros 2
        residuals := Vec.tabulate 1 fun _ => 0
        jacobian := Matrix.tabulate 1 2 fun _ _ => 1
        gradient := Vec.tabulate 2 fun j => 1 - 3 * j
        cost := 0 }
    let calls : List (Call ℝ) := [.init 2 1, .setInputs wide]
    (∃ s answers t regime, run (CauchyStepper.fresh : CauchyStepper ℝ) calls = some (s, answers) ∧
      computeStep s (6 : ℝ) (Vec.zeros 2) = some t ∧ t.result = .ok regime ∧
      0 < predictedReduction t.state.1) ∧
    ∃ s answers t regime, run (DoglegStepper.fresh settings) calls = some (s, answers) ∧
      computeStep s (6 : ℝ) (Vec.zeros 2) = some t ∧ t.result = .ok regime ∧
      (settings.solver = .qr → ∀ l, lastInputs calls = some l → l.Consistent) ∧
      0 < predictedReduction t.state.1 := by
  intro settings wide calls
  have hv : settings.validate = .ok () := Settings.validate_of_tolerance le_rfl one_pos rfl
  have hl : wide.check 2 1 = .ok () :=
    Linearization.check_eq_ok_iff.2 ⟨Vec.size_zeros _, Vec.size_tabulate _ _,
      Matrix.hasShape_tabulate _ _ _, Vec.size_tabulate _ _⟩
  have hradius : checkRadius (6 : ℝ) = .ok () := checkRadius_eq_ok_iff.2 (by norm_num)
  have hgradient : ∀ n, wide.gradient.size = n → wide.gradient.toSpace n ≠ 0 := by
    intro n hn hzero
    have hentry : wide.gradient.entry 0 = 1 := by
      show (Vec.tabulate 2 _).entry 0 = 1
      rw [Vec.entry_tabulate _ two_pos]
      norm_num
    have hpos : 0 < n := by
      rw [← hn]
      exact two_pos.trans_eq (Vec.size_tabulate _ _).symm
    have := congrArg (fun p : EuclideanSpace ℝ (Fin n) => p ⟨0, hpos⟩) hzero
    exact one_ne_zero (hentry.symm.trans this)
  constructor
  · obtain ⟨s, answers, t, hrun, hstep, hlands⟩ :=
      CauchyStepper.exists_step [] two_pos one_pos hl hradius (Vec.size_zeros 2)
    obtain ⟨n, m, l, hinputs, hcheck, h⟩ :=
      sufficient_decrease.1 _ _ _ _ _ _ _ hrun hstep hlands.result
    cases hinputs
    exact ⟨s, answers, t, _, hrun, hstep, hlands.result,
      (h.pos (hgradient n (Linearization.check_eq_ok_iff.1 hcheck).2.2.2)).1⟩
  · obtain ⟨s, answers, t, hrun, hstep, hlands⟩ :=
      DoglegStepper.exists_step [] hv two_pos one_pos hl hradius
        (Vec.size_zeros 2)
    have hg : settings.solver = .qr → ∀ l, lastInputs calls = some l → l.Consistent :=
      fun hqr => by cases hqr
    obtain ⟨n, m, l, hinputs, hcheck, h⟩ :=
      sufficient_decrease.2 _ _ _ _ _ _ _ _ hrun hstep hlands.result hg
    cases hinputs
    exact ⟨s, answers, t, _, hrun, hstep, hlands.result, hg,
      (h.pos (hgradient n (Linearization.check_eq_ok_iff.1 hcheck).2.2.2)).1⟩

end Stepper

end TrustRegion
