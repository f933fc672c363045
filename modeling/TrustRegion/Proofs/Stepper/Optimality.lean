import Mathlib
import TrustRegion.Proofs.Path.Optimality
import TrustRegion.Proofs.Solver.Exact
import TrustRegion.Proofs.Stepper.Radius

/-!
# The step is the best point of the dogleg path

In exact arithmetic the step of the dogleg solver lies on the dogleg path of the problem last given, and
of all points of the path within the radius it has the lowest value of the model.  This is the main
result, **`step_optimal`**; it follows that a larger radius never makes the reduction smaller.
-/

namespace TrustRegion

open scoped RealInnerProductSpace

/-! ## The value of the model -/

namespace Model

variable {n m : ℕ} {l : Linearization ℝ} {h : Vec ℝ}

/-- By how much the model falls up to a step, as a map on `ℝⁿ`. -/
theorem reductionAt_eq_fall (hl : l.check n m = .ok ()) (hh : h.size = n) :
    (holding n m l).reductionAt h =
      fall (l.jacobian.toMap m n) (l.gradient.toSpace n) (h.toSpace n) :=
  reductionAt_holding hl hh

theorem predictedReduction_holding (hl : l.check n m = .ok ()) (hh : h.size = n) :
    (holding n m l).predictedReduction h =
      some (fall (l.jacobian.toMap m n) (l.gradient.toSpace n) (h.toSpace n)) := by
  rw [predictedReduction_of_size (sized_holding hl) hh, reductionAt_eq_fall hl hh]

/-- The value at a step is the cost at the point, less what the model falls. -/
theorem value_holding (hl : l.check n m = .ok ()) (hh : h.size = n) :
    (holding n m l).value h =
      some ((holding n m l).cost -
        fall (l.jacobian.toMap m n) (l.gradient.toSpace n) (h.toSpace n)) := by
  rw [value_of_size (sized_holding hl) hh, ← reductionAt_eq_fall hl hh, reductionAt]
  congr 1
  ring

end Model

namespace DoglegStepper

open Stepper (Call lastSize lastInputs)

variable {settings : Settings ℝ} {calls : List (Call ℝ)} {s : DoglegStepper ℝ} {radius : ℝ}
  {answers : List (Stepper.Answered ℝ (DoglegStepper ℝ))} {out : Vec ℝ}
  {t : Turn ℝ (DoglegStepper ℝ × Vec ℝ) (StepError ℝ) Regime} {regime : Regime} {n m : ℕ}
  {l : Linearization ℝ}

/-- The Gauss-Newton point that is shown is stationary. -/
theorem stationary_of_lands (hl : l.check n m = .ok ())
    (hg : settings.solver = .qr → l.Consistent) (h : Lands settings n m l radius t) :
    ∀ p, t.state.1.gaussNewtonStep = some p →
      IsStationary (l.jacobian.toMap m n) (l.gradient.toSpace n) (p.toSpace n) := by
  intro p hp
  rw [h.gaussNewtonStep] at hp
  exact DoglegPath.stationary_gaussNewtonPoint hl hg hp

/-- The reduction that is shown is that of the step. -/
theorem reduction_of_lands (hl : l.check n m = .ok ()) (h : Lands settings n m l radius t) :
    t.state.1.reduction =
      fall (l.jacobian.toMap m n) (l.gradient.toSpace n) (t.state.2.toSpace n) := by
  rw [h.reduction, h.step]
  exact Model.reductionAt_eq_fall hl (DoglegPath.size_landing hl)

/-- Within the same problem, a step for a larger radius makes the model fall at least as far. -/
theorem reduction_mono {radius' : ℝ} {regime' : Regime}
    {t' : Turn ℝ (DoglegStepper ℝ × Vec ℝ) (StepError ℝ) Regime} (hl : l.check n m = .ok ())
    (hg : settings.solver = .qr → l.Consistent) (h : Lands settings n m l radius t)
    (h' : Lands settings n m l radius' t') (hok : t.result = .ok regime)
    (hok' : t'.result = .ok regime') (hr : 0 < radius) (hle : radius ≤ radius') :
    t.state.1.reduction ≤ t'.state.1.reduction := by
  have hr' : 0 < radius' := hr.trans_le hle
  have hκ := Linearization.curvature_eq hl
  have hsame : t'.state.1.gaussNewtonStep = t.state.1.gaussNewtonStep :=
    h'.gaussNewtonStep.trans h.gaussNewtonStep.symm
  have hreached := reached_of_lands hl hr h hok
  have hreached' := reached_of_lands hl hr' h' hok'
  have hstat := stationary_of_lands hl hg h
  rw [hsame] at hreached'
  rw [hκ] at hreached hreached'
  rw [reduction_of_lands hl h, reduction_of_lands hl h']
  -- the shorter step is one of the points with which the longer one is compared
  exact hreached'.fall_le hr'.le hstat (hreached.mem_doglegPath hr.le hstat)
    ((hreached.norm_le hr.le (sq_nonneg _)).trans hle)

/-- **Path optimality.**  A step that succeeds lies on the dogleg path of the problem last given, and the
value of the model there is no greater than at any other point of the path within the radius.  The
gradient is arbitrary, but for orthogonal triangularisation, which computes with the residuals instead.

Hence the reduction is never below that of the Cauchy point cut off at the radius, and it never gets
smaller when the same problem is solved for a larger radius, whatever the history. -/
theorem step_optimal (hrun : Stepper.run (fresh settings) calls = some (s, answers))
    (hstep : Stepper.computeStep s radius out = some t) (hok : t.result = .ok regime)
    (hg : settings.solver = .qr → ∀ l, lastInputs calls = some l → l.Consistent) :
    ∃ n m l q, lastSize calls = some (n, m) ∧ lastInputs calls = some l ∧
      t.state.1.path.map (·.model) = some q ∧ q.gradient = l.gradient ∧
      q.hessian = l.jacobian.gram ∧
      (∃ a, (Solver.ofKind settings.solver n m).solve l.system settings.tolerance (Vec.zeros n) =
          some a ∧
        t.state.1.gaussNewtonStep = a.answer.toOption) ∧
      let g := l.gradient.toSpace n
      let κ := l.curvature n
      let path := doglegPath g κ (t.state.1.gaussNewtonStep.map (Vec.toSpace n))
      t.state.2.size = n ∧ t.state.2.toSpace n ∈ path ∧ ‖t.state.2.toSpace n‖ ≤ radius ∧
      (∃ v, q.value t.state.2 = some v ∧
        ∀ y : Vec ℝ, y.size = n → y.toSpace n ∈ path → ‖y.toSpace n‖ ≤ radius →
          ∃ w, q.value y = some w ∧ v ≤ w) ∧
      (∀ y : Vec ℝ, y.size = n → y.toSpace n = clippedPoint g κ radius →
        ∃ w, q.predictedReduction y = some w ∧ w ≤ Stepper.predictedReduction t.state.1) ∧
      ∀ calls' s' answers' radius' out' t' regime',
        Stepper.run (fresh settings) calls' = some (s', answers') →
        Stepper.computeStep s' radius' out' = some t' → t'.result = .ok regime' →
        lastInputs calls' = some l → radius ≤ radius' →
        Stepper.predictedReduction t.state.1 ≤ Stepper.predictedReduction t'.state.1 := by
  obtain ⟨n, m, l, -, hradius, hsize, hinputs, hl, -, -, -, h⟩ := lands_of_ok hrun hstep hok
  have hr : 0 < radius := checkRadius_eq_ok_iff.1 hradius
  have hκ := Linearization.curvature_eq hl
  have hg' : settings.solver = .qr → l.Consistent := fun hqr => hg hqr l hinputs
  have hreached := reached_of_lands hl hr h hok
  have hstat := stationary_of_lands hl hg' h
  have hred := reduction_of_lands hl h
  have hvec : t.state.2.size = n := by
    rw [h.step]
    exact DoglegPath.size_landing hl
  rw [hκ] at hreached
  refine ⟨n, m, l, Model.holding n m l, hsize, hinputs, h.model, rfl, rfl,
    gaussNewtonStep_of_lands hl h, hvec, ?_, hreached.norm_le hr.le (sq_nonneg _),
    ⟨_, Model.value_holding hl hvec, fun y hy hpath hin => ?_⟩, fun y hy hpoint => ?_, ?_⟩
  · rw [hκ]
    exact hreached.mem_doglegPath hr.le hstat
  · rw [hκ] at hpath
    exact ⟨_, Model.value_holding hl hy, sub_le_sub_left (hreached.fall_le hr.le hstat hpath hin) _⟩
  · refine ⟨_, Model.predictedReduction_holding hl hy, ?_⟩
    show _ ≤ t.state.1.reduction
    rw [hred, hpoint, hκ]
    exact hreached.fall_clippedPoint_le hr.le hstat
  · intro calls' s' answers' radius' out' t' regime' hrun' hstep' hok' hinputs' hle
    obtain ⟨n', m', l', -, -, -, hlast, hl', -, -, -, h'⟩ := lands_of_ok hrun' hstep' hok'
    rw [hinputs'] at hlast
    cases hlast
    obtain ⟨rfl, rfl⟩ := Linearization.size_eq_of_check hl hl'
    exact reduction_mono hl hg' h h' hok hok' hr hle

/-- A step for four residuals by orthogonal triangularisation, in a solver that has done a step for
another problem before. -/
theorem step_optimal_of_residuals :
    let settings : Settings ℝ :=
      { solver := .qr, tolerance := 1 / 8, logLevel := none, logFile := none }
    let first : Linearization ℝ :=
      .ofResiduals (Matrix.tabulate 1 1 fun _ _ => 2) (Vec.tabulate 1 fun _ => 3)
    let tall : Linearization ℝ :=
      .ofResiduals (Matrix.tabulate 4 2 fun i j => i * i - 3 * j) (Vec.tabulate 4 fun i => 5 - 2 * i)
    let calls : List (Call ℝ) := [.init 1 1, .setInputs first, .computeStep 1 (Vec.zeros 1),
      .init 2 4, .setInputs tall]
    ∃ s answers t regime,
      Stepper.run (fresh settings) calls = some (s, answers) ∧
      Stepper.computeStep s (1 / 3 : ℝ) (Vec.zeros 2) = some t ∧ t.result = .ok regime ∧
      (settings.solver = .qr → ∀ l, lastInputs calls = some l → l.Consistent) ∧
      t.state.2.toSpace 2 ∈ doglegPath (tall.gradient.toSpace 2) (tall.curvature 2)
        (t.state.1.gaussNewtonStep.map (Vec.toSpace 2)) := by
  intro settings first tall calls
  have hv : settings.validate = .ok () :=
    Settings.validate_of_tolerance (by norm_num) (by norm_num) rfl
  have hl : tall.check 2 4 = .ok () :=
    Linearization.check_ofResiduals (J := Matrix.tabulate 4 2 _) (by simp)
  have hradius : checkRadius (1 / 3 : ℝ) = .ok () := checkRadius_eq_ok_iff.2 (by norm_num)
  have hg : settings.solver = .qr → ∀ l, lastInputs calls = some l → l.Consistent := by
    intro _ l hlast
    cases hlast
    exact Linearization.transposeMul_ofResiduals (J := Matrix.tabulate 4 2 _) (Vec.size_tabulate 4 _)
  obtain ⟨s, answers, t, hrun, hstep, hlands⟩ := exists_step
    [.init 1 1, .setInputs first, .computeStep 1 (Vec.zeros 1)] hv two_pos four_pos hl hradius
    (Vec.size_zeros 2)
  obtain ⟨n, m, l, q, hsize, hinputs, -, -, -, -, -, hpath, -⟩ :=
    step_optimal hrun hstep hlands.result hg
  cases hsize
  cases hinputs
  exact ⟨s, answers, t, _, hrun, hstep, hlands.result, hg, hpath⟩

end DoglegStepper

end TrustRegion
