import Mathlib
import TrustRegion.Proofs.Path.Reached
import TrustRegion.Proofs.Stepper.Dogleg

/-!
# The step and the trust region

In exact arithmetic a step of the dogleg solver never leaves the trust region, whatever the gradient,
the history and the linear solver.  The main result, **`norm_step`**, also says exactly where it ends:
at the Gauss-Newton point, on the sphere, or at the Cauchy point, and which regime and which flag go
with each.
-/

namespace TrustRegion

namespace DoglegStepper

open Stepper (Call lastSize lastInputs)

variable {settings : Settings ℝ} {calls : List (Call ℝ)} {s : DoglegStepper ℝ} {radius : ℝ}
  {answers : List (Stepper.Answered ℝ (DoglegStepper ℝ))} {out : Vec ℝ}
  {t : Turn ℝ (DoglegStepper ℝ × Vec ℝ) (StepError ℝ) Regime} {regime : Regime}

/-- A step that succeeds ends in one of the ways that the path allows. -/
theorem reached_of_lands {n m : ℕ} {l : Linearization ℝ} (hl : l.check n m = .ok ())
    (hr : 0 < radius) (h : Lands settings n m l radius t) (hok : t.result = .ok regime) :
    DoglegPath.Reached n (l.gradient.toSpace n) (l.curvature n) radius t.state.1.gaussNewtonStep
      ⟨regime, t.state.2, t.state.1.maxStep⟩ := by
  have hreached := DoglegPath.landing_reached hl hr
    (DoglegPath.gaussNewtonPoint? settings.solver settings.tolerance l)
    fun p hp => DoglegPath.size_gaussNewtonPoint? hl hp
  rw [h.gaussNewtonStep, h.step, h.maxStep]
  have hregime := h.result
  rw [hok] at hregime
  cases hregime
  exact hreached

/-- The Gauss-Newton point that is shown is what a fresh linear solver finds. -/
theorem gaussNewtonStep_of_lands {n m : ℕ} {l : Linearization ℝ} (hl : l.check n m = .ok ())
    (h : Lands settings n m l radius t) :
    ∃ a, (Solver.ofKind settings.solver n m).solve l.system settings.tolerance (Vec.zeros n) =
        some a ∧
      t.state.1.gaussNewtonStep = a.answer.toOption := by
  rw [h.gaussNewtonStep]
  exact DoglegPath.exists_solve hl settings.solver settings.tolerance

/-- **The trust-region bound.**  A step that succeeds is no longer than the radius.

If the linear solver finds the Gauss-Newton point `p`, the length of the step is the lesser of the
radius and `‖p‖`; the regime is that of the Gauss-Newton point exactly if it is within the radius, and
otherwise the step ends on the boundary, either straight down the slope or strictly between the Cauchy
point and `p`.  If there is no Gauss-Newton point, the step is the Cauchy point cut off at the radius. -/
theorem norm_step (hrun : Stepper.run (fresh settings) calls = some (s, answers))
    (hstep : Stepper.computeStep s radius out = some t) (hok : t.result = .ok regime) :
    ∃ n m l, lastSize calls = some (n, m) ∧ lastInputs calls = some l ∧ t.state.2.size = n ∧
      (∃ a, (Solver.ofKind settings.solver n m).solve l.system settings.tolerance (Vec.zeros n) =
          some a ∧
        t.state.1.gaussNewtonStep = a.answer.toOption) ∧
      let g := l.gradient.toSpace n
      let κ := l.curvature n
      let h := t.state.2.toSpace n
      ‖h‖ ≤ radius ∧
      (∀ p, t.state.1.gaussNewtonStep = some p →
        ‖h‖ = min radius ‖p.toSpace n‖ ∧
        (regime = .gaussNewton ↔ ‖p.toSpace n‖ ≤ radius) ∧
        (‖p.toSpace n‖ ≤ radius → t.state.2 = p ∧ Stepper.isMaxStep t.state.1 = false) ∧
        (radius < ‖p.toSpace n‖ → Stepper.isMaxStep t.state.1 = true ∧
          (regime = .cauchy ∧ radius ≤ cauchyLength g κ ∧ h = -((radius / ‖g‖) • g) ∨
            regime = .combined ∧ cauchyLength g κ < radius ∧ ‖h‖ = radius ∧
              ∃ τ : ℝ, 0 < τ ∧ τ < 1 ∧
                h = cauchyPoint g κ + τ • (p.toSpace n - cauchyPoint g κ)))) ∧
      (t.state.1.gaussNewtonStep = none →
        regime = .cauchy ∧ (‖h‖ : EReal) = min (radius : EReal) (cauchyLength g κ) ∧
        (cauchyLength g κ < radius → h = cauchyPoint g κ) ∧
        (radius ≤ cauchyLength g κ → h = -((radius / ‖g‖) • g)) ∧
        (Stepper.isMaxStep t.state.1 = true ↔ radius ≤ cauchyLength g κ)) := by
  obtain ⟨n, m, l, -, hradius, hsize, hinputs, hl, -, -, hout, h⟩ := lands_of_ok hrun hstep hok
  have hr : 0 < radius := checkRadius_eq_ok_iff.1 hradius
  have hκ := Linearization.curvature_nonneg hl
  have hreached := reached_of_lands hl hr h hok
  have hvec : t.state.2.size = n := by
    rw [h.step]
    exact DoglegPath.size_landing hl
  refine ⟨n, m, l, hsize, hinputs, hvec, gaussNewtonStep_of_lands hl h, hreached.norm_le hr.le hκ,
    fun p hp => ?_, fun hp => ?_⟩
  · rw [hp] at hreached
    refine ⟨hreached.norm_eq_min hr.le hκ, ?_⟩
    show (regime = _ ↔ _) ∧ (_ → _ ∧ t.state.1.maxStep = false) ∧
      (_ → t.state.1.maxStep = true ∧ _)
    generalize t.state.1.maxStep = flag at hreached ⊢
    generalize t.state.2 = x at hreached hvec ⊢
    cases hreached with
    | gaussNewton near =>
        exact ⟨iff_of_true rfl near, fun _ => ⟨rfl, rfl⟩, fun far => absurd near (not_le.2 far)⟩
    | before far reaches point =>
        exact ⟨iff_of_false (by simp) (not_le.2 far), fun near => absurd near (not_le.2 far),
          fun _ => ⟨rfl, Or.inl ⟨rfl, reaches, point⟩⟩⟩
    | between far passes share_pos share_lt point norm_eq =>
        exact ⟨iff_of_false (by simp) (not_le.2 far), fun near => absurd near (not_le.2 far),
          fun _ => ⟨rfl, Or.inr ⟨rfl, passes, norm_eq, _, share_pos, share_lt, point⟩⟩⟩
  · rw [hp] at hreached
    have hnorm := hreached.norm_eq_reachWithin hr.le hκ
    show _ ∧ _ ∧ _ ∧ _ ∧ (t.state.1.maxStep = true ↔ _)
    generalize t.state.1.maxStep = flag at hreached ⊢
    generalize t.state.2 = x at hreached hvec hnorm ⊢
    cases hreached with
    | alone point flag_iff =>
        refine ⟨rfl, ?_, fun h => point.trans (clippedPoint_of_lt h),
          fun h => point.trans (clippedPoint_of_le h), flag_iff⟩
        rw [← coe_reachWithin hr.le hκ, ← hnorm]

/-- A step for a problem with three residuals whose gradient belongs to other residuals, after a problem
that was refused. -/
theorem norm_step_of_foreign_gradient :
    let settings : Settings ℝ :=
      { solver := .cholesky, tolerance := 1 / 2, logLevel := none, logFile := none }
    let tall : Linearization ℝ :=
      { point := Vec.zeros 2
        residuals := Vec.tabulate 3 fun i => i
        jacobian := Matrix.tabulate 3 2 fun i j => 1 + i * j
        gradient := Vec.tabulate 2 fun j => 7 - j
        cost := 0 }
    let wide : Linearization ℝ :=
      .ofResiduals (Matrix.tabulate 1 3 fun _ j => j) (Vec.tabulate 1 fun _ => 5)
    let calls : List (Call ℝ) :=
      [.setInputs tall, .init 3 2, .setInputs wide, .init 2 3, .setInputs tall]
    ∃ s answers t regime,
      Stepper.run (fresh settings) calls = some (s, answers) ∧
      Stepper.computeStep s (1 / 4 : ℝ) (Vec.zeros 2) = some t ∧ t.result = .ok regime ∧
      ‖t.state.2.toSpace 2‖ ≤ 1 / 4 := by
  intro settings tall wide calls
  have hv : settings.validate = .ok () :=
    Settings.validate_of_tolerance (by norm_num) (by norm_num) rfl
  have hl : tall.check 2 3 = .ok () :=
    Linearization.check_eq_ok_iff.2 ⟨Vec.size_zeros _, Vec.size_tabulate _ _,
      Matrix.hasShape_tabulate _ _ _, Vec.size_tabulate _ _⟩
  have hradius : checkRadius (1 / 4 : ℝ) = .ok () := checkRadius_eq_ok_iff.2 (by norm_num)
  obtain ⟨s, answers, t, hrun, hstep, hlands⟩ := exists_step
    [.setInputs tall, .init 3 2, .setInputs wide] hv two_pos three_pos hl hradius (Vec.size_zeros 2)
  obtain ⟨n, m, l, hsize, -, -, -, hle, -⟩ := norm_step hrun hstep hlands.result
  cases hsize
  exact ⟨s, answers, t, _, hrun, hstep, hlands.result, hle⟩

end DoglegStepper

end TrustRegion
