import Mathlib
import TrustRegion.Proofs.Path.Homogeneity
import TrustRegion.Proofs.Stepper.AtHand

/-!
# Steps for multiples of a problem

Two dogleg solvers with the same settings, each with its own history, have problems at hand that differ
in the units of the residuals: one has residuals and gradient `c` times those of the other.  In exact
arithmetic a caller who measures the radius in these units as well sees the same step in the same units:
**`step_homogeneous`**.
-/

namespace TrustRegion

namespace DoglegStepper

open Stepper (Call log lastPreparation problemAtHand)

/-- **Homogeneity.**  Let `c` be any number but zero.  While a problem is at hand, and with another solver
that has the same settings a multiple of it by `c`, requests for a step within a positive radius and within
`|c|` times that radius both succeed.  Regime, flag and report are the same, the second step is `c`
times the first one, and the model falls by `c²` times as much. -/
theorem step_homogeneous {settings : Settings ℝ} {calls calls' : List (Call ℝ)}
    {s s' : DoglegStepper ℝ} {answers answers' : List (Stepper.Answered ℝ (DoglegStepper ℝ))}
    {n m : ℕ} {l l' : Linearization ℝ} {c radius : ℝ} {out out' : Vec ℝ}
    (hrun : Stepper.run (fresh settings) calls = some (s, answers))
    (hsize : lastPreparation (log calls answers) = some (some (n, m)))
    (hproblem : problemAtHand (log calls answers) = some l)
    (hrun' : Stepper.run (fresh settings) calls' = some (s', answers'))
    (hsize' : lastPreparation (log calls' answers') = some (some (n, m)))
    (hproblem' : problemAtHand (log calls' answers') = some l')
    (hmultiple : l'.IsMultiple c l) (hc : c ≠ 0) (hr : 0 < radius) (hout : out.size = n)
    (hout' : out'.size = n) :
    ∃ t t' regime, Stepper.computeStep s radius out = some t ∧
      Stepper.computeStep s' (|c| * radius) out' = some t' ∧
      t.result = .ok regime ∧ t'.result = .ok regime ∧
      Stepper.isMaxStep t'.state.1 = Stepper.isMaxStep t.state.1 ∧
      t'.state.1.diagnostics = t.state.1.diagnostics ∧
      t'.state.2 = t.state.2.scale c ∧
      Stepper.predictedReduction t'.state.1 = c ^ 2 * Stepper.predictedReduction t.state.1 := by
  have hr' : 0 < |c| * radius := mul_pos (abs_pos.2 hc) hr
  obtain ⟨t, ht, h⟩ := exists_step_atHand hrun hsize hproblem (checkRadius_eq_ok_iff.2 hr) hout
  obtain ⟨t', ht', h'⟩ :=
    exists_step_atHand hrun' hsize' hproblem' (checkRadius_eq_ok_iff.2 hr') hout'
  have hlanding : landing settings n m l' (|c| * radius) =
      { landing settings n m l radius with
        step := (landing settings n m l radius).step.scale c } := by
    unfold landing
    rw [hmultiple.along_eq hc, hmultiple.gradient, hmultiple.gaussNewtonPoint?_eq, mul_comm]
    exact DoglegPath.landing_multiple _ _ _ radius hc
  have hresult := h'.result
  have hstep := h'.step
  have hflag := h'.maxStep
  have hreduction := h'.reduction
  rw [hlanding] at hresult hstep hflag hreduction
  refine ⟨t, t', _, ht, ht', h.result, hresult, hflag.trans h.maxStep.symm, ?_, ?_, ?_⟩
  · rw [h'.diagnostics, h.diagnostics, hmultiple.report_eq hc]
  · rw [hstep, h.step]
  · refine hreduction.trans ((hmultiple.reductionAt_eq _).trans ?_)
    exact congrArg _ h.reduction.symm

/-- Residuals in units of a third, with the other sign; the second solver has given up another problem, and
its parameters and its cost are others. -/
theorem step_homogeneous_of_residuals :
    let settings : Settings ℝ :=
      { solver := .qr, tolerance := 1 / 8, logLevel := none, logFile := none }
    let tall : Linearization ℝ :=
      .ofResiduals (Matrix.tabulate 3 2 fun i j => i - 2 * j) (Vec.tabulate 3 fun i => 4 - i)
    let tripled : Linearization ℝ :=
      { point := Vec.tabulate 2 fun i => (i : ℝ)
        residuals := tall.residuals.scale (-3)
        jacobian := tall.jacobian
        gradient := tall.gradient.scale (-3)
        cost := 7 }
    ∃ s answers s' answers' t t' regime,
      Stepper.run (fresh settings) [.init 2 3, .setInputs tall] = some (s, answers) ∧
      Stepper.run (fresh settings) [.init 2 3, .setInputs tall, .init 2 3, .setInputs tripled] =
        some (s', answers') ∧
      tripled.IsMultiple (-3) tall ∧
      Stepper.computeStep s (1 / 2 : ℝ) (Vec.zeros 2) = some t ∧
      Stepper.computeStep s' (3 / 2 : ℝ) (Vec.zeros 2) = some t' ∧
      t.result = .ok regime ∧ t'.result = .ok regime ∧ t'.state.2 = t.state.2.scale (-3) ∧
      Stepper.predictedReduction t'.state.1 = 9 * Stepper.predictedReduction t.state.1 := by
  intro settings tall tripled
  have hv : settings.validate = .ok () :=
    Settings.validate_of_tolerance (by norm_num) (by norm_num) rfl
  have hl : tall.check 2 3 = .ok () :=
    Linearization.check_ofResiduals (J := Matrix.tabulate 3 2 _) (by simp)
  obtain ⟨-, hresiduals, hjacobian, hgradient⟩ := Linearization.check_eq_ok_iff.1 hl
  have hl' : tripled.check 2 3 = .ok () :=
    Linearization.check_eq_ok_iff.2 ⟨Vec.size_tabulate _ _, (Vec.size_scale _ _).trans hresiduals,
      hjacobian, (Vec.size_scale _ _).trans hgradient⟩
  have hmultiple : tripled.IsMultiple (-3) tall := ⟨rfl, rfl, rfl⟩
  obtain ⟨s, answers, hrun, hsize, hproblem⟩ := exists_atHand [] hv two_pos three_pos hl
  obtain ⟨s', answers', hrun', hsize', hproblem'⟩ :=
    exists_atHand [.init 2 3, .setInputs tall] hv two_pos three_pos hl'
  obtain ⟨t, t', regime, ht, ht', hok, hok', -, -, hstep, hreduction⟩ :=
    step_homogeneous hrun hsize hproblem hrun' hsize' hproblem' hmultiple (by norm_num)
      (one_half_pos : (0 : ℝ) < 1 / 2) (Vec.size_zeros 2) (Vec.size_zeros 2)
  have hradius : |(-3 : ℝ)| * (1 / 2) = 3 / 2 := by norm_num
  have hsquare : (-3 : ℝ) ^ 2 = 9 := by norm_num
  rw [hradius] at ht'
  rw [hsquare] at hreduction
  exact ⟨s, answers, s', answers', t, t', regime, hrun, hrun', hmultiple, ht, ht', hok, hok', hstep,
    hreduction⟩

end DoglegStepper

end TrustRegion
