import Mathlib
import TrustRegion.Proofs.Exact.Scalar
import TrustRegion.Proofs.Stepper.Dogleg

/-!
# A step depends on the problem at hand alone

The dogleg solver keeps a Gauss-Newton point, a Cauchy point, scratch vectors and the buffers of a
linear solver from call to call.  The main result, **`step_history_independent`**, says that no
caller can tell: a step that succeeds, and all that is reported after it, is the same as for a new
solver that is prepared once, given the problem once and asked once.  It holds for every arithmetic.
-/

namespace TrustRegion

namespace DoglegStepper

open Stepper (Call lastSize lastInputs)

variable {α : Type} [Scalar α]

/-- **History independence.**  After any calls, a step that succeeds answers with the regime, the
vector, the flag, the reduction, the diagnostics and the Gauss-Newton point with which a new solver
answers after the most recent preparation and the most recent problem only, whatever vector of the
same size it writes over. -/
theorem step_history_independent {settings : Settings α} {calls : List (Call α)}
    {s : DoglegStepper α} {answers : List (Stepper.Answered α (DoglegStepper α))} {radius : α}
    {out : Vec α} {t : Turn α (DoglegStepper α × Vec α) (StepError α) Regime} {regime : Regime}
    (hrun : Stepper.run (fresh settings) calls = some (s, answers))
    (hstep : Stepper.computeStep s radius out = some t) (hok : t.result = .ok regime) :
    ∃ n m l, lastSize calls = some (n, m) ∧ lastInputs calls = some l ∧
      ∀ out' : Vec α, out'.size = out.size →
        ∃ s' answers' t',
          Stepper.run (fresh settings) [.init n m, .setInputs l] = some (s', answers') ∧
          Stepper.computeStep s' radius out' = some t' ∧
          t'.result = t.result ∧ t'.state.2 = t.state.2 ∧
          Stepper.isMaxStep t'.state.1 = Stepper.isMaxStep t.state.1 ∧
          Stepper.predictedReduction t'.state.1 = Stepper.predictedReduction t.state.1 ∧
          t'.state.1.lastRegime = t.state.1.lastRegime ∧
          t'.state.1.diagnostics = t.state.1.diagnostics ∧
          t'.state.1.gaussNewtonStep = t.state.1.gaussNewtonStep := by
  obtain ⟨n, m, l, hv, hradius, hsize, hinputs, hl, hn, hm, hout, h⟩ := lands_of_ok hrun hstep hok
  refine ⟨n, m, l, hsize, hinputs, fun out' hout' => ?_⟩
  obtain ⟨s', answers', t', hrun', hstep', h'⟩ :=
    exists_step [] hv hn hm hl hradius (hout'.trans hout)
  refine ⟨s', answers', t', hrun', hstep', ?_, ?_, ?_, ?_, ?_, ?_, ?_⟩
  · rw [h.result, h'.result]
  · rw [h.step, h'.step]
  · exact h'.maxStep.trans h.maxStep.symm
  · exact h'.reduction.trans h.reduction.symm
  · rw [h.lastRegime, h'.lastRegime]
  · rw [h.diagnostics, h'.diagnostics]
  · rw [h.gaussNewtonStep, h'.gaussNewtonStep]

/-- A solver that has refused a size and a problem, and has done a step for another problem of another
size, does a step as a new one does. -/
theorem step_history_independent_of_refusals :
    let settings : Settings ℝ :=
      { solver := .lu, tolerance := 0, logLevel := none, logFile := none }
    let wide : Linearization ℝ :=
      .ofResiduals (Matrix.tabulate 1 3 fun _ j => j) (Vec.tabulate 1 fun _ => 5)
    let square : Linearization ℝ :=
      .ofResiduals (Matrix.tabulate 2 2 fun i j => i + 2 * j) (Vec.tabulate 2 fun i => 3 - i)
    let calls : List (Call ℝ) := [.init 3 1, .setInputs wide, .computeStep 1 (Vec.zeros 3),
      .setInputs square, .init 0 7, .init 2 2, .setInputs square]
    ∃ s answers t s' answers' t',
      Stepper.run (fresh settings) calls = some (s, answers) ∧
      Stepper.computeStep s (4 : ℝ) (Vec.zeros 2) = some t ∧ (∃ regime, t.result = .ok regime) ∧
      Stepper.run (fresh settings) [.init 2 2, .setInputs square] = some (s', answers') ∧
      Stepper.computeStep s' (4 : ℝ) (Vec.tabulate 2 fun i => (i : ℝ)) = some t' ∧
      t'.result = t.result ∧ t'.state.2 = t.state.2 ∧
      Stepper.predictedReduction t'.state.1 = Stepper.predictedReduction t.state.1 := by
  intro settings wide square calls
  have hv : settings.validate = .ok () :=
    Settings.validate_of_tolerance le_rfl one_pos rfl
  have hl : square.check 2 2 = .ok () :=
    Linearization.check_ofResiduals (J := Matrix.tabulate 2 2 _) (by simp)
  have hradius : checkRadius (4 : ℝ) = .ok () := checkRadius_eq_ok_iff.2 (by norm_num)
  obtain ⟨s, answers, t, hrun, hstep, hlands⟩ := exists_step
    [.init 3 1, .setInputs wide, .computeStep 1 (Vec.zeros 3), .setInputs square, .init 0 7]
    hv two_pos two_pos hl hradius (Vec.size_zeros 2)
  obtain ⟨n, m, l, hsize, hinputs, h⟩ := step_history_independent hrun hstep hlands.result
  cases hsize
  cases hinputs
  obtain ⟨s', answers', t', hrun', hstep', hresult, hvec, -, hred, -⟩ :=
    h (Vec.tabulate 2 fun i => i) (by simp)
  exact ⟨s, answers, t, s', answers', t', hrun, hstep, ⟨_, hlands.result⟩, hrun', hstep', hresult,
    hvec, hred⟩

end DoglegStepper

end TrustRegion
