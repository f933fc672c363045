import Mathlib
import TrustRegion.Proofs.Path.Continuity
import TrustRegion.Proofs.Stepper.AtHand

/-!
# No jumps

In exact arithmetic the dogleg solver writes a vector that depends continuously on the radius, so a
radius that is a little smaller never gives a wholly different step.  This is the main result,
**`step_continuous`**: for every problem there is one continuous map from the positive radii to the
vectors, and whatever a solver did before, its answers for that problem are the values of this map.
-/

namespace TrustRegion

namespace DoglegStepper

open Stepper (Call log lastPreparation problemAtHand)

/-- The vector that is written for a problem is continuous in the radius. -/
theorem continuousOn_step {settings : Settings ℝ} {n m : ℕ} {l : Linearization ℝ}
    (hl : l.check n m = .ok ()) (hg : settings.solver = .qr → l.Consistent) :
    ContinuousOn (fun radius => (landing settings n m l radius).step.toSpace n) (Set.Ioi 0) :=
  DoglegPath.continuousOn_landing hl hg

/-- **Continuity in the radius.**  For a problem of a given size there is one map from radii to vectors
such that, after any calls that leave this problem at hand, a request for a step with a positive radius
succeeds and writes the value of the map; and near every positive radius, be it one where the regime
changes or not, the map changes as little as one likes.

The gradient is arbitrary, but for orthogonal triangularisation, which computes with the residuals
instead. -/
theorem step_continuous {settings : Settings ℝ} {n m : ℕ} {l : Linearization ℝ}
    (hl : l.check n m = .ok ()) (hg : settings.solver = .qr → l.Consistent) :
    ∃ h : ℝ → Vec ℝ,
      (∀ (calls : List (Call ℝ)) (s : DoglegStepper ℝ)
          (answers : List (Stepper.Answered ℝ (DoglegStepper ℝ))),
        Stepper.run (fresh settings) calls = some (s, answers) →
        lastPreparation (log calls answers) = some (some (n, m)) →
        problemAtHand (log calls answers) = some l →
        ∀ (radius : ℝ) (out : Vec ℝ), 0 < radius → out.size = n →
          ∃ t regime, Stepper.computeStep s radius out = some t ∧ t.result = .ok regime ∧
            t.state.2 = h radius) ∧
      (∀ radius, (h radius).size = n) ∧
      ∀ radius : ℝ, 0 < radius → ∀ ε : ℝ, 0 < ε → ∃ δ : ℝ, 0 < δ ∧
        ∀ radius' : ℝ, 0 < radius' → |radius' - radius| < δ →
          ‖(h radius').toSpace n - (h radius).toSpace n‖ < ε := by
  refine ⟨fun radius => (landing settings n m l radius).step, ?_,
    fun radius => DoglegPath.size_landing hl, fun radius hr ε hε => ?_⟩
  · intro calls s answers hrun hsize hproblem radius out hr hout
    obtain ⟨t, ht, hlands⟩ :=
      exists_step_atHand hrun hsize hproblem (checkRadius_eq_ok_iff.2 hr) hout
    exact ⟨t, _, ht, hlands.result, hlands.step⟩
  · obtain ⟨δ, hδ, hnear⟩ := Metric.continuousOn_iff.1 (continuousOn_step hl hg) radius hr ε hε
    refine ⟨δ, hδ, fun radius' hr' hdist => ?_⟩
    rw [← dist_eq_norm]
    exact hnear radius' hr' hdist

/-- Four residuals, in a solver that has refused the problem before it was prepared for it. -/
theorem step_continuous_of_early_problem :
    let settings : Settings ℝ :=
      { solver := .qr, tolerance := 1 / 8, logLevel := none, logFile := none }
    let tall : Linearization ℝ :=
      .ofResiduals (Matrix.tabulate 4 2 fun i j => i * i - 3 * j) (Vec.tabulate 4 fun i => 5 - 2 * i)
    ∃ s answers, ∃ h : ℝ → Vec ℝ, tall.check 2 4 = .ok () ∧ tall.Consistent ∧
      Stepper.run (fresh settings) [.init 1 1, .setInputs tall, .init 2 4, .setInputs tall] =
        some (s, answers) ∧
      (∀ radius : ℝ, 0 < radius → ∃ t regime, Stepper.computeStep s radius (Vec.zeros 2) = some t ∧
        t.result = .ok regime ∧ t.state.2 = h radius) ∧
      ∀ radius : ℝ, 0 < radius → ∀ ε : ℝ, 0 < ε → ∃ δ : ℝ, 0 < δ ∧
        ∀ radius' : ℝ, 0 < radius' → |radius' - radius| < δ →
          ‖(h radius').toSpace 2 - (h radius).toSpace 2‖ < ε := by
  intro settings tall
  have hv : settings.validate = .ok () :=
    Settings.validate_of_tolerance (by norm_num) (by norm_num) rfl
  have hl : tall.check 2 4 = .ok () :=
    Linearization.check_ofResiduals (J := Matrix.tabulate 4 2 _) (by simp)
  have hg : tall.Consistent :=
    Linearization.transposeMul_ofResiduals (J := Matrix.tabulate 4 2 _) (Vec.size_tabulate 4 _)
  have hg' : settings.solver = .qr → tall.Consistent := fun _ => hg
  obtain ⟨s, answers, hrun, hsize, hproblem⟩ :=
    exists_atHand [.init 1 1, .setInputs tall] hv two_pos four_pos hl
  obtain ⟨h, hwrites, -, hcontinuous⟩ := step_continuous hl hg'
  exact ⟨s, answers, h, hl, hg, hrun,
    fun radius hr => hwrites _ s answers hrun hsize hproblem radius _ hr (Vec.size_zeros 2),
    hcontinuous⟩

end DoglegStepper

end TrustRegion
