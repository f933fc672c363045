import Mathlib
import TrustRegion.Proofs.Path.SecondLeg
import TrustRegion.Proofs.Solver.Rank
import TrustRegion.Proofs.Stepper.AtHand

/-!
# Neither the order of the tests nor a guard matters

In exact arithmetic, once the linear solver has found a Gauss-Newton point, the way to it from the Cauchy
point leads outward, and so the dogleg solver could make its two tests in either order, and could compute
the crossing without any guard: **`second_leg_outward`**.
-/

namespace TrustRegion

open scoped RealInnerProductSpace

namespace DoglegStepper

open Stepper (Call log lastPreparation problemAtHand)

/-- **The second leg.**  While a problem is at hand, the path of a solver takes a step for every radius,
and it is the same step if the test for the Cauchy point comes first.

If the linear solver finds the Gauss-Newton point `p`, then for the Cauchy point `c`, whose distance is
the one the path keeps, `c·(p - c) ≥ 0` and `‖c‖ ≤ ‖p‖`, and either is an equality only if `c = p`.  The
step ends between the two exactly if `‖c‖ < radius < ‖p‖`; then the crossing has the coefficients
`a > 0`, `b > 0`, `c < 0` and a positive discriminant, and its share is that of the stable formula, which
nothing has replaced.

The gradient is arbitrary, but for orthogonal triangularisation, which computes with the residuals
instead. -/
theorem second_leg_outward {settings : Settings ℝ} {calls : List (Call ℝ)} {s : DoglegStepper ℝ}
    {answers : List (Stepper.Answered ℝ (DoglegStepper ℝ))} {n m : ℕ} {l : Linearization ℝ}
    (hrun : Stepper.run (fresh settings) calls = some (s, answers))
    (hsize : lastPreparation (log calls answers) = some (some (n, m)))
    (hproblem : problemAtHand (log calls answers) = some l)
    (hg : settings.solver = .qr → l.Consistent) :
    ∃ d a, s.path = some d ∧
      (Solver.ofKind settings.solver n m).solve l.system settings.tolerance (Vec.zeros n) = some a ∧
      (∀ (radius : ℝ) (out : Vec ℝ), out.size = n →
        ∃ t t', d.step radius out = some t ∧ t.state.1.gaussNewton.step? = a.answer.toOption ∧
          d.stepBy GaussNewton.compute DoglegPath.placeCauchyFirst radius out = some t' ∧
          t'.state.2 = t.state.2) ∧
      ∀ p, a.answer = .ok p →
        let g := l.gradient.toSpace n
        let c := cauchyPoint g (‖l.jacobian.toMap m n g‖ ^ 2)
        d.cauchy.norm = .finite ‖c‖ ∧ LeadsOutward c (p.toSpace n) ∧
        ∀ (radius : ℝ) (out : Vec ℝ) (t : Turn ℝ (DoglegPath ℝ × Vec ℝ) (StepError ℝ) (Regime × Bool)),
          out.size = n → d.step radius out = some t →
          (t.result = .ok (.combined, true) ↔ ‖c‖ < radius ∧ radius < ‖p.toSpace n‖) ∧
          ∀ flag, t.result = .ok (.combined, flag) →
            DoglegPath.OnSecondLeg n c p radius t.state.1.corner t.state.2 ∧
            .crossing (Crossing.share t.state.1.corner p radius) ∈ t.events := by
  obtain ⟨d, hd, hsized, hholds, hstaged⟩ := path_of_problemAtHand hrun hsize hproblem
  have hl := hholds.check
  obtain ⟨a, ha, hpoint⟩ := DoglegPath.exists_solve hl settings.solver settings.tolerance
  refine ⟨d, a, hd, ha, fun radius out hout => ?_, fun p hp => ?_⟩
  · obtain ⟨t, t', ht, ht', hsame⟩ :=
      DoglegPath.step_placeCauchyFirst hsized hholds hstaged hg radius hout
    obtain ⟨d', events, hstep, -, -, -, hfound, -⟩ :=
      DoglegPath.step_landing hsized hholds hstaged radius hout
    rw [ht] at hstep
    cases hstep
    exact ⟨_, t', ht, hfound.trans hpoint, ht', hsame⟩
  · have hp' : DoglegPath.gaussNewtonPoint? settings.solver settings.tolerance l = some p := by
      rw [hpoint, hp]
      rfl
    refine ⟨?_, DoglegPath.leadsOutward_gaussNewtonPoint hl hg hp', fun radius out t hout ht => ?_⟩
    · rw [hholds.cauchy]
      exact DoglegPath.norm_along_eq hl hg hp'
    · exact DoglegPath.step_combined hsized hholds hstaged hg hp' hout ht

/-- A gradient that belongs to no residuals.  The two points differ, so there are radii for which the step
ends between them. -/
theorem second_leg_outward_of_foreign_gradient :
    let settings : Settings ℝ :=
      { solver := .cholesky, tolerance := 0, logLevel := none, logFile := none }
    let skew : Linearization ℝ :=
      { point := Vec.zeros 2
        residuals := Vec.zeros 2
        jacobian := Matrix.tabulate 2 2 fun i j => if i = j then 2 - i else 0
        gradient := Vec.tabulate 2 fun i => 2 - i
        cost := 0 }
    ∃ s answers d p radius t,
      Stepper.run (fresh settings) [.setInputs skew, .init 2 2, .setInputs skew] = some (s, answers) ∧
      s.path = some d ∧ d.step radius (Vec.zeros 2) = some t ∧ t.result = .ok (.combined, true) ∧
      Crossing.Unguarded (Crossing.coefficients t.state.1.corner p radius)
        (Crossing.share t.state.1.corner p radius) := by
  intro settings skew
  have hv : settings.validate = .ok () := Settings.validate_of_tolerance le_rfl one_pos rfl
  have hl : skew.check 2 2 = .ok () :=
    Linearization.check_eq_ok_iff.2 ⟨Vec.size_zeros _, Vec.size_zeros _,
      Matrix.hasShape_tabulate _ _ _, Vec.size_tabulate _ _⟩
  have hg : settings.solver = .qr → skew.Consistent := fun hqr => by cases hqr
  have hns : Nonsingular 2 skew.jacobian.gram.entry := by
    refine Matrix.nonsingular_gram_of_upper (Matrix.hasShape_tabulate _ _ _) le_rfl
      (fun i hi j hj hji => ?_) fun i hi => ?_
    · rw [Matrix.entry_tabulate _ hi hj, if_neg hji.ne']
    · rw [Matrix.entry_tabulate _ hi hi, if_pos rfl]
      have : (i : ℝ) < 2 := by exact_mod_cast hi
      linarith
  obtain ⟨p, hp⟩ := DoglegPath.exists_gaussNewtonPoint hl hns .cholesky
  have hne : DoglegPath.cornerOf 2 2 skew ≠ p.toSpace 2 := by
    refine (DoglegPath.stationary_gaussNewtonPoint hl hg hp).cauchyPoint_ne
      (v := (Vec.tabulate 2 fun i => 1 - 3 * (i : ℝ)).toSpace 2) ?_ ?_
    · simp [PiLp.inner_apply, Fin.sum_univ_two, skew, Vec.entry_tabulate]
      norm_num
    · simp [PiLp.inner_apply, Fin.sum_univ_two, skew, Vec.entry_tabulate, Matrix.entry_tabulate]
      norm_num
  obtain ⟨s, answers, hrun, hsize, hproblem⟩ := exists_atHand [.setInputs skew] hv two_pos two_pos hl
  obtain ⟨d, a, hd, ha, hsteps, hfound⟩ := second_leg_outward hrun hsize hproblem hg
  obtain ⟨a', ha', hpoint⟩ := DoglegPath.exists_solve hl .cholesky (0 : ℝ)
  cases ha.symm.trans ha'
  have hanswer : a.answer = .ok p := by
    rw [hp] at hpoint
    cases ha : a.answer with
    | ok q => rw [ha] at hpoint; cases hpoint; rfl
    | error e => rw [ha] at hpoint; cases hpoint
  obtain ⟨-, hout, hbetween⟩ := hfound p hanswer
  have hlt : ‖DoglegPath.cornerOf 2 2 skew‖ < ‖p.toSpace 2‖ :=
    lt_of_le_of_ne hout.norm_le fun h => hne (hout.eq_of_norm h)
  obtain ⟨radius, hpast, hfar⟩ := exists_between hlt
  obtain ⟨t, -, ht, -⟩ := hsteps radius (Vec.zeros 2) (Vec.size_zeros 2)
  obtain ⟨hiff, hleg⟩ := hbetween radius _ t (Vec.size_zeros 2) ht
  have hresult := hiff.2 ⟨hpast, hfar⟩
  exact ⟨s, answers, d, p, radius, t, hrun, hd, ht, hresult, (hleg _ hresult).1.unguarded⟩

end DoglegStepper

end TrustRegion
