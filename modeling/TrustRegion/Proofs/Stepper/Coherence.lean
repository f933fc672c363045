import Mathlib
import TrustRegion.Proofs.Stepper.LineMinimiser

/-!
# What a solver reports fits together

After a step, a caller can ask for the regime, the flag, the predicted reduction, the Gauss-Newton point and a
report about the subproblem.  These are put together in four places, at different times and partly kept from
earlier steps.  `DoglegStepper.Coherent` says how they fit together, and **`DoglegStepper.step_coherent`** that
they do so after every step that succeeds.

Of the arithmetic only the laws of comparisons are used: the radius is a positive number, so the infinite
length reaches it.  In exact arithmetic the report that the model is flat along the gradient means what it
says; the Hessian is singular then, and all three linear solvers notice.
-/

namespace TrustRegion

variable {α : Type} [Scalar α] {n m : ℕ} {l : Linearization α} {radius tolerance : α} {kind : SolverKind}

/-- Every radius that is accepted is reached by the infinite length. -/
theorem Extended.reaches_of_checkRadius [Scalar.LawfulOrder α] (h : checkRadius radius = .ok ()) :
    (infinite : Extended α).reaches radius = true := by
  have hpos : 0 < radius := by
    unfold checkRadius at h
    split at h
    · rename_i hgood
      exact hgood.1
    · cases h
  rw [reaches, Scalar.LawfulOrder.isNaN_eq_false_iff.2 (Scalar.LawfulOrder.number_of_lt hpos).2]
  rfl

namespace CauchyPoint

/-- A step is cut off if there is a gradient and the point is out of reach. -/
theorem snd_stepWithin (p : CauchyPoint α) (gradient : Vec α) (radius : α) :
    (p.stepWithin gradient radius).2 = (!p.isZeroGradient && p.norm.reaches radius) := by
  unfold stepWithin reach
  cases p.isZeroGradient
  · cases p.norm.reaches radius <;> rfl
  · rfl

/-- Where the model falls without end there is a gradient, and no curvature along it. -/
theorem isUnbounded_iff {p : CauchyPoint α} :
    p.isUnbounded = true ↔ p.isZeroGradient = false ∧ ¬0 < p.curvature := by
  rw [isUnbounded, Bool.and_eq_true, Bool.not_eq_true', Bool.not_eq_true', decide_eq_false_iff_not]

/-- There the point is at infinity. -/
theorem norm_along_of_isUnbounded {q : Model α} (h : (along q).isUnbounded = true) :
    (along q).norm = .infinite := by
  obtain ⟨hgradient, hflat⟩ := isUnbounded_iff.1 h
  rw [isZeroGradient, along_gradientNorm] at hgradient
  rw [along_of_isZero_eq_false hgradient] at hflat ⊢
  exact if_neg hflat

end CauchyPoint

namespace DoglegPath

/-- The flag of a landing, regime by regime. -/
theorem onBoundary_landing (c : CauchyPoint α) (gradient : Vec α) (p? : Option (Vec α)) (radius : α) :
    (landing c gradient p? radius).onBoundary =
      match (landing c gradient p? radius).regime with
      | .cauchy => (c.stepWithin gradient radius).2
      | .gaussNewton => false
      | .combined => true := by
  unfold landing
  cases p? with
  | none => rfl
  | some p =>
      dsimp only
      split
      · rfl
      · split <;> rfl

/-- The report of a failure means that there is no Gauss-Newton point. -/
theorem gaussNewtonFailed_report :
    (report n m kind tolerance l).gaussNewtonFailed = true ↔ gaussNewtonPoint? kind tolerance l = none :=
  Option.isNone_iff_eq_none

/-- So does the report of a condition number. -/
theorem conditionNumber_report :
    (report n m kind tolerance l).conditionNumber.isSome = true ↔
      gaussNewtonPoint? kind tolerance l = none := by
  unfold report
  cases gaussNewtonPoint? kind tolerance l <;> simp

/-- There is no Gauss-Newton point exactly if the linear solver refuses the subproblem. -/
theorem gaussNewtonPoint?_eq_none_iff :
    gaussNewtonPoint? kind tolerance l = none ↔ ∃ e, Solver.answer kind l.system tolerance = .error e := by
  unfold gaussNewtonPoint?
  cases Solver.answer kind l.system tolerance <;> simp [Except.toOption]

end DoglegPath

namespace DoglegStepper

open Stepper (Call log problemAtHand isMaxStep predictedReduction)

/-- Does what a caller sees after a step fit together, and fit to the problem at hand? -/
structure Coherent (n m : ℕ) (l : Linearization α) (s : DoglegStepper α) (step : Vec α)
    (regime : Regime) : Prop where
  /-- A failure is reported exactly if the linear solver refuses the subproblem. -/
  failed_iff_refused : s.diagnostics.gaussNewtonFailed = true ↔
    ∃ e, Solver.answer s.settings.solver l.system s.settings.tolerance = .error e
  failed_iff_condition : s.diagnostics.gaussNewtonFailed = true ↔
    s.diagnostics.conditionNumber.isSome = true
  failed_iff_no_point : s.diagnostics.gaussNewtonFailed = true ↔ s.gaussNewtonStep = none
  cauchy_of_failed : s.diagnostics.gaussNewtonFailed = true → regime = .cauchy
  lastRegime : s.lastRegime = some regime
  /-- A Gauss-Newton step is not on the boundary. -/
  inside : regime = .gaussNewton → isMaxStep s = false
  /-- A combined step is. -/
  outside : regime = .combined → isMaxStep s = true
  /-- A step along no gradient is not. -/
  inside_of_zero : regime = .cauchy → s.diagnostics.zeroGradient = true → isMaxStep s = false
  /-- A step along a gradient without curvature is. -/
  outside_of_flat : regime = .cauchy → s.diagnostics.nonPositiveCurvature = true → isMaxStep s = true
  /-- Where there is no gradient, nothing is said about the curvature along it. -/
  exclusive : ¬(s.diagnostics.zeroGradient = true ∧ s.diagnostics.nonPositiveCurvature = true)
  /-- The predicted reduction is what the model of the problem says of the step. -/
  reduction : ∃ d, s.path = some d ∧ d.model = Model.holding n m l ∧
    d.model.predictedReduction step = some (predictedReduction s)

variable {settings : Settings α} {t : Turn α (DoglegStepper α × Vec α) (StepError α) Regime}
  {regime : Regime}

/-- A step with its proper outcome is coherent. -/
theorem coherent_of_lands [Scalar.LawfulOrder α] (hsettings : t.state.1.settings = settings)
    (hl : l.check n m = .ok ()) (hradius : checkRadius radius = .ok ())
    (h : Lands settings n m l radius t) (hok : t.result = .ok regime) :
    Coherent n m l t.state.1 t.state.2 regime := by
  obtain rfl : (landing settings n m l radius).regime = regime := Except.ok.inj (h.result.symm.trans hok)
  have hfailed : t.state.1.diagnostics.gaussNewtonFailed = true ↔
      DoglegPath.gaussNewtonPoint? settings.solver settings.tolerance l = none := by
    rw [h.diagnostics]
    exact DoglegPath.gaussNewtonFailed_report
  have hflag : isMaxStep t.state.1 =
      match (landing settings n m l radius).regime with
      | .cauchy => ((CauchyPoint.along (Model.holding n m l)).stepWithin l.gradient radius).2
      | .gaussNewton => false
      | .combined => true := h.maxStep.trans (DoglegPath.onBoundary_landing _ _ _ _)
  refine
    { failed_iff_refused := ?_
      failed_iff_condition := ?_
      failed_iff_no_point := ?_
      cauchy_of_failed := ?_
      lastRegime := h.lastRegime
      inside := ?_
      outside := ?_
      inside_of_zero := ?_
      outside_of_flat := ?_
      exclusive := ?_
      reduction := ?_ }
  · rw [hfailed, hsettings]
    exact DoglegPath.gaussNewtonPoint?_eq_none_iff
  · rw [hfailed, h.diagnostics]
    exact DoglegPath.conditionNumber_report.symm
  · rw [hfailed, h.gaussNewtonStep]
  · intro hf
    rw [landing, hfailed.1 hf]
    rfl
  · intro hregime
    rw [hflag, hregime]
  · intro hregime
    rw [hflag, hregime]
  · intro hregime hzero
    rw [h.diagnostics] at hzero
    have hgradient : (CauchyPoint.along (Model.holding n m l)).isZeroGradient = true := hzero
    rw [hflag, hregime, CauchyPoint.snd_stepWithin, hgradient]
    rfl
  · intro hregime hflat
    rw [h.diagnostics] at hflat
    rw [hflag, hregime, CauchyPoint.snd_stepWithin, CauchyPoint.norm_along_of_isUnbounded hflat,
      (CauchyPoint.isUnbounded_iff.1 hflat).1, Extended.reaches_of_checkRadius hradius]
    rfl
  · rintro ⟨hzero, hflat⟩
    rw [h.diagnostics] at hzero hflat
    exact Bool.false_ne_true ((CauchyPoint.isUnbounded_iff.1 hflat).1.symm.trans hzero)
  · obtain ⟨d, hd, hmodel⟩ := Option.map_eq_some_iff.1 h.model
    have hsize : (landing settings n m l radius).step.size = n := DoglegPath.size_landing hl
    refine ⟨d, hd, hmodel, ?_⟩
    rw [hmodel, h.step, Model.predictedReduction_of_size (Model.sized_holding hl) hsize]
    exact congrArg some h.reduction.symm

/-- Where `J` takes the gradient to zero, and the gradient is not zero, there is no Gauss-Newton point. -/
theorem gaussNewtonFailed_of_flat {kind : SolverKind} {tolerance : ℝ} {l : Linearization ℝ}
    (hl : l.check n m = .ok ()) (hg : l.gradient.toSpace n ≠ 0)
    (hflat : l.jacobian.toMap m n (l.gradient.toSpace n) = 0) :
    (DoglegPath.report n m kind tolerance l).gaussNewtonFailed = true := by
  rw [DoglegPath.gaussNewtonFailed_report, Option.eq_none_iff_forall_ne_some]
  intro p hp
  exact hg (Matrix.eq_zero_of_toMap (Linearization.hasShape_jacobian hl)
    (DoglegPath.nonsingular_of_gaussNewtonPoint hl hp) hflat)

/-- **What is reported after a step fits together.**  In every arithmetic with lawful comparisons, so also in
double precision, a step that succeeds leaves a coherent state, whatever calls went before.

In exact arithmetic, whatever the gradient is, the model is reported to be flat along it exactly if it does
not vanish and `J` takes it to zero; and then the Gauss-Newton point is reported to be missing. -/
theorem step_coherent :
    (∀ (α : Type) [Scalar α] [Scalar.LawfulOrder α] (settings : Settings α) (calls : List (Call α)) s answers
        radius out t regime,
      Stepper.run (fresh settings) calls = some (s, answers) →
      Stepper.computeStep s radius out = some t → t.result = .ok regime →
      ∃ n m l, problemAtHand (log calls answers) = some l ∧ l.check n m = .ok () ∧
        Coherent n m l t.state.1 t.state.2 regime) ∧
    ∀ (settings : Settings ℝ) (calls : List (Call ℝ)) s answers radius out t regime,
      Stepper.run (fresh settings) calls = some (s, answers) →
      Stepper.computeStep s radius out = some t → t.result = .ok regime →
      ∃ n m l, problemAtHand (log calls answers) = some l ∧ l.check n m = .ok () ∧
        (t.state.1.diagnostics.nonPositiveCurvature = true ↔
          l.gradient.toSpace n ≠ 0 ∧ l.jacobian.toMap m n (l.gradient.toSpace n) = 0) ∧
        (t.state.1.diagnostics.nonPositiveCurvature = true →
          t.state.1.diagnostics.gaussNewtonFailed = true) := by
  constructor
  · intro α _ _ settings calls s answers radius out t regime hrun hstep hok
    have htracks : Tracks settings calls s := carried_tracks.of_run (tracks_fresh settings) hrun
    obtain ⟨t', ht', hafter⟩ := carried_tracks.computeStep htracks radius out
    obtain rfl : t = t' := Option.some.inj (hstep.symm.trans ht')
    obtain ⟨-, -, -, -, hradius, -⟩ := lands_of_ok hrun hstep hok
    obtain ⟨n, m, l, hl, hcheck, hlands⟩ := lands_of_problemAtHand hrun hstep hok
    exact ⟨n, m, l, hl, hcheck, coherent_of_lands hafter.settings_eq hcheck hradius hlands hok⟩
  · intro settings calls s answers radius out t regime hrun hstep hok
    obtain ⟨n, m, l, hl, hcheck, hlands⟩ := lands_of_problemAtHand hrun hstep hok
    have hflat : t.state.1.diagnostics.nonPositiveCurvature = true ↔
        l.gradient.toSpace n ≠ 0 ∧ l.jacobian.toMap m n (l.gradient.toSpace n) = 0 := by
      rw [hlands.diagnostics]
      exact CauchyPoint.isUnbounded_along hcheck
    refine ⟨n, m, l, hl, hcheck, hflat, fun hreport => ?_⟩
    obtain ⟨hg, hJg⟩ := hflat.1 hreport
    rw [hlands.diagnostics]
    exact gaussNewtonFailed_of_flat hcheck hg hJg

/-- A gradient that belongs to no residuals, and along which the model is flat: the step goes along it as far
as the radius, and there is no Gauss-Newton point. -/
theorem step_coherent_of_flat :
    let settings : Settings ℝ := { solver := .qr, tolerance := 0, logLevel := none, logFile := none }
    let flat : Linearization ℝ :=
      { point := Vec.zeros 2
        residuals := Vec.zeros 1
        jacobian := Matrix.tabulate 1 2 fun _ _ => 1
        gradient := Vec.tabulate 2 fun j => 1 - 2 * j
        cost := 0 }
    let calls : List (Call ℝ) := [.init 2 1, .setInputs flat]
    ∃ s answers t regime, Stepper.run (fresh settings) calls = some (s, answers) ∧
      Stepper.computeStep s (6 : ℝ) (Vec.zeros 2) = some t ∧ t.result = .ok regime ∧
      regime = .cauchy ∧ isMaxStep t.state.1 = true ∧
      t.state.1.diagnostics.nonPositiveCurvature = true ∧
      t.state.1.diagnostics.gaussNewtonFailed = true ∧
      t.state.1.diagnostics.conditionNumber.isSome = true := by
  intro settings flat calls
  have hv : settings.validate = .ok () := Settings.validate_of_tolerance le_rfl one_pos rfl
  have hl : flat.check 2 1 = .ok () :=
    Linearization.check_eq_ok_iff.2 ⟨Vec.size_zeros _, Vec.size_zeros _,
      Matrix.hasShape_tabulate _ _ _, Vec.size_tabulate _ _⟩
  have hradius : checkRadius (6 : ℝ) = .ok () := checkRadius_eq_ok_iff.2 (by norm_num)
  have hg : flat.gradient.toSpace 2 ≠ 0 := by
    intro hzero
    have := congrArg (fun p : EuclideanSpace ℝ (Fin 2) => p 0) hzero
    simp [flat, Vec.entry_tabulate] at this
  have hflat : flat.jacobian.toMap 1 2 (flat.gradient.toSpace 2) = 0 := by
    ext i
    simp [flat, Fin.sum_univ_two, Vec.entry_tabulate, Matrix.entry_tabulate]
    norm_num
  obtain ⟨s, answers, hrun, hsize, hproblem⟩ := exists_atHand [] hv two_pos one_pos hl
  obtain ⟨t, hstep, hlands⟩ := exists_step_atHand hrun hsize hproblem hradius (Vec.size_zeros 2)
  obtain ⟨n, m, l, hlast, hcheck, hreport, hfails⟩ :=
    step_coherent.2 _ _ _ _ _ _ _ _ hrun hstep hlands.result
  obtain ⟨_, _, _, -, -, hcoherent⟩ := step_coherent.1 ℝ _ _ _ _ _ _ _ _ hrun hstep hlands.result
  obtain rfl : flat = l := Option.some.inj (hproblem.symm.trans hlast)
  obtain ⟨rfl, rfl⟩ := Linearization.size_eq_of_check hl hcheck
  have hreported := hreport.2 ⟨hg, hflat⟩
  have hfailed := hfails hreported
  have hcauchy := hcoherent.cauchy_of_failed hfailed
  exact ⟨s, answers, t, _, hrun, hstep, hlands.result, hcauchy,
    hcoherent.outside_of_flat hcauchy hreported, hreported, hfailed,
    hcoherent.failed_iff_condition.1 hfailed⟩

end DoglegStepper

end TrustRegion
