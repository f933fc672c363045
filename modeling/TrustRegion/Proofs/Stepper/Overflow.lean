import Mathlib
import TrustRegion.Proofs.Path.Overflow
import TrustRegion.Proofs.Path.OverflowCrossing
import TrustRegion.Proofs.Stepper.Cauchy
import TrustRegion.Proofs.Stepper.Dogleg

/-!
# Steps that overflow

The length of a step is bounded by the radius, but the numbers on the way to it are not: a norm is the root
of a plain sum of squares.  With numbers that overflow, and a gradient of numbers, a step comes out as
follows (**`Stepper.step_of_finite_gradient`**).

* To the Gauss-Newton point: always a vector of numbers that is not longer than the radius.
* Along the gradient: such a vector if the step survives (`CauchyPoint.Survives`); else none of its entries
  is a number.
* Between the two points: none of its entries is a number if the step to the Cauchy point does not survive;
  such a vector if it does and the Gauss-Newton point is far within the range, and only if the Gauss-Newton
  point consists of numbers.

One parameter and a gradient of `10 ^ 200` are enough for a step that is no number
(`CauchyStepper.exists_step_nan`).
-/

namespace TrustRegion

open Overflowing

/-! ## Landings -/

namespace DoglegPath

/-- What becomes of a landing when numbers overflow. -/
structure Overflows (c : CauchyPoint Overflowing) (p? : Option (Vec Overflowing)) (r : ℝ)
    (regime : Regime) (h : Vec Overflowing) : Prop where
  /-- A step to the Gauss-Newton point consists of numbers and is not longer than the radius. -/
  gaussNewton : regime = .gaussNewton → h.Within r
  /-- So does a step along the gradient, if it survives. -/
  cauchy : regime = .cauchy → c.Survives r → h.Within r
  /-- And so does a step between the points, if the Gauss-Newton point is also far within the range. -/
  combined : regime = .combined → c.Survives r → (∃ p, p? = some p ∧ p.FarInRange r) → h.Within r
  /-- A step between the points consists of numbers only if the Gauss-Newton point does. -/
  finite : regime = .combined → h.Finite → ∃ p, p? = some p ∧ p.Finite
  /-- Unless the step is the Gauss-Newton point or the one along the gradient survives, none of the entries
  is a number. -/
  lost : regime ≠ .gaussNewton → ¬c.Survives r → h.Lost

/-- No number on the second leg comes from an end that is none. -/
theorem finite_of_crossingPoint {v p : Vec Overflowing} {a : Overflowing} (hsize : p.size = v.size)
    (h : (crossingPoint v p a).Finite) : p.Finite := by
  intro i hi
  have hi' : i < v.size := hsize ▸ hi
  obtain ⟨z, hz, hentry⟩ := h i (by simpa [crossingPoint] using hi')
  rw [crossingPoint, Vec.entry_tabulate _ hi'] at hentry
  obtain ⟨-, w, -, hw, -, hway, -⟩ := numbers_of_add hentry
  obtain ⟨-, u, -, hu, -, hdifference, -⟩ := numbers_of_mul hway
  obtain ⟨x, -, hx, -, hend, -⟩ := numbers_of_add (show p.entry i + -v.entry i = _ from hdifference)
  exact ⟨x, hx, hend⟩

variable {q : Model Overflowing} {g : Vec ℝ} {r : ℝ} {p : Vec Overflowing}
  (hq : q.gradient = g.overflowing) (hg : g.InRange) (hr : 0 < r) (hrl : |r| ≤ largest)

include hq hg hr hrl

theorem overflows_cauchy (p? : Option (Vec Overflowing)) :
    Overflows (.along q) p? r .cauchy
      ((CauchyPoint.along q).stepWithin g.overflowing (ofReal r)).1 where
  gaussNewton h := by cases h
  cauchy _ hc := (CauchyPoint.exists_isStep hq hg hr hrl hc).elim fun _ hk => hk.within
  combined h := by cases h
  finite h := by cases h
  lost _ hc := CauchyPoint.lost_of_not_survives hq hg hrl hc

/-- The start of the second leg is no number, or an exact vector inside the ball. -/
theorem overflows_combined (hsize : p.size = g.size) (hfar : ¬p.norm ≤ ofReal r)
    (hreach : (CauchyPoint.along q).norm.reaches (ofReal r) = false) :
    Overflows (.along q) (some p) r .combined
      (crossingPoint ((CauchyPoint.along q).stepWithin g.overflowing (ofReal r)).1 p (ofReal r)) where
  gaussNewton h := by cases h
  cauchy h := by cases h
  combined := by
    rintro - hc ⟨_, ⟨⟩, y, rfl, hle, hunit⟩
    obtain ⟨k, hk⟩ := CauchyPoint.exists_isStep hq hg hr hrl hc
    rw [Vec.size_overflowing] at hsize
    rw [Vec.norm_overflowing_of_le hle, ofReal_le_ofReal (Vec.abs_norm_le hle) hrl, not_le] at hfar
    rw [hk.step]
    exact within_crossingPoint ⟨hk.size.trans hsize.symm, hk.norm_lt hreach, hfar, hle,
      by simpa using hunit⟩
  finite _ h := ⟨p, rfl, finite_of_crossingPoint (by simpa using hsize) h⟩
  lost := by
    intro _ hc i hi x hx
    have hi' : i < g.size := by simpa [crossingPoint] using hi
    unfold crossingPoint
    rw [Vec.entry_tabulate _ (by simpa using hi'),
      CauchyPoint.entry_of_not_survives hq hg hc hreach hi', nan_add]
    exact fun h => by cases h

/-- **The landing when numbers overflow.** -/
theorem overflows_landing {p? : Option (Vec Overflowing)}
    (hsize : ∀ p, p? = some p → p.size = g.size) :
    Overflows (.along q) p? r (landing (.along q) g.overflowing p? (ofReal r)).regime
      (landing (.along q) g.overflowing p? (ofReal r)).step := by
  unfold landing
  cases p? with
  | none => exact overflows_cauchy hq hg hr hrl none
  | some p =>
      by_cases hin : p.norm ≤ ofReal r
      · simp only [if_pos hin]
        exact ⟨fun _ => Vec.within_of_norm_le hrl hin, fun h => (by cases h), fun h => (by cases h),
          fun h => (by cases h), fun h => absurd rfl h⟩
      simp only [if_neg hin]
      cases hreach : (CauchyPoint.along q).norm.reaches (ofReal r) with
      | true => exact overflows_cauchy hq hg hr hrl (some p)
      | false => exact overflows_combined hq hg hr hrl (hsize p rfl) hin hreach

end DoglegPath

/-! ## Both solvers -/

namespace Stepper

/-- **Steps that overflow.**  After any calls to either step solver, a step that succeeds, for a problem whose
gradient consists of numbers, has the size of the problem and is for a radius that is a positive number.
The solver that goes along the gradient gives numbers within the radius (`Vec.Within.entry_le`) if the step
survives, and no number at all if it does not; the one that follows the dogleg path gives them as
`DoglegPath.Overflows` says. -/
theorem step_of_finite_gradient (calls : List (Call Overflowing)) (radius : Overflowing)
    (out : Vec Overflowing) (hfinite : ∀ l, lastInputs calls = some l → l.gradient.Finite) :
    (∀ (s : CauchyStepper Overflowing)
        (answers : List (Answered Overflowing (CauchyStepper Overflowing)))
        (t : Turn Overflowing (CauchyStepper Overflowing × Vec Overflowing) (StepError Overflowing) Regime)
        (regime : Regime),
      run (CauchyStepper.fresh : CauchyStepper Overflowing) calls = some (s, answers) →
      computeStep s radius out = some t → t.result = .ok regime →
      ∃ n m l r, lastInputs calls = some l ∧ l.check n m = .ok () ∧ 0 < n ∧ t.state.2.size = n ∧
        radius = ofReal r ∧ |r| ≤ largest ∧ 0 < r ∧
        ((CauchyPoint.along (Model.holding n m l)).Survives r → t.state.2.Within r) ∧
        (¬(CauchyPoint.along (Model.holding n m l)).Survives r → t.state.2.Lost)) ∧
    ∀ (settings : Settings Overflowing) (s : DoglegStepper Overflowing)
        (answers : List (Answered Overflowing (DoglegStepper Overflowing)))
        (t : Turn Overflowing (DoglegStepper Overflowing × Vec Overflowing) (StepError Overflowing) Regime)
        (regime : Regime),
      run (DoglegStepper.fresh settings) calls = some (s, answers) →
      computeStep s radius out = some t → t.result = .ok regime →
      ∃ n m l r, lastInputs calls = some l ∧ l.check n m = .ok () ∧ 0 < n ∧ t.state.2.size = n ∧
        radius = ofReal r ∧ |r| ≤ largest ∧ 0 < r ∧
        DoglegPath.Overflows (CauchyPoint.along (Model.holding n m l)) t.state.1.gaussNewtonStep r regime
          t.state.2 := by
  constructor
  · intro s answers t regime hrun hstep hok
    obtain ⟨n, m, l, hradius, hinputs, hl, hn, -, -, h⟩ := CauchyStepper.lands_of_ok hrun hstep hok
    obtain ⟨r, hrl, hr, rfl⟩ := exists_of_checkRadius hradius
    obtain ⟨g, hg, hin⟩ := Vec.exists_overflowing (hfinite l hinputs)
    have hsize : t.state.2.size = n := by
      rw [h.step]
      exact CauchyPoint.size_stepWithin_of_check hl _ _
    refine ⟨n, m, l, r, hinputs, hl, hn, hsize, rfl, hrl, hr, ?_⟩
    rw [h.step, hg]
    exact ⟨fun hc => (CauchyPoint.exists_isStep hg hin hr hrl hc).elim fun _ hk => hk.within,
      CauchyPoint.lost_of_not_survives hg hin hrl⟩
  · intro settings s answers t regime hrun hstep hok
    obtain ⟨n, m, l, -, hradius, -, hinputs, hl, hn, -, -, h⟩ :=
      DoglegStepper.lands_of_ok hrun hstep hok
    obtain ⟨r, hrl, hr, rfl⟩ := exists_of_checkRadius hradius
    obtain ⟨g, hg, hin⟩ := Vec.exists_overflowing (hfinite l hinputs)
    have hsize : t.state.2.size = n := by
      rw [h.step]
      exact DoglegPath.size_landing hl
    have hregime : regime = (DoglegStepper.landing settings n m l (ofReal r)).regime :=
      Except.ok.inj (hok.symm.trans h.result)
    refine ⟨n, m, l, r, hinputs, hl, hn, hsize, rfl, hrl, hr, ?_⟩
    rw [hregime, h.step, h.gaussNewtonStep, DoglegStepper.landing, hg]
    refine DoglegPath.overflows_landing hg hin hr hrl fun p hp => ?_
    rw [DoglegPath.size_gaussNewtonPoint? hl hp, ← Linearization.size_gradient hl, hg,
      Vec.size_overflowing]

end Stepper

/-! ## One parameter -/

/-- The problem with the Jacobian `1` and the residual `c`. -/
noncomputable def Linearization.single (c : ℝ) : Linearization Overflowing :=
  .ofResiduals (Matrix.tabulate 1 1 fun _ _ => 1) (Vec.tabulate 1 fun _ => ofReal c)

namespace Linearization

variable {c : ℝ}

theorem check_single (c : ℝ) : (single c).check 1 1 = .ok () := check_ofResiduals (Vec.size_tabulate 1 _)

theorem column_jacobian_single (c : ℝ) :
    (single c).jacobian.column 0 = (Vec.tabulate 1 fun _ => 1 : Vec ℝ).overflowing := by
  rw [Vec.overflowing_tabulate]
  exact Matrix.column_tabulate _ one_pos

theorem residuals_single (c : ℝ) :
    (single c).residuals = (Vec.tabulate 1 fun _ => c : Vec ℝ).overflowing :=
  (Vec.overflowing_tabulate 1 fun _ => c).symm

/-- The inner product with the one column is the one entry. -/
theorem inner_single (hc : |c| ≤ largest) :
    (Vec.tabulate 1 fun _ => 1 : Vec ℝ).overflowing.inner (Vec.tabulate 1 fun _ => c : Vec ℝ).overflowing =
      ofReal c := by
  have h0 := abs_zero_le_largest
  have h1 := abs_one_le_largest
  rw [Vec.inner, Vec.size_overflowing, Vec.size_tabulate, Scalar.sum_succ, Scalar.sum_zero,
    Vec.entry_overflowing, Vec.entry_overflowing, Vec.entry_tabulate _ one_pos,
    Vec.entry_tabulate _ one_pos, ofReal_mul h1 hc, one_mul, ← ofReal_zero, ofReal_add h0 hc, zero_add]

theorem gradient_single (hc : |c| ≤ largest) :
    (single c).gradient = (Vec.tabulate 1 fun _ => c : Vec ℝ).overflowing := by
  have hentry : ∀ j < 1, ((single c).jacobian.column j).inner (single c).residuals = ofReal c := by
    intro j hj
    obtain rfl : j = 0 := by omega
    rw [column_jacobian_single, residuals_single, inner_single hc]
  rw [Vec.overflowing_tabulate, ← Vec.tabulate_congr hentry]
  rfl

/-- The Hessian is the unit matrix. -/
theorem column_hessian_single (c : ℝ) :
    (single c).jacobian.gram.column 0 = (Vec.tabulate 1 fun _ => 1 : Vec ℝ).overflowing := by
  have h1 := abs_one_le_largest
  have hentry : ∀ i < 1, ((single c).jacobian.column i).inner ((single c).jacobian.column 0) =
      ofReal 1 := by
    intro i hi
    obtain rfl : i = 0 := by omega
    rw [column_jacobian_single, inner_single h1]
  rw [Vec.overflowing_tabulate, ← Vec.tabulate_congr hentry]
  exact Matrix.column_tabulate _ one_pos

/-- The curvature along the gradient is its square. -/
theorem curvatureAt_single (hc : |c| ≤ largest) :
    (Model.holding 1 1 (single c)).curvatureAt (single c).gradient = ofReal (c * c) := by
  have h0 := abs_zero_le_largest
  have hcolumn : (Model.holding 1 1 (single c)).hessian.column 0 =
      (Vec.tabulate 1 fun _ => 1 : Vec ℝ).overflowing := column_hessian_single c
  rw [Model.curvatureAt, gradient_single hc, Vec.size_overflowing, Vec.size_tabulate,
    Scalar.sumFrom_succ, Scalar.sumFrom_zero, hcolumn, inner_single hc, Vec.entry_overflowing,
    Vec.entry_tabulate _ one_pos, ofReal_mul hc hc, ← ofReal_zero, neg_ofReal, neg_zero,
    ofReal_add_of_nonneg le_rfl (mul_self_nonneg c), zero_add]

end Linearization

/-- The square of the one entry. -/
theorem Vec.normSq_single (c : ℝ) : (Vec.tabulate 1 fun _ => c : Vec ℝ).normSq = c * c := by
  rw [normSq, inner_eq_sum, size_tabulate, Finset.sum_range_one, entry_tabulate _ one_pos]

theorem Vec.norm_single (c : ℝ) : (Vec.tabulate 1 fun _ => c : Vec ℝ).norm = |c| := by
  rw [norm, normSq_single, Scalar.sqrt_eq, Real.sqrt_mul_self_eq_abs]

/-- With a gradient of one every radius up to one is served. -/
theorem CauchyPoint.survives_single {n m : ℕ} {r : ℝ} (hl : (Linearization.single 1).check n m = .ok ())
    (hr : r ≤ 1) : (along (Model.holding n m (.single 1))).Survives r := by
  have hlargest := four_le_largest
  obtain ⟨rfl, rfl⟩ := Linearization.size_eq_of_check hl (Linearization.check_single 1)
  have h1 := abs_one_le_largest
  refine survives_of_le (Linearization.gradient_single h1) ?_ fun _ _ => ?_
  · rw [Vec.normSq_single]
    linarith
  · rw [Vec.norm_single, abs_one]
    linarith

namespace Stepper

/-- With a gradient of one both solvers give numbers within a radius of one, where the step is not one
between the two points. -/
theorem step_of_finite_gradient_single :
    let settings : Settings Overflowing :=
      { solver := .lu, tolerance := 0, logLevel := none, logFile := none }
    let calls : List (Call Overflowing) := [.init 1 1, .setInputs (.single 1)]
    (∃ s answers t regime,
      run (CauchyStepper.fresh : CauchyStepper Overflowing) calls = some (s, answers) ∧
      computeStep s (ofReal 1) (Vec.zeros 1) = some t ∧ t.result = .ok regime ∧
      t.state.2.Within 1) ∧
    ∃ s answers t regime, run (DoglegStepper.fresh settings) calls = some (s, answers) ∧
      computeStep s (ofReal 1) (Vec.zeros 1) = some t ∧ t.result = .ok regime ∧
      (regime ≠ .combined → t.state.2.Within 1) := by
  intro settings calls
  have h0 := abs_zero_le_largest
  have h1 := abs_one_le_largest
  have hradius : checkRadius (ofReal 1) = .ok () := checkRadius_ofReal h1 one_pos
  have htolerance : Settings.ToleranceInRange (0 : Overflowing) :=
    ⟨(ofReal_le_ofReal h0 h0).2 le_rfl, (ofReal_lt_ofReal h0 h1).2 zero_lt_one⟩
  have hv : settings.validate = .ok () := if_pos htolerance
  have hfinite : ∀ l, lastInputs calls = some l → l.gradient.Finite := by
    intro l hinputs
    cases hinputs
    show (Linearization.single 1).gradient.Finite
    rw [Linearization.gradient_single h1]
    refine Vec.finite_overflowing (Vec.inRange_of_norm ?_)
    rwa [Vec.norm_single]
  constructor
  · obtain ⟨s, answers, t, hrun, hstep, hlands⟩ :=
      CauchyStepper.exists_step [] one_pos one_pos (Linearization.check_single 1) hradius
        (Vec.size_zeros 1)
    obtain ⟨n, m, l, r, hinputs, hl, -, -, hr, hrl, -, hwithin, -⟩ :=
      (step_of_finite_gradient calls (ofReal 1) (Vec.zeros 1) hfinite).1 _ _ _ _ hrun hstep
        hlands.result
    cases hinputs
    obtain rfl := ofReal_inj_of_le hrl hr
    exact ⟨s, answers, t, _, hrun, hstep, hlands.result,
      hwithin (CauchyPoint.survives_single hl le_rfl)⟩
  · obtain ⟨s, answers, t, hrun, hstep, hlands⟩ :=
      DoglegStepper.exists_step [] hv one_pos one_pos (Linearization.check_single 1) hradius
        (Vec.size_zeros 1)
    obtain ⟨n, m, l, r, hinputs, hl, -, -, hr, hrl, -, h⟩ :=
      (step_of_finite_gradient calls (ofReal 1) (Vec.zeros 1) hfinite).2 _ _ _ _ _ hrun hstep
        hlands.result
    cases hinputs
    obtain rfl := ofReal_inj_of_le hrl hr
    refine ⟨s, answers, t, _, hrun, hstep, hlands.result, fun hregime => ?_⟩
    cases hcase : (DoglegStepper.landing settings 1 1 (.single 1) (ofReal 1)).regime with
    | gaussNewton => exact h.gaussNewton hcase
    | cauchy => exact h.cauchy hcase (CauchyPoint.survives_single hl le_rfl)
    | combined => exact absurd hcase hregime

end Stepper

/-! ## A gradient that is too large -/

/-- A number within the range whose square is not. -/
theorem largest_lt_sq : ((10 ^ 200 : ℕ) : ℝ) ≤ largest ∧
    largest < ((10 ^ 200 : ℕ) : ℝ) * ((10 ^ 200 : ℕ) : ℝ) := by
  have hle : 10 ^ 200 ≤ (2 ^ 53 - 1) * 2 ^ 971 := by decide +kernel
  have hlt : (2 ^ 53 - 1) * 2 ^ 971 < 10 ^ 200 * 10 ^ 200 := by decide +kernel
  exact ⟨Nat.cast_le.2 hle, (Nat.cast_lt.2 hlt).trans_eq (Nat.cast_mul _ _)⟩

/-- **A step that is no number, from finite inputs.**  The norm of the gradient and the curvature along it
are both infinite. -/
theorem CauchyStepper.exists_step_nan :
    let l : Linearization Overflowing := .single ((10 ^ 200 : ℕ) : ℝ)
    l.residuals.Finite ∧ l.gradient.Finite ∧ (l.jacobian.column 0).Finite ∧
      (l.jacobian.gram.column 0).Finite ∧ l.check 1 1 = .ok () ∧
      ∃ s answers t,
        Stepper.run (fresh : CauchyStepper Overflowing) [.init 1 1, .setInputs l] = some (s, answers) ∧
        s.computeStep (ofReal 1) (Vec.zeros 1) = some t ∧ t.result = .ok .cauchy ∧
        t.state.2.entry 0 = nan := by
  obtain ⟨hle, hlt⟩ := largest_lt_sq
  have hnonneg : (0 : ℝ) ≤ ((10 ^ 200 : ℕ) : ℝ) := Nat.cast_nonneg _
  generalize ((10 ^ 200 : ℕ) : ℝ) = c at hle hlt hnonneg
  intro l
  have h1 := abs_one_le_largest
  have hc : |c| ≤ largest := (abs_of_nonneg hnonneg).trans_le hle
  have hcIn : (Vec.tabulate 1 fun _ => c : Vec ℝ).InRange :=
    Vec.inRange_of_norm (by rwa [Vec.norm_single])
  have hgradient : l.gradient = (Vec.tabulate 1 fun _ => c : Vec ℝ).overflowing :=
    Linearization.gradient_single hc
  have hfinite := Vec.finite_overflowing hcIn
  have hunit : (Vec.tabulate 1 fun _ => 1 : Vec ℝ).overflowing.Finite :=
    Vec.finite_overflowing (Vec.inRange_of_norm (by rwa [Vec.norm_single]))
  have hcurvature : (Model.holding 1 1 l).curvatureAt l.gradient = infinite false := by
    rw [Linearization.curvatureAt_single hc, ofReal_of_gt hlt]
  obtain ⟨s, answers, t, hrun, hstep, hlands⟩ :=
    exists_step [] one_pos one_pos (Linearization.check_single c) (checkRadius_ofReal h1 one_pos)
      (Vec.size_zeros 1)
  refine ⟨?_, ?_, ?_, ?_, Linearization.check_single c, s, answers, t, hrun, hstep, hlands.result, ?_⟩
  · rwa [Linearization.residuals_single]
  · rwa [hgradient]
  · rwa [Linearization.column_jacobian_single]
  · rwa [Linearization.column_hessian_single]
  · rw [hlands.step, show (Linearization.single c).gradient = _ from hgradient]
    exact CauchyPoint.entry_of_gt hgradient hcIn (by rwa [Vec.normSq_single]) hcurvature (by simp)

/-- The same with rounded numbers. -/
example :
    let problem : Linearization Float :=
      .ofResiduals (Matrix.tabulate 1 1 fun _ _ => 1) (Vec.tabulate 1 fun _ => 1e200)
    ((Stepper.run (CauchyStepper.fresh : CauchyStepper Float) [.init 1 1, .setInputs problem]).bind
      fun (s, _) => s.computeStep 1 (Vec.zeros 1)).map (fun t => t.state.2.toList.map Scalar.isNaN) =
        some [true] := by
  decide +kernel

end TrustRegion
