import Mathlib
import TrustRegion.Proofs.Solver.Rank
import TrustRegion.Proofs.Stepper.Optimality

/-!
# What a solver solves

The three linear solvers read different parts of a subproblem.  `Solver.Solution` says for each kind
which problem a step has to solve: a system of equations with a matrix that is positive definite, a
system with a matrix that is nonsingular, or a least-squares problem.  In exact arithmetic every step
that is reported as a success does so (`Solver.solution_of_answer`).

For the subproblem of a staged problem whose gradient belongs to its residuals, the three problems have
the same solution, the one point where the model is least (`Solver.isOnlyMinimiser_of_answer`).

Both are put together in **`Solver.ok_solves`**.
-/

namespace TrustRegion

open Finset
open scoped RealInnerProductSpace

variable {e : NormalEquations ℝ} {n m size : ℕ} {tolerance : ℝ} {p : Vec ℝ} {kind : SolverKind}

/-! ## Least squares -/

section LeastSquares

variable {E F : Type*} [NormedAddCommGroup E] [NormedAddCommGroup F] [InnerProductSpace ℝ E]
  [InnerProductSpace ℝ F] {J : E →ₗ[ℝ] F} {r : F} {x y : E}

/-- Where the residual is orthogonal to all columns, it is the shortest. -/
theorem norm_residual_lt (horth : ∀ v, ⟪J v, J x + r⟫ = 0) (hinj : ∀ v, J v = 0 → v = 0)
    (hne : y ≠ x) : ‖J x + r‖ < ‖J y + r‖ := by
  have hsplit : J y + r = J (y - x) + (J x + r) := by rw [map_sub]; abel
  have hlong : 0 < ‖J (y - x)‖ :=
    norm_pos_iff.2 fun hzero => hne (sub_eq_zero.1 (hinj _ hzero))
  refine (sq_lt_sq₀ (norm_nonneg _) (norm_nonneg _)).1 ?_
  have hlong' := pow_pos hlong 2
  rw [hsplit, norm_add_sq_real (J (y - x)), horth]
  linarith

/-- With independent columns the model is least at its stationary point only. -/
theorem IsStationary.fall_lt {g : E} (hx : IsStationary J g x) (hinj : ∀ v, J v = 0 → v = 0)
    (hne : y ≠ x) : fall J g y < fall J g x := by
  have hlong : 0 < ‖J (y - x)‖ :=
    norm_pos_iff.2 fun hzero => hne (sub_eq_zero.1 (hinj _ hzero))
  rw [hx.fall_eq]
  exact sub_lt_self _ (half_pos (pow_pos hlong 2))

end LeastSquares

/-! ## Each kind of solver -/

namespace NormalEquations

/-- What remains of the residuals of the linearised problem after a step. -/
noncomputable def residualAt (e : NormalEquations ℝ) (x : EuclideanSpace ℝ (Fin e.unknowns)) :
    EuclideanSpace ℝ (Fin e.jacobian.rows) :=
  e.jacobian.toMap e.jacobian.rows e.unknowns x + e.residuals.toSpace e.jacobian.rows

/-- Does the step leave a residual that is orthogonal to all columns of the Jacobian, and shorter than
that of any other step? -/
structure LeastSquares (e : NormalEquations ℝ) (p : Vec ℝ) : Prop where
  /-- `Jᵀ (J p + r) = 0`. -/
  orthogonal : ∀ j < e.unknowns,
    ⟪(e.jacobian.column j).toSpace e.jacobian.rows, e.residualAt (p.toSpace e.unknowns)⟫ = 0
  /-- No other step does as well. -/
  shortest : ∀ x, x ≠ p.toSpace e.unknowns →
    ‖e.residualAt (p.toSpace e.unknowns)‖ < ‖e.residualAt x‖

end NormalEquations

theorem CholeskySolver.positive_of_answer (hfits : e.Fits size) (h : answer e tolerance = .ok p) :
    Positive e.unknowns (Cholesky.symmetric e.hessian) := by
  obtain ⟨L, hL, -⟩ := (exists_answer_iff hfits).1 ⟨p, h⟩
  exact (Cholesky.factored_of_factor hfits.1 hL).positive_symmetric

/-- The inner products of a column with an image are a row of `AᵀA`. -/
theorem Matrix.inner_column_toMap {A : Matrix ℝ} (hA : A.HasShape m n) {j : ℕ} (hj : j < n)
    (x : Vec ℝ) :
    ⟪(A.column j).toSpace m, A.toMap m n (x.toSpace n)⟫ =
      ∑ k ∈ range n, A.gram.entry j k * x.entry k := by
  have hcolumn : (A.column j).toSpace m = A.toMap m n (EuclideanSpace.single ⟨j, hj⟩ 1) := by
    ext i
    simp [Matrix.entry]
  rw [hcolumn, real_inner_comm, inner_toMap hA, ← Fin.sum_univ_eq_sum_range]
  simp

theorem QrSolver.leastSquares_of_answer (hfits : e.Fits size) (h : answer e tolerance = .ok p) :
    e.LeastSquares p := by
  have hJ : e.jacobian.HasShape e.jacobian.rows e.unknowns := ⟨rfl, rfl⟩
  obtain ⟨hsolves, hns⟩ := solves_of_answer hfits h
  have horth : ∀ j < e.unknowns, ⟪(e.jacobian.column j).toSpace e.jacobian.rows,
      e.residualAt (p.toSpace e.unknowns)⟫ = 0 := fun j hj => by
    rw [NormalEquations.residualAt, inner_add_right, Matrix.inner_column_toMap hJ hj, hsolves j hj,
      ← Vec.inner_eq (Matrix.size_column _ _)]
    exact neg_add_cancel _
  refine ⟨horth, fun x hne => norm_residual_lt (fun v => ?_)
    (fun v => Matrix.eq_zero_of_toMap hJ hns) hne⟩
  rw [Matrix.toMap_eq_sum, sum_inner]
  exact sum_eq_zero fun j _ => by
    rw [inner_smul_left]
    exact mul_eq_zero_of_right _ (horth j j.isLt)

namespace Solver

/-- Is the step a solution of the problem that a solver of the given kind is for? -/
def Solution (kind : SolverKind) (e : NormalEquations ℝ) (p : Vec ℝ) : Prop :=
  match kind with
  | .cholesky =>
    Solves e.unknowns (Cholesky.symmetric e.hessian) p.entry (fun i => -e.gradient.entry i) ∧
      Positive e.unknowns (Cholesky.symmetric e.hessian)
  | .lu =>
    Solves e.unknowns e.hessian.entry p.entry (fun i => -e.gradient.entry i) ∧
      Nonsingular e.unknowns e.hessian.entry
  | .qr => e.LeastSquares p

/-- **Each solver solves its problem.** -/
theorem solution_of_answer (hfits : e.Fits size) (h : answer kind e tolerance = .ok p) :
    Solution kind e p := by
  cases kind with
  | cholesky =>
      exact ⟨(CholeskySolver.solves_of_answer hfits h).1, CholeskySolver.positive_of_answer hfits h⟩
  | lu => exact LuSolver.solves_of_answer hfits h
  | qr => exact QrSolver.leastSquares_of_answer hfits h

end Solver

/-! ## The minimiser of the model -/

/-- Is the model less at this step than at any other? -/
def Model.IsOnlyMinimiser (q : Model ℝ) (p : Vec ℝ) : Prop :=
  p.size = q.n ∧ ∃ v, q.value p = some v ∧
    ∀ x : Vec ℝ, x.size = q.n → x ≠ p → ∃ w, q.value x = some w ∧ v < w

theorem Model.IsOnlyMinimiser.eq {q : Model ℝ} {p' : Vec ℝ} (hp : q.IsOnlyMinimiser p)
    (hp' : q.IsOnlyMinimiser p') : p = p' := by
  obtain ⟨hsize, v, hv, hleast⟩ := hp
  obtain ⟨hsize', v', hv', hleast'⟩ := hp'
  by_contra hne
  obtain ⟨w, hw, hlt⟩ := hleast p' hsize' (Ne.symm hne)
  obtain ⟨w', hw', hlt'⟩ := hleast' p hsize hne
  cases hv'.symm.trans hw
  cases hv.symm.trans hw'
  exact lt_asymm hlt hlt'

namespace Solver

variable {l : Linearization ℝ}

/-- **The model is least at the answer of a solver, whatever its kind.** -/
theorem isOnlyMinimiser_of_answer (hl : l.check n m = .ok ()) (hg : l.Consistent)
    (h : answer kind l.system tolerance = .ok p) : (Model.holding n m l).IsOnlyMinimiser p := by
  have hpoint := DoglegPath.gaussNewtonPoint?_eq_some_iff.2 h
  have hstat := DoglegPath.stationary_gaussNewtonPoint hl (fun _ => hg) hpoint
  have hsize : p.size = n := DoglegPath.size_gaussNewtonPoint? hl hpoint
  refine ⟨hsize, _, Model.value_holding hl hsize, fun x hx hne =>
    ⟨_, Model.value_holding hl hx, sub_lt_sub_left (hstat.fall_lt ?_ ?_) _⟩⟩
  · exact fun v => DoglegPath.injective_of_gaussNewtonPoint hl (fun _ => hg) hpoint
  · exact fun hsame => hne ((Vec.toSpace_inj hx hsize).1 hsame)

/-- **What is reported as a success is a solution.**  A solver given a subproblem whose parts fit answers,
and if it reports a success, the step solves the problem that a solver of its kind is for: the equations
of the lower triangle of the Hessian, which is positive definite; the equations of the Hessian as it
stands, which is nonsingular; or the least-squares problem of Jacobian and residuals, whatever Hessian
and gradient are.

If the subproblem is that of a model in which a problem was put whose gradient belongs to its residuals,
the step is the one at which the model is least, and every other success of a solver of any kind, with
any tolerance, gives the same step. -/
theorem ok_solves :
    (∀ (s : Solver ℝ) (e : NormalEquations ℝ) (tolerance : ℝ) (step : Vec ℝ), e.Fits step.size →
      ∃ a, s.solve e tolerance step = some a ∧
        (a.verdict = .ok () → a.step.size = e.unknowns ∧ Solution s.kind e a.step)) ∧
    ∀ (q : Model ℝ) (l : Linearization ℝ) (t : Turn ℝ (Model ℝ) (StepError ℝ) Unit), q.Sized →
      q.stage l = some t → t.result = .ok () → l.Consistent →
      ∀ (s : Solver ℝ) (tolerance : ℝ) (step : Vec ℝ), step.size = q.n →
      ∃ a, s.solve (GaussNewton.system t.state) tolerance step = some a ∧
        (a.verdict = .ok () → t.state.IsOnlyMinimiser a.step ∧
          ∀ (s' : Solver ℝ) (tolerance' : ℝ) (step' : Vec ℝ) (a' : Attempt ℝ (Solver ℝ)),
            s'.solve (GaussNewton.system t.state) tolerance' step' = some a' →
            a'.verdict = .ok () → a'.step = a.step) := by
  constructor
  · intro s e tolerance step hfits
    obtain ⟨a, ha, -, -, hsize, -⟩ := s.solve_answer tolerance hfits
    exact ⟨a, ha, fun hv => ⟨hsize, solution_of_answer hfits (answer_of_ok ha hv)⟩⟩
  · intro q l t hq hstage hok hg s tolerance step hs
    obtain ⟨hl, hstate⟩ := Model.state_of_stage_ok hq hstage hok
    rw [hstate]
    have hleast : ∀ {s : Solver ℝ} {tolerance : ℝ} {step : Vec ℝ} {a : Attempt ℝ (Solver ℝ)},
        s.solve l.system tolerance step = some a → a.verdict = .ok () →
        (Model.holding q.n q.m l).IsOnlyMinimiser a.step := fun ha hv =>
      isOnlyMinimiser_of_answer hl hg (answer_of_ok ha hv)
    obtain ⟨a, ha, -⟩ := s.solve_answer tolerance
      (GaussNewton.fits_system (Model.sized_holding hl) hs)
    exact ⟨a, ha, fun hv => ⟨hleast ha hv, fun s' tolerance' step' a' ha' hv' =>
      (hleast ha' hv').eq (hleast ha hv)⟩⟩

/-- Three residuals, for solvers of all kinds with the tolerance zero. -/
theorem ok_solves_of_residuals :
    let J : Matrix ℝ := .tabulate 3 2 fun i j => if i = j then 3 else if j = 0 then 0 else 1000
    let l : Linearization ℝ := .ofResiduals J (Vec.tabulate 3 fun i => 1 - i)
    ∃ q t, Model.ofSize 2 3 = .ok q ∧ q.Sized ∧ q.stage l = some t ∧ t.result = .ok () ∧
      l.Consistent ∧ (GaussNewton.system t.state).Fits (Vec.zeros 2 : Vec ℝ).size ∧
      ∀ kind, ∃ a, (ofKind kind 2 3).solve (GaussNewton.system t.state) 0 (Vec.zeros 2) = some a ∧
        a.verdict = .ok () ∧ Solution kind (GaussNewton.system t.state) a.step ∧
        t.state.IsOnlyMinimiser a.step := by
  intro J l
  have hr : (Vec.tabulate 3 fun i => 1 - (i : ℝ)).size = J.rows := Vec.size_tabulate 3 _
  have hJ : J.HasShape 3 2 := Matrix.hasShape_tabulate 3 2 _
  have hg : l.Consistent := Linearization.transposeMul_ofResiduals hr
  have hl : l.check 2 3 = .ok () := by
    have hcheck := Linearization.check_ofResiduals hr
    rwa [hJ.1, hJ.2] at hcheck
  have hns : Nonsingular 2 J.gram.entry := by
    refine Matrix.nonsingular_gram_of_upper hJ (by norm_num) (fun i hi j hj hji => ?_) fun i hi => ?_
    · rw [Matrix.entry_tabulate _ (by omega) hj, if_neg (by omega), if_pos (by omega)]
    · rw [Matrix.entry_tabulate _ (by omega) hi, if_pos rfl]
      norm_num
  obtain ⟨q, hq⟩ := Model.exists_ofSize (α := ℝ) two_pos three_pos
  obtain ⟨hsized, hn, hm, -⟩ := Model.sized_ofSize hq
  rw [← hn, ← hm] at hl
  obtain ⟨events, hstage⟩ := Model.stage_of_check_ok hsized hl
  have hs : (Vec.zeros 2 : Vec ℝ).size = q.n := (Vec.size_zeros 2).trans hn.symm
  have hfits : l.system.Fits (Vec.zeros 2 : Vec ℝ).size :=
    GaussNewton.fits_system (Model.sized_holding hl) hs
  refine ⟨q, _, hq, hsized, hstage, rfl, hg, hfits, fun kind => ?_⟩
  obtain ⟨b, hb, hv⟩ := DoglegPath.exists_ok_solve hl (hn ▸ hns) (ofKind kind 2 3) hs
  obtain ⟨a, ha, hsolves⟩ := ok_solves.1 (ofKind kind 2 3) l.system 0 (Vec.zeros 2) hfits
  obtain ⟨a', ha', hleast⟩ := ok_solves.2 q l _ hsized hstage rfl hg (ofKind kind 2 3) 0 _ hs
  obtain rfl : b = a := Option.some.inj (hb.symm.trans ha)
  obtain rfl : b = a' := Option.some.inj (hb.symm.trans ha')
  have hsolution := (hsolves hv).2
  rw [kind_ofKind] at hsolution
  exact ⟨b, hb, hv, hsolution, (hleast hv).1⟩

end Solver

end TrustRegion
