import Mathlib
import TrustRegion.Proofs.Linear.Pivots
import TrustRegion.Proofs.Solver.Rank

/-!
# Two tests, one criterion

Cholesky factorisation looks at the pivots of `B = JᵀJ` and compares each with the tolerance times its
own diagonal entry; orthogonal triangularisation looks at the diagonal of `R`, for the Jacobian with
columns of unit length, and compares it with the root of the tolerance.  In exact arithmetic the two
tests are the same.

* `NormalEquations.Consistent` — a subproblem whose Hessian and gradient belong to its Jacobian and
  residuals.
* **`Solver.sq_pivot_eq`** — a pivot `L_ii²` is `B_ii` times `R_ii²`.
* `Solver.regular_iff_regular` — so the tests have the same outcome, whatever the tolerance; without
  independent columns neither is passed.
* **`Solver.cholesky_ok_iff_qr_ok`** — the two solvers succeed with the same subproblems, and then with
  the same step.
-/

namespace TrustRegion

open Finset

/-- Do Hessian and gradient belong to the Jacobian and the residuals? -/
structure NormalEquations.Consistent (e : NormalEquations ℝ) : Prop where
  /-- The Hessian is `JᵀJ`. -/
  hessian : e.hessian = e.jacobian.gram
  /-- The gradient is `Jᵀr`. -/
  gradient : e.jacobian.transposeMul e.residuals = some e.gradient

variable {e : NormalEquations ℝ} {tolerance : ℝ}

namespace NormalEquations

namespace Consistent

theorem size_residuals (he : e.Consistent) : e.residuals.size = e.jacobian.rows := by
  have hg := he.gradient
  unfold Matrix.transposeMul at hg
  split at hg
  · assumption
  · cases hg

theorem gradient_eq (he : e.Consistent) :
    e.gradient = Vec.tabulate e.unknowns fun j => (e.jacobian.column j).inner e.residuals := by
  have hg := he.gradient
  unfold Matrix.transposeMul at hg
  rw [if_pos he.size_residuals] at hg
  exact (Option.some.inj hg).symm

theorem fits (he : e.Consistent) {size : ℕ} (hs : size = e.unknowns) : e.Fits size := by
  refine ⟨?_, ?_, hs, he.size_residuals⟩
  · rw [he.hessian]
    exact Matrix.hasShape_tabulate _ _ _
  · rw [he.gradient_eq]
    exact Vec.size_tabulate _ _

theorem entry_gradient (he : e.Consistent) {i : ℕ} (hi : i < e.unknowns) :
    e.gradient.entry i = (e.jacobian.column i).inner e.residuals :=
  Matrix.entry_of_transposeMul he.gradient hi

end Consistent

/-- The subproblem of a Jacobian with residuals. -/
theorem consistent_ofResiduals {J : Matrix ℝ} {r : Vec ℝ} (hr : r.size = J.rows) :
    (Linearization.ofResiduals J r).system.Consistent :=
  ⟨rfl, Linearization.transposeMul_ofResiduals hr⟩

/-- The scaling brings the diagonal to one. -/
theorem sq_scaling_mul_diagonal {i : ℕ} (hi : i < e.unknowns) (hpos : 0 < e.diagonal i) :
    e.scaling.entry i ^ 2 * e.diagonal i = 1 := by
  rw [entry_scaling hi, Scalar.sqrt_eq, div_pow, Real.sq_sqrt hpos.le, one_pow,
    one_div_mul_cancel hpos.ne']

end NormalEquations

namespace Solver

/-- The lower triangle of the Hessian is all of it. -/
theorem symmetric_hessian (hB : e.hessian = e.jacobian.gram) {i j : ℕ} (hi : i < e.unknowns)
    (hj : j < e.unknowns) : Cholesky.symmetric e.hessian i j = e.jacobian.gram.entry i j := by
  rw [hB]
  exact Cholesky.symmetric_gram hi hj

theorem diagonal_pos (hB : e.hessian = e.jacobian.gram)
    (hns : Nonsingular e.unknowns e.jacobian.gram.entry) :
    ∀ i < e.unknowns, 0 < e.diagonal i := by
  intro i hi
  unfold NormalEquations.diagonal
  rw [hB]
  exact (Matrix.positive_gram (m := e.jacobian.rows) ⟨rfl, rfl⟩ hns).diagonal_pos hi

/-- **A pivot of the Hessian is that of the scaled Jacobian, squared and scaled back.** -/
theorem sq_pivot_eq (hB : e.hessian = e.jacobian.gram)
    (hns : Nonsingular e.unknowns e.jacobian.gram.entry) {L : Matrix ℝ}
    (hL : Cholesky.factor e.hessian = some L) {i : ℕ} (hi : i < e.unknowns) :
    L.entry i i ^ 2 = e.diagonal i *
      (Householder.factor (e.jacobian.scaleColumns e.scaling)).triangle.entry i i ^ 2 := by
  have hJ : e.jacobian.HasShape e.jacobian.rows e.unknowns := ⟨rfl, rfl⟩
  have htall := Matrix.cols_le_rows hJ hns
  have hpos := diagonal_pos hB hns
  have hd : ∀ i < e.unknowns, e.scaling.entry i ≠ 0 := fun i hi =>
    NormalEquations.scaling_ne_zero (NormalEquations.flatDiagonal?_eq_none_iff.2 hpos) hi
  have hshape : (e.jacobian.scaleColumns e.scaling).HasShape e.jacobian.rows e.unknowns :=
    e.jacobian.hasShape_scaleColumns e.scaling
  have hscaled : ∀ i < e.unknowns, ∀ j < e.unknowns,
      (e.jacobian.scaleColumns e.scaling).gram.entry i j =
        e.jacobian.gram.entry i j * e.scaling.entry i * e.scaling.entry j := fun i hi j hj =>
    Matrix.entry_gram_scaleColumns hi hj
  have hR := Householder.gram_eq (Householder.turned_factor hshape htall) hshape htall
  have hsquare : e.hessian.HasShape e.unknowns e.unknowns := by
    rw [hB]
    exact Matrix.hasShape_tabulate _ _ _
  -- both factors belong to the Hessian with a unit diagonal
  have hpivot := (Cholesky.factored_of_factor hsquare hL).sq_diagonal_eq_of_scaled hd
    (N := fun i t =>
      Triangular.upper (Householder.factor (e.jacobian.scaleColumns e.scaling)).triangle t i)
    (fun _ _ _ _ hij => Triangular.upper_of_gt hij)
    (fun i hi => by
      rw [Triangular.upper_of_le le_rfl]
      exact Householder.diagonal_ne_zero hshape htall
        ((hns.scale hd).congr fun i hi j hj => (hscaled i hi j hj).symm) hi)
    (fun i hi j hj => by rw [symmetric_hessian hB hi hj, ← hscaled i hi j hj, hR i hi j hj]) hi
  rw [Triangular.upper_of_le le_rfl] at hpivot
  calc L.entry i i ^ 2
      = e.diagonal i * (e.scaling.entry i * L.entry i i) ^ 2 := by
        rw [mul_pow, ← mul_assoc, mul_comm (e.diagonal i),
          NormalEquations.sq_scaling_mul_diagonal hi (hpos i hi), one_mul]
    _ = _ := by rw [hpivot]

/-- The two ways to compare a pivot with the tolerance agree. -/
theorem pivot_test_iff (hB : e.hessian = e.jacobian.gram) (h0 : 0 ≤ tolerance)
    (hns : Nonsingular e.unknowns e.jacobian.gram.entry) {L : Matrix ℝ}
    (hL : Cholesky.factor e.hessian = some L) {i : ℕ} (hi : i < e.unknowns) :
    tolerance * e.diagonal i < L.entry i i ^ 2 ↔
      √tolerance <
        |(Householder.factor (e.jacobian.scaleColumns e.scaling)).triangle.entry i i| := by
  rw [sq_pivot_eq hB hns hL hi, mul_comm tolerance,
    mul_lt_mul_iff_right₀ (diagonal_pos hB hns i hi), ← Real.sqrt_sq_eq_abs,
    Real.sqrt_lt_sqrt_iff h0]

/-- **The tests have the same outcome.** -/
theorem regular_iff_regular {size : ℕ} (hfits : e.Fits size) (hB : e.hessian = e.jacobian.gram)
    (h0 : 0 ≤ tolerance) : CholeskySolver.Regular e tolerance ↔ QrSolver.Regular e tolerance := by
  have hJ : e.jacobian.HasShape e.jacobian.rows e.unknowns := ⟨rfl, rfl⟩
  constructor
  · intro h
    obtain ⟨p, hp⟩ := (CholeskySolver.exists_answer_iff hfits).2 h
    have hns := (CholeskySolver.solves_of_answer hfits hp).2.congr fun i hi j hj =>
      symmetric_hessian hB hi hj
    obtain ⟨L, hL, hpivots⟩ := h
    exact ⟨Matrix.cols_le_rows hJ hns, diagonal_pos hB hns, fun i hi =>
      (pivot_test_iff hB h0 hns hL hi).1 (hpivots i hi).2⟩
  · intro h
    obtain ⟨p, hp⟩ := QrSolver.exists_answer_iff.2 h
    have hns := (QrSolver.solves_of_answer hfits hp).2
    obtain ⟨L, hL⟩ := Cholesky.exists_factor hfits.1
      ((Matrix.positive_gram hJ hns).congr fun i hi j hj => (symmetric_hessian hB hi hj).symm)
    exact ⟨L, hL, fun i hi => ⟨(Cholesky.factored_of_factor hfits.1 hL).pos i hi,
      (pivot_test_iff hB h0 hns hL hi).2 (h.2.2 i hi)⟩⟩

/-- **Cholesky factorisation and orthogonal triangularisation judge alike.**  Given the same consistent
subproblem and the same tolerance, whatever their buffers hold, the two solvers answer, each succeeds
exactly if its own test is passed, the tests have the same outcome, and the steps are the same. -/
theorem cholesky_ok_iff_qr_ok (he : e.Consistent) (h0 : 0 ≤ tolerance) :
    (CholeskySolver.Regular e tolerance ↔ QrSolver.Regular e tolerance) ∧
    ∀ (w : CholeskySolver ℝ) (w' : QrSolver ℝ) (step step' : Vec ℝ), step.size = e.unknowns →
      step'.size = e.unknowns →
      ∃ a a', w.solve e tolerance step = some a ∧ w'.solve e tolerance step' = some a' ∧
        (a.verdict = .ok () ↔ CholeskySolver.Regular e tolerance) ∧
        (a'.verdict = .ok () ↔ QrSolver.Regular e tolerance) ∧
        (a.verdict = .ok () → a'.step = a.step) := by
  have hB := he.hessian
  have hregular := regular_iff_regular (he.fits rfl) hB h0
  refine ⟨hregular, fun w w' step step' hs hs' => ?_⟩
  obtain ⟨a, ha, hanswer, hsize, -⟩ := w.solve_answer tolerance (he.fits hs)
  obtain ⟨a', ha', hanswer', hsize', -⟩ := w'.solve_answer tolerance (he.fits hs')
  have hok : a.verdict = .ok () ↔ CholeskySolver.Regular e tolerance := by
    rw [← CholeskySolver.exists_answer_iff (he.fits hs), ← hanswer]
    exact Attempt.verdict_eq_ok_iff
  have hok' : a'.verdict = .ok () ↔ QrSolver.Regular e tolerance := by
    rw [← QrSolver.exists_answer_iff, ← hanswer']
    exact Attempt.verdict_eq_ok_iff
  refine ⟨a, a', ha, ha', hok, hok', fun hv => ?_⟩
  have hv' := hok'.2 (hregular.1 (hok.1 hv))
  rw [Attempt.answer_eq_ok_iff.2 ⟨hv, rfl⟩, eq_comm] at hanswer
  rw [Attempt.answer_eq_ok_iff.2 ⟨hv', rfl⟩, eq_comm] at hanswer'
  -- both steps solve the normal equations, which have one solution
  obtain ⟨hsolves, -⟩ := CholeskySolver.solves_of_answer (he.fits hs) hanswer
  obtain ⟨hsolves', hns⟩ := QrSolver.solves_of_answer (he.fits hs') hanswer'
  refine Vec.ext_entry (hsize'.trans hsize.symm) fun i hi => ?_
  refine hns.unique hsolves' (hsolves.congr (fun i hi j hj => ?_) fun i hi => ?_) i (hsize' ▸ hi)
  · exact (symmetric_hessian hB hi hj).symm
  · rw [he.entry_gradient hi]

/-- Three residuals, and columns at an angle at which both solvers succeed with the tolerance `1/2` and
neither does with `3/4`. -/
theorem cholesky_ok_iff_qr_ok_of_residuals :
    let J : Matrix ℝ := .tabulate 3 2 fun i j => if i = 0 then j + 1 else if i = j then 3 else 0
    let e := (Linearization.ofResiduals J (Vec.tabulate 3 fun i => 1 - i)).system
    e.Consistent ∧ (0 : ℝ) ≤ 1 / 2 ∧ (0 : ℝ) ≤ 3 / 4 ∧
    (∃ a a', (CholeskySolver.ofSize 2).solve e (1 / 2) (Vec.zeros 2) = some a ∧
      (QrSolver.ofSize 2 3).solve e (1 / 2) (Vec.zeros 2) = some a' ∧
      a.verdict = .ok () ∧ a'.verdict = .ok () ∧ a'.step = a.step) ∧
    ∃ a a', (CholeskySolver.ofSize 2).solve e (3 / 4) (Vec.zeros 2) = some a ∧
      (QrSolver.ofSize 2 3).solve e (3 / 4) (Vec.zeros 2) = some a' ∧
      a.verdict ≠ .ok () ∧ a'.verdict ≠ .ok () := by
  intro J e
  have hJ : J.HasShape 3 2 := Matrix.hasShape_tabulate 3 2 _
  have hn : e.unknowns = 2 := hJ.2
  have he : e.Consistent := NormalEquations.consistent_ofResiduals (Vec.size_tabulate 3 _)
  have hs : (Vec.zeros 2 : Vec ℝ).size = e.unknowns := (Vec.size_zeros 2).trans hn.symm
  have hns : Nonsingular 2 J.gram.entry := by
    refine Matrix.nonsingular_gram_of_upper hJ (by norm_num) (fun i hi j hj hji => ?_) fun i hi => ?_
    · rw [Matrix.entry_tabulate _ (by omega) hj, if_neg (by omega), if_neg (by omega)]
    · rw [Matrix.entry_tabulate _ (by omega) hi, if_pos rfl]
      split <;> positivity
  have hpos : Positive 2 (Cholesky.symmetric e.hessian) :=
    (Matrix.positive_gram hJ hns).congr fun i hi j hj =>
      (symmetric_hessian he.hessian (hn ▸ hi) (hn ▸ hj)).symm
  have hgram : ∀ i < 2, ∀ j < 2,
      e.hessian.entry i j = ∑ k ∈ range 3, J.entry k i * J.entry k j := fun i hi j hj => by
    rw [← Fin.sum_univ_eq_sum_range fun k => J.entry k i * J.entry k j]
    exact Matrix.entry_gram_eq hJ hi hj
  have hregular : ∀ tolerance : ℝ,
      CholeskySolver.Regular e tolerance ↔ tolerance < 1 ∧ tolerance * 13 < 9 := fun tolerance => by
    rw [CholeskySolver.regular_iff_of_two (he.fits rfl) hn hpos, NormalEquations.diagonal,
      NormalEquations.diagonal, hgram 0 two_pos 0 two_pos, hgram 1 one_lt_two 1 one_lt_two,
      hgram 1 one_lt_two 0 two_pos]
    norm_num [sum_range_succ, J, Matrix.entry_tabulate]
  have hpass := (hregular (1 / 2)).2 (by norm_num)
  have hfail : ¬CholeskySolver.Regular e (3 / 4) := fun h => by
    have hsmall := ((hregular (3 / 4)).1 h).2
    norm_num at hsmall
  obtain ⟨hsame, hsolve⟩ := cholesky_ok_iff_qr_ok he (by norm_num : (0 : ℝ) ≤ 1 / 2)
  obtain ⟨a, a', ha, ha', hok, hok', hstep⟩ :=
    hsolve (.ofSize 2) (.ofSize 2 3) (Vec.zeros 2) (Vec.zeros 2) hs hs
  obtain ⟨hsame₁, hsolve₁⟩ := cholesky_ok_iff_qr_ok he (by norm_num : (0 : ℝ) ≤ 3 / 4)
  obtain ⟨b, b', hb, hb', hok₁, hok₁', -⟩ :=
    hsolve₁ (.ofSize 2) (.ofSize 2 3) (Vec.zeros 2) (Vec.zeros 2) hs hs
  exact ⟨he, by norm_num, by norm_num,
    ⟨a, a', ha, ha', hok.2 hpass, hok'.2 (hsame.1 hpass), hstep (hok.2 hpass)⟩,
    b, b', hb, hb', fun h => hfail (hok₁.1 h), fun h => hfail (hsame₁.2 (hok₁'.1 h))⟩

end Solver

end TrustRegion
