import Mathlib
import TrustRegion.Proofs.Solver.Exact
import TrustRegion.Proofs.Solver.Failure

/-!
# The tests for singularity

Each kind of linear solver looks at the pivots of its own factorisation before it solves.  In exact
arithmetic its answer is a solution exactly if they pass the test; a solve that has begun is never given
up.

* `CholeskySolver.Regular`, `LuSolver.Regular`, `QrSolver.Regular` — the tests, each on the factor that
  the solver computes; in exact arithmetic they are what is tested before anything is written
  (`CholeskySolver.admits_iff_regular`, `LuSolver.admits_iff_regular`).
* `CholeskySolver.exists_answer_iff`, `LuSolver.exists_answer_iff`, `QrSolver.exists_answer_iff` — there
  is a solution exactly if the test is passed.
-/

namespace TrustRegion

variable {e : NormalEquations ℝ} {size : ℕ} {tolerance : ℝ}

namespace CholeskySolver

/-- Has the Hessian a Cholesky factor `L`, with pivots `L_ii²` above the tolerance times `B_ii`? -/
def Regular (e : NormalEquations ℝ) (tolerance : ℝ) : Prop :=
  ∃ L, Cholesky.factor e.hessian = some L ∧
    ∀ i < e.unknowns, 0 < L.entry i i ∧ tolerance * e.diagonal i < L.entry i i ^ 2

theorem admits_iff_regular (hfits : e.Fits size) : Admits e tolerance ↔ Regular e tolerance := by
  have hB := hfits.1
  have hpivot : ∀ L : Matrix ℝ, weakPivot? e L tolerance = none ↔
      ∀ i < e.unknowns, tolerance * e.diagonal i < L.entry i i ^ 2 := fun L => by
    rw [weakPivot?_eq_none_iff]
    simp only [pivot, sq]
  constructor
  · rintro ⟨-, L, hL, hstrong⟩
    exact ⟨L, hL, fun i hi =>
      ⟨(Cholesky.factored_of_factor hB hL).pos i hi, (hpivot L).1 hstrong i hi⟩⟩
  · rintro ⟨L, hL, hpivots⟩
    have hpos := (Cholesky.factored_of_factor hB hL).positive_symmetric
    exact ⟨NormalEquations.flatDiagonal?_eq_none_iff.2 fun i hi =>
      (hpos.diagonal_pos hi).trans_eq (if_pos le_rfl), L, hL, (hpivot L).2 fun i hi => (hpivots i hi).2⟩

theorem exists_answer_iff (hfits : e.Fits size) :
    (∃ p, answer e tolerance = .ok p) ↔ Regular e tolerance :=
  answer_ok_iff_admits.trans (admits_iff_regular hfits)

/-- With two unknowns the test is one for the angle between the columns of the Jacobian. -/
theorem regular_iff_of_two (hfits : e.Fits size) (hn : e.unknowns = 2)
    (hpos : Positive 2 (Cholesky.symmetric e.hessian)) :
    Regular e tolerance ↔ tolerance < 1 ∧
      tolerance * (e.diagonal 0 * e.diagonal 1) <
        e.diagonal 0 * e.diagonal 1 - e.hessian.entry 1 0 ^ 2 := by
  have hB := hfits.1
  rw [hn] at hB
  obtain ⟨L, hL⟩ := Cholesky.exists_factor hB hpos
  have hf := Cholesky.factored_of_factor hB hL
  have hfirst : L.entry 0 0 ^ 2 = e.diagonal 0 := by
    simpa [Finset.sum_range_succ, sq, NormalEquations.diagonal] using
      hf.product 0 two_pos 0 le_rfl two_pos
  have hbelow : L.entry 1 0 * L.entry 0 0 = e.hessian.entry 1 0 := by
    simpa [Finset.sum_range_succ] using hf.product 0 two_pos 1 zero_le_one one_lt_two
  have hlast : L.entry 1 0 ^ 2 + L.entry 1 1 ^ 2 = e.diagonal 1 := by
    simpa [Finset.sum_range_succ, sq, NormalEquations.diagonal] using
      hf.product 1 one_lt_two 1 le_rfl one_lt_two
  have h0 : 0 < e.diagonal 0 := hfirst ▸ pow_pos (hf.pos 0 two_pos) 2
  have hpivot : e.diagonal 0 * L.entry 1 1 ^ 2 =
      e.diagonal 0 * e.diagonal 1 - e.hessian.entry 1 0 ^ 2 := by
    rw [← hlast, ← hbelow, ← hfirst]
    ring
  calc Regular e tolerance
      ↔ ∀ i < 2, tolerance * e.diagonal i < L.entry i i ^ 2 := by
        simp only [Regular, hL, Option.some.injEq, exists_eq_left', hn]
        exact forall₂_congr fun i hi => and_iff_right (hf.pos i hi)
    _ ↔ tolerance * e.diagonal 0 < e.diagonal 0 ∧ tolerance * e.diagonal 1 < L.entry 1 1 ^ 2 := by
        simp only [Nat.forall_lt_succ_right, Nat.not_lt_zero, false_implies, implies_true, true_and,
          hfirst]
    _ ↔ _ := by
        rw [mul_lt_iff_lt_one_left h0, ← hpivot, mul_left_comm, mul_lt_mul_iff_right₀ h0]

end CholeskySolver

namespace LuSolver

/-- Is the diagonal of the Hessian positive, and that of the factor `U` of the scaled Hessian above the
tolerance? -/
def Regular (e : NormalEquations ℝ) (tolerance : ℝ) : Prop :=
  (∀ i < e.unknowns, 0 < e.diagonal i) ∧
    ∀ i < e.unknowns,
      tolerance < |(PivotedLu.factor (e.hessian.scaleBoth e.scaling)).combined.entry i i|

theorem admits_iff_regular (hfits : e.Fits size) : Admits e tolerance ↔ Regular e tolerance := by
  have hcols := (hasShape_factors hfits).2
  unfold Admits Regular
  rw [NormalEquations.flatDiagonal?_eq_none_iff, Matrix.exceeds_leastPivot]
  refine and_congr_right fun _ => forall₂_congr fun i hi => ?_
  rw [PivotedLu.entry_upper (hcols.symm ▸ hi), factors]

theorem exists_answer_iff (hfits : e.Fits size) (h0 : 0 ≤ tolerance) :
    (∃ p, answer e tolerance = .ok p) ↔ Regular e tolerance :=
  (answer_ok_iff_admits hfits h0.not_gt).trans (admits_iff_regular hfits)

end LuSolver

namespace QrSolver

/-- Are there as many residuals as unknowns, and is the diagonal of the Hessian positive, and that of
the factor `R` of the scaled Jacobian above the root of the tolerance? -/
def Regular (e : NormalEquations ℝ) (tolerance : ℝ) : Prop :=
  e.unknowns ≤ e.jacobian.rows ∧ (∀ i < e.unknowns, 0 < e.diagonal i) ∧
    ∀ i < e.unknowns,
      √tolerance < |(Householder.factor (e.jacobian.scaleColumns e.scaling)).triangle.entry i i|

theorem exists_answer_iff : (∃ p, answer e tolerance = .ok p) ↔ Regular e tolerance := by
  rw [answer_ok_iff_admits, Admits, NormalEquations.flatDiagonal?_eq_none_iff,
    Matrix.exceeds_leastPivot, Scalar.sqrt_eq]
  rfl

end QrSolver

end TrustRegion
