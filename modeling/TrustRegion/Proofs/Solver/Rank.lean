import Mathlib
import TrustRegion.Proofs.Solver.Regular

/-!
# When there is a Gauss-Newton point

With the tolerance zero, each kind of linear solver finds a solution wherever there is exactly one:

* `CholeskySolver.exists_answer` — the symmetric matrix with the lower triangle of the Hessian is
  positive definite;
* `LuSolver.exists_answer` — the Hessian is nonsingular;
* `QrSolver.exists_answer` — there are enough rows, and `JᵀJ` is nonsingular.

For a staged problem all three say that the columns of the Jacobian are independent
(**`DoglegPath.exists_gaussNewtonPoint_iff`**), and where they are, the point is the same
(**`DoglegPath.gaussNewtonPoint?_eq`**).
-/

namespace TrustRegion

open Finset
open scoped RealInnerProductSpace

variable {n m : ℕ}

/-! ## Independent columns -/

namespace Matrix

variable {A : Matrix ℝ}

/-- The image of a point is a combination of the columns. -/
theorem toMap_eq_sum (A : Matrix ℝ) (v : EuclideanSpace ℝ (Fin n)) :
    A.toMap m n v = ∑ j : Fin n, v j • (A.column j).toSpace m := by
  ext i
  simp only [toMap_apply, WithLp.ofLp_sum, Finset.sum_apply, WithLp.ofLp_smul, Pi.smul_apply,
    Vec.toSpace_apply, smul_eq_mul]
  exact Finset.sum_congr rfl fun j _ => mul_comm _ _

/-- If `AᵀA` is nonsingular, it is positive definite. -/
theorem positive_gram (hA : A.HasShape m n) (h : Nonsingular n A.gram.entry) :
    Positive n A.gram.entry := by
  intro x ⟨i, hi, hne⟩
  rw [form_gram hA]
  refine sq_pos_of_pos (norm_pos_iff.2 fun hzero => hne ?_)
  exact h x ((toMap_eq_zero_iff hA x).1 hzero) i hi

/-- **`AᵀA` is nonsingular exactly if the columns of `A` are independent.** -/
theorem nonsingular_gram_iff (hA : A.HasShape m n) :
    Nonsingular n A.gram.entry ↔
      LinearIndependent ℝ fun j : Fin n => (A.column j).toSpace m := by
  rw [Fintype.linearIndependent_iff]
  constructor
  · intro h v hv j
    let x : ℕ → ℝ := fun i => if hi : i < n then v ⟨i, hi⟩ else 0
    have hx : ∀ i : Fin n, x i = v i := fun i => dif_pos i.isLt
    have hzero : A.toMap m n (WithLp.toLp 2 fun i : Fin n => x i) = 0 := by
      rw [toMap_eq_sum, ← hv]
      exact Finset.sum_congr rfl fun i _ => by rw [← hx i]
    rw [← hx j]
    exact h x ((toMap_eq_zero_iff hA x).1 hzero) j j.isLt
  · intro h x hx i hi
    have hzero := (toMap_eq_zero_iff hA x).2 hx
    rw [toMap_eq_sum] at hzero
    exact h (fun j => x j) hzero ⟨i, hi⟩

/-- Columns are independent only where there are enough rows. -/
theorem cols_le_rows (hA : A.HasShape m n) (h : Nonsingular n A.gram.entry) : n ≤ m := by
  simpa using ((nonsingular_gram_iff hA).1 h).fintype_card_le_finrank

/-- A matrix that begins with an upper triangular block without zeros on its diagonal has independent
columns. -/
theorem nonsingular_gram_of_upper (hA : A.HasShape m n) (hnm : n ≤ m)
    (hzero : ∀ i < n, ∀ j < n, j < i → A.entry i j = 0) (hdiag : ∀ i < n, A.entry i i ≠ 0) :
    Nonsingular n A.gram.entry := by
  intro x hx
  refine nonsingular_of_upper hzero hdiag x fun i hi => ?_
  have hrow := congrArg (fun v : EuclideanSpace ℝ (Fin m) => v ⟨i, by omega⟩)
    ((toMap_eq_zero_iff hA x).2 hx)
  rw [← Fin.sum_univ_eq_sum_range fun j => A.entry i j * x j]
  exact hrow

end Matrix

/-! ## Each kind of solver -/

variable {e : NormalEquations ℝ} {size : ℕ}

/-- With the tolerance zero Cholesky factorisation solves every positive definite system. -/
theorem CholeskySolver.exists_answer (hfits : e.Fits size)
    (hpos : Positive e.unknowns (Cholesky.symmetric e.hessian)) : ∃ p, answer e 0 = .ok p := by
  obtain ⟨L, hL⟩ := Cholesky.exists_factor hfits.1 hpos
  refine (exists_answer_iff hfits).2 ⟨L, hL, fun i hi => ?_⟩
  have hdiag := (Cholesky.factored_of_factor hfits.1 hL).pos i hi
  exact ⟨hdiag, by rw [zero_mul]; exact pow_pos hdiag 2⟩

/-- With the tolerance zero, factorisation with row exchanges solves every nonsingular system whose
diagonal is positive. -/
theorem LuSolver.exists_answer (hfits : e.Fits size) (hflat : e.flatDiagonal? e.unknowns = none)
    (h : Nonsingular e.unknowns e.hessian.entry) : ∃ p, answer e 0 = .ok p := by
  have hB := hfits.1
  have hns : Nonsingular e.unknowns (e.hessian.scaleBoth e.scaling).entry :=
    (h.scale fun i hi => NormalEquations.scaling_ne_zero hflat hi).congr fun i hi j hj =>
      (Matrix.entry_scaleBoth _ (hB.1.symm ▸ hi) (hB.2.symm ▸ hj)).symm
  exact (exists_answer_iff hfits le_rfl).2 ⟨NormalEquations.flatDiagonal?_eq_none_iff.1 hflat,
    fun i hi => abs_pos.2 (PivotedLu.diagonal_ne_zero (NormalEquations.hasShape_scaled hfits) hns hi)⟩

/-- With the tolerance zero, orthogonal triangularisation solves every nonsingular system of normal
equations. -/
theorem QrSolver.exists_answer (htall : e.unknowns ≤ e.jacobian.rows)
    (hflat : e.flatDiagonal? e.unknowns = none)
    (h : Nonsingular e.unknowns e.jacobian.gram.entry) : ∃ p, answer e 0 = .ok p := by
  have hshape : (e.jacobian.scaleColumns e.scaling).HasShape e.jacobian.rows e.unknowns :=
    e.jacobian.hasShape_scaleColumns e.scaling
  have hns : Nonsingular e.unknowns (e.jacobian.scaleColumns e.scaling).gram.entry :=
    (h.scale fun i hi => NormalEquations.scaling_ne_zero hflat hi).congr fun i hi j hj =>
      (Matrix.entry_gram_scaleColumns hi hj).symm
  refine exists_answer_iff.2 ⟨htall, NormalEquations.flatDiagonal?_eq_none_iff.1 hflat,
    fun i hi => ?_⟩
  rw [Real.sqrt_zero]
  exact abs_pos.2 (Householder.diagonal_ne_zero hshape htall hns hi)

/-! ## The subproblem of a staged problem -/

namespace DoglegPath

variable {l : Linearization ℝ}

/-- Whatever the linear solver, there is a Gauss-Newton point if `JᵀJ` is nonsingular. -/
theorem exists_gaussNewtonPoint (hl : l.check n m = .ok ())
    (h : Nonsingular n l.jacobian.gram.entry) (kind : SolverKind) :
    ∃ p, gaussNewtonPoint? kind 0 l = some p := by
  have hfits : l.system.Fits n := GaussNewton.fits_system (Model.sized_holding hl) rfl
  have hJ : l.jacobian.HasShape m n := Linearization.hasShape_jacobian hl
  have hpos := Matrix.positive_gram hJ h
  obtain ⟨rfl, rfl⟩ := hJ
  have hflat : l.system.flatDiagonal? l.system.unknowns = none :=
    NormalEquations.flatDiagonal?_eq_none_iff.2 fun i hi => hpos.diagonal_pos hi
  simp only [gaussNewtonPoint?_eq_some_iff]
  cases kind with
  | cholesky =>
      exact CholeskySolver.exists_answer hfits
        (hpos.congr fun i hi j hj => (Cholesky.symmetric_gram hi hj).symm)
  | lu => exact LuSolver.exists_answer hfits hflat h
  | qr => exact QrSolver.exists_answer (Matrix.cols_le_rows ⟨rfl, rfl⟩ h) hflat h

/-- With the tolerance zero a solver of any kind succeeds if `JᵀJ` is nonsingular. -/
theorem exists_ok_solve (hl : l.check n m = .ok ()) (h : Nonsingular n l.jacobian.gram.entry)
    (s : Solver ℝ) {step : Vec ℝ} (hs : step.size = n) :
    ∃ a, s.solve l.system 0 step = some a ∧ a.verdict = .ok () := by
  have hfits : l.system.Fits step.size := GaussNewton.fits_system (Model.sized_holding hl) hs
  obtain ⟨a, ha, hanswer, -⟩ := s.solve_answer 0 hfits
  obtain ⟨p, hp⟩ := exists_gaussNewtonPoint hl h s.kind
  exact ⟨a, ha, Attempt.verdict_eq_ok_iff.2
    ⟨p, hanswer.trans (gaussNewtonPoint?_eq_some_iff.1 hp)⟩⟩

/-- **There is a Gauss-Newton point exactly if the columns of the Jacobian are independent**, if the
tolerance is zero and the gradient belongs to the residuals. -/
theorem exists_gaussNewtonPoint_iff (hl : l.check n m = .ok ()) (hg : l.Consistent)
    (kind : SolverKind) :
    (∃ p, gaussNewtonPoint? kind 0 l = some p) ↔
      LinearIndependent ℝ fun j : Fin n => (l.jacobian.column j).toSpace m := by
  rw [← Matrix.nonsingular_gram_iff (Linearization.hasShape_jacobian hl)]
  constructor
  · rintro ⟨p, hp⟩
    exact (solves_gaussNewtonPoint hl (fun _ => hg) hp).2
  · exact fun h => exists_gaussNewtonPoint hl h kind

/-- **The linear solver does not matter**, if the tolerance is zero and the gradient belongs to the
residuals: all find the same point, or none. -/
theorem gaussNewtonPoint?_eq (hl : l.check n m = .ok ()) (hg : l.Consistent)
    (kind kind' : SolverKind) : gaussNewtonPoint? kind 0 l = gaussNewtonPoint? kind' 0 l := by
  cases hp : gaussNewtonPoint? kind 0 l with
  | none =>
      cases hp' : gaussNewtonPoint? kind' 0 l with
      | none => rfl
      | some p =>
          have hrank := (exists_gaussNewtonPoint_iff hl hg kind').1 ⟨p, hp'⟩
          obtain ⟨q, hq⟩ := (exists_gaussNewtonPoint_iff hl hg kind).2 hrank
          rw [hp] at hq
          cases hq
  | some p =>
      obtain ⟨hsolves, hns⟩ := solves_gaussNewtonPoint hl (fun _ => hg) hp
      obtain ⟨q, hq⟩ := exists_gaussNewtonPoint hl hns kind'
      have hsolves' := (solves_gaussNewtonPoint hl (fun _ => hg) hq).1
      have hsize : p.size = n := size_gaussNewtonPoint? hl hp
      rw [hq, Vec.ext_entry (hsize.trans (size_gaussNewtonPoint? hl hq).symm) fun i hi =>
        hns.unique hsolves hsolves' i (hsize ▸ hi)]

end DoglegPath

end TrustRegion
