import Mathlib
import TrustRegion.Proofs.Linear.Cholesky
import TrustRegion.Proofs.Linear.Householder
import TrustRegion.Proofs.Linear.PivotedLu
import TrustRegion.Proofs.Path.Reached

/-!
# Linear solvers solve

In exact arithmetic an answer of a linear solver is a solution, and the matrix of its system is
nonsingular.  Each kind of solver has its own system:

* `CholeskySolver.solves_of_answer` — the symmetric matrix with the lower triangle of the Hessian;
* `LuSolver.solves_of_answer` — the Hessian as it stands;
* `QrSolver.solves_of_answer` — the normal equations `JᵀJ p = -Jᵀr`, whatever Hessian and gradient are.

For the subproblem of a staged problem the three agree: **`DoglegPath.stationary_gaussNewtonPoint`**,
the Gauss-Newton point is the stationary point of the model, and
**`DoglegPath.injective_of_gaussNewtonPoint`**, the Jacobian has independent columns.
-/

namespace TrustRegion

open Finset
open scoped RealInnerProductSpace

variable {e : NormalEquations ℝ} {n m size : ℕ} {tolerance : ℝ} {p : Vec ℝ}

/-- Where the scaling can be computed, no unknown is scaled by zero. -/
theorem NormalEquations.scaling_ne_zero (h : e.flatDiagonal? e.unknowns = none) {i : ℕ}
    (hi : i < e.unknowns) : e.scaling.entry i ≠ 0 := by
  have hpos := flatDiagonal?_eq_none_iff.1 h i hi
  rw [entry_scaling hi, Scalar.sqrt_eq]
  exact one_div_ne_zero (Real.sqrt_pos.2 hpos).ne'

/-- A solution of the scaled system, scaled back, solves the system. -/
theorem NormalEquations.solves_of_scaled {A A' : ℕ → ℕ → ℝ} {b b' : ℕ → ℝ} {y : Vec ℝ}
    (hflat : e.flatDiagonal? e.unknowns = none) (hy : y.size = e.unknowns)
    (hA : ∀ i < e.unknowns, ∀ j < e.unknowns,
      A' i j = A i j * e.scaling.entry i * e.scaling.entry j)
    (hb : ∀ i < e.unknowns, b i * e.scaling.entry i = b' i)
    (hsolves : Solves e.unknowns A' y.entry b') (hns : Nonsingular e.unknowns A') :
    Solves e.unknowns A (y.times e.scaling).entry b ∧ Nonsingular e.unknowns A := by
  have hd : ∀ i < e.unknowns, e.scaling.entry i ≠ 0 := fun i hi => scaling_ne_zero hflat hi
  refine ⟨?_, Nonsingular.unscale hd (hns.congr hA)⟩
  have hback := Solves.unscale hd (hsolves.congr (fun i hi j hj => (hA i hi j hj).symm) hb)
  exact hback.congr_solution fun i hi => Vec.entry_tabulate _ (hy.symm ▸ hi)

theorem CholeskySolver.solves_of_answer (hfits : e.Fits size) (h : answer e tolerance = .ok p) :
    Solves e.unknowns (Cholesky.symmetric e.hessian) p.entry (fun i => -e.gradient.entry i) ∧
      Nonsingular e.unknowns (Cholesky.symmetric e.hessian) := by
  obtain ⟨hB, hg, -, -⟩ := hfits
  unfold answer at h
  split at h
  · cases h
  split at h
  · cases h
  rename_i L hL
  split at h
  · cases h
  cases h
  have hfactored := Cholesky.factored_of_factor hB hL
  refine ⟨?_, hfactored.nonsingular_symmetric⟩
  refine (hfactored.solves_solve (Cholesky.hasShape_factor hB hL).2 (b := e.gradient.neg) (by simpa using hg)).congr
    (fun _ _ _ _ => rfl) fun i hi => ?_
  exact (Vec.entry_neg (hg.symm ▸ hi)).symm

theorem LuSolver.solves_of_answer (hfits : e.Fits size) (h : answer e tolerance = .ok p) :
    Solves e.unknowns e.hessian.entry p.entry (fun i => -e.gradient.entry i) ∧
      Nonsingular e.unknowns e.hessian.entry := by
  have hshape := NormalEquations.hasShape_scaled hfits
  obtain ⟨hB, hg, -, -⟩ := hfits
  unfold answer at h
  split at h
  · cases h
  rename_i hflat
  dsimp only at h
  split at h
  swap
  · cases h
  split at h
  · cases h
  rename_i y hy
  cases h
  have hsize : (e.gradient.times e.scaling).neg.size = e.unknowns := by simpa using hg
  refine NormalEquations.solves_of_scaled hflat ((PivotedLu.size_solve hy).trans hsize)
    (fun i hi j hj => Matrix.entry_scaleBoth _ (hB.1.symm ▸ hi) (hB.2.symm ▸ hj)) (fun i hi => ?_)
    (PivotedLu.solves_solve hshape hsize hy) (PivotedLu.nonsingular_of_solve hshape hsize hy)
  rw [Vec.entry_neg (by simpa using hg.symm ▸ hi), Vec.times, Vec.entry_tabulate _ (hg.symm ▸ hi)]
  ring

theorem QrSolver.solves_of_answer (hfits : e.Fits size) (h : answer e tolerance = .ok p) :
    Solves e.unknowns e.jacobian.gram.entry p.entry
        (fun i => -(e.jacobian.column i).inner e.residuals) ∧
      Nonsingular e.unknowns e.jacobian.gram.entry := by
  obtain ⟨-, -, -, hr⟩ := hfits
  unfold answer at h
  dsimp only at h
  split at h
  · cases h
  rename_i hrows
  split at h
  · cases h
  rename_i hflat
  split at h
  swap
  · cases h
  split at h
  · cases h
  rename_i y hy
  cases h
  have hshape := e.jacobian.hasShape_scaleColumns e.scaling
  have hsize : e.residuals.neg.size = e.jacobian.rows := by simpa using hr
  have htall : e.unknowns ≤ e.jacobian.rows := not_lt.1 hrows
  refine NormalEquations.solves_of_scaled hflat
    ((Triangular.size_backward hy).trans (size_lead e))
    (fun i hi j hj => Matrix.entry_gram_scaleColumns hi hj) (fun i hi => ?_)
    (Householder.solves_backward hshape htall hsize hy)
    (Householder.nonsingular_of_backward hshape htall (size_lead e) hy)
  rw [Matrix.inner_column_scaleColumns hi, Vec.inner_neg (by rw [Matrix.size_column, hr])]

/-! ## The normal equations of a matrix -/

namespace Matrix

variable {A : Matrix ℝ}

/-- The quadratic form of `AᵀA` is a square length. -/
theorem form_gram (hA : A.HasShape m n) (x : ℕ → ℝ) :
    ∑ i ∈ range n, (∑ j ∈ range n, A.gram.entry i j * x j) * x i =
      ‖A.toMap m n (WithLp.toLp 2 fun i : Fin n => x i)‖ ^ 2 := by
  rw [← real_inner_self_eq_norm_sq, inner_toMap hA, ← Fin.sum_univ_eq_sum_range]
  refine Finset.sum_congr rfl fun i _ => ?_
  rw [← Fin.sum_univ_eq_sum_range fun j => A.gram.entry i j * x j]

/-- What `A` takes to zero, `AᵀA` takes to zero, and conversely. -/
theorem toMap_eq_zero_iff (hA : A.HasShape m n) (x : ℕ → ℝ) :
    A.toMap m n (WithLp.toLp 2 fun i : Fin n => x i) = 0 ↔ Solves n A.gram.entry x 0 := by
  constructor
  · intro hzero i hi
    have hinner := inner_toMap hA (WithLp.toLp 2 fun i : Fin n => x i)
      (EuclideanSpace.single ⟨i, hi⟩ 1)
    rw [hzero, inner_zero_left] at hinner
    rw [← Fin.sum_univ_eq_sum_range fun j => A.gram.entry i j * x j]
    simpa using hinner.symm
  · intro hsolves
    have hform := form_gram hA x
    rw [sum_eq_zero fun i hi => by rw [hsolves i (mem_range.1 hi)]; exact zero_mul _] at hform
    exact norm_eq_zero.1 (pow_eq_zero_iff two_ne_zero |>.1 hform.symm)

/-- If `AᵀA` is nonsingular, `A` takes nothing but zero to zero. -/
theorem eq_zero_of_toMap (hA : A.HasShape m n) (h : Nonsingular n A.gram.entry)
    {v : EuclideanSpace ℝ (Fin n)} (hv : A.toMap m n v = 0) : v = 0 := by
  obtain ⟨x, rfl⟩ := Vec.exists_toSpace v
  ext i
  exact h _ ((toMap_eq_zero_iff hA x.entry).1 hv) i i.isLt

end Matrix

/-! ## The subproblem of a staged problem -/

/-- The lower triangle of `JᵀJ` is all of it. -/
theorem Cholesky.symmetric_gram {J : Matrix ℝ} {i j : ℕ} (hi : i < J.cols) (hj : j < J.cols) :
    symmetric J.gram i j = J.gram.entry i j := by
  unfold symmetric
  split
  · rfl
  · exact Matrix.entry_gram_comm hj hi

/-- The gradient is the one that belongs to the residuals. -/
def Linearization.Consistent (l : Linearization ℝ) : Prop :=
  l.jacobian.transposeMul l.residuals = some l.gradient

/-- The entries of `Aᵀv` are the inner products with the columns. -/
theorem Matrix.entry_of_transposeMul {A : Matrix ℝ} {v g : Vec ℝ} (h : A.transposeMul v = some g)
    {i : ℕ} (hi : i < A.cols) : g.entry i = (A.column i).inner v := by
  unfold transposeMul at h
  split at h
  · cases h
    exact Vec.entry_tabulate _ hi
  · cases h

namespace DoglegPath

variable {l : Linearization ℝ} {kind : SolverKind}

/-- Where there is a Gauss-Newton point the Hessian is regular, whatever the gradient. -/
theorem nonsingular_of_gaussNewtonPoint (hl : l.check n m = .ok ())
    (hp : gaussNewtonPoint? kind tolerance l = some p) : Nonsingular n l.jacobian.gram.entry := by
  have hfits : l.system.Fits n := GaussNewton.fits_system (Model.sized_holding hl) rfl
  have hcols : l.jacobian.cols = n := (Linearization.hasShape_jacobian hl).2
  have hanswer := gaussNewtonPoint?_eq_some_iff.1 hp
  subst hcols
  cases kind with
  | cholesky =>
      exact (CholeskySolver.solves_of_answer hfits hanswer).2.congr fun i hi j hj =>
        Cholesky.symmetric_gram hi hj
  | lu => exact (LuSolver.solves_of_answer hfits hanswer).2
  | qr => exact (QrSolver.solves_of_answer hfits hanswer).2

/-- Whatever the linear solver, the Gauss-Newton point solves `JᵀJ p = -g`, and `JᵀJ` is nonsingular;
orthogonal triangularisation, which does not read the gradient, asks for the one that belongs to the
residuals. -/
theorem solves_gaussNewtonPoint (hl : l.check n m = .ok ()) (hg : kind = .qr → l.Consistent)
    (hp : gaussNewtonPoint? kind tolerance l = some p) :
    Solves n l.jacobian.gram.entry p.entry (fun i => -l.gradient.entry i) ∧
      Nonsingular n l.jacobian.gram.entry := by
  refine ⟨?_, nonsingular_of_gaussNewtonPoint hl hp⟩
  have hfits : l.system.Fits n := GaussNewton.fits_system (Model.sized_holding hl) rfl
  have hcols : l.jacobian.cols = n := (Linearization.hasShape_jacobian hl).2
  have hanswer := gaussNewtonPoint?_eq_some_iff.1 hp
  subst hcols
  cases kind with
  | cholesky =>
      exact (CholeskySolver.solves_of_answer hfits hanswer).1.congr
        (fun i hi j hj => (Cholesky.symmetric_gram hi hj).symm) fun _ _ => rfl
  | lu => exact (LuSolver.solves_of_answer hfits hanswer).1
  | qr =>
      refine (QrSolver.solves_of_answer hfits hanswer).1.congr (fun _ _ _ _ => rfl) fun i hi => ?_
      exact congrArg Neg.neg (Matrix.entry_of_transposeMul (hg rfl) hi)

/-- **The Gauss-Newton point is the stationary point of the model.** -/
theorem stationary_gaussNewtonPoint (hl : l.check n m = .ok ()) (hg : kind = .qr → l.Consistent)
    (hp : gaussNewtonPoint? kind tolerance l = some p) :
    IsStationary (l.jacobian.toMap m n) (l.gradient.toSpace n) (p.toSpace n) := by
  have hJ : l.jacobian.HasShape m n := Linearization.hasShape_jacobian hl
  have hsolves := (solves_gaussNewtonPoint hl hg hp).1
  intro v
  rw [Matrix.inner_toMap hJ, PiLp.inner_apply, ← sum_neg_distrib]
  refine sum_congr rfl fun i _ => ?_
  have hrow := hsolves i i.isLt
  rw [← Fin.sum_univ_eq_sum_range (fun j => l.jacobian.gram.entry i j * p.entry j)] at hrow
  show (∑ j : Fin n, l.jacobian.gram.entry i j * p.entry j) * v i = -(v i * l.gradient.entry i)
  rw [hrow]
  ring

/-- **Where there is a Gauss-Newton point, the columns of the Jacobian are independent.** -/
theorem injective_of_gaussNewtonPoint (hl : l.check n m = .ok ()) (hg : kind = .qr → l.Consistent)
    (hp : gaussNewtonPoint? kind tolerance l = some p) {v : EuclideanSpace ℝ (Fin n)}
    (hv : l.jacobian.toMap m n v = 0) : v = 0 :=
  Matrix.eq_zero_of_toMap (Linearization.hasShape_jacobian hl)
    (solves_gaussNewtonPoint hl hg hp).2 hv

end DoglegPath

end TrustRegion
