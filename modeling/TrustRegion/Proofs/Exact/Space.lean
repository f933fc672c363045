import Mathlib
import TrustRegion.Proofs.Exact.Scalar
import TrustRegion.Proofs.Model.Staged

/-!
# Vectors as points of Euclidean space

Exact vectors with `n` entries are the points of the Euclidean space `ℝⁿ`, and exact matrices are
linear maps between such spaces.  `Vec.toSpace` and `Matrix.toMap` are these readings.  They take the
norm, the inner product and the quadratic form of the library to those of the spaces
(`Vec.norm_eq`, `Vec.inner_eq`, **`Model.curvatureAt_holding`**), so that the geometry of a step can be
argued with there.
-/

namespace TrustRegion

open Finset
open scoped RealInnerProductSpace

/-! ## Vectors -/

namespace Vec

/-- The point of `ℝⁿ` with the first `n` entries of a vector as its coordinates. -/
noncomputable def toSpace (n : ℕ) (x : Vec ℝ) : EuclideanSpace ℝ (Fin n) :=
  WithLp.toLp _ fun i => x.entry i

@[simp] theorem toSpace_apply (n : ℕ) (x : Vec ℝ) (i : Fin n) : x.toSpace n i = x.entry i := rfl

variable {n : ℕ} {x y : Vec ℝ}

/-- A vector is determined by its point. -/
theorem toSpace_inj (hx : x.size = n) (hy : y.size = n) : x.toSpace n = y.toSpace n ↔ x = y := by
  constructor
  · intro h
    refine ext_entry (hx.trans hy.symm) fun i hi => ?_
    exact congrArg (fun p : EuclideanSpace ℝ (Fin n) => p ⟨i, hx ▸ hi⟩) h
  · intro h
    rw [h]

/-- Every point is that of a vector. -/
theorem exists_toSpace (v : EuclideanSpace ℝ (Fin n)) : ∃ x : Vec ℝ, x.toSpace n = v := by
  refine ⟨tabulate n fun i => if h : i < n then v ⟨i, h⟩ else 0, ?_⟩
  ext i
  rw [toSpace_apply, entry_tabulate _ i.isLt, dif_pos i.isLt]

@[simp] theorem toSpace_zeros (n k : ℕ) : (zeros k : Vec ℝ).toSpace n = 0 := by
  ext i
  exact entry_zeros k i

@[simp] theorem toSpace_scale (n : ℕ) (x : Vec ℝ) (c : ℝ) :
    (x.scale c).toSpace n = c • x.toSpace n := by
  ext i
  show (x.scale c).entry i = c * x.entry i
  rcases lt_or_ge (i : ℕ) x.size with h | h
  · rw [entry_scale c h, mul_comm]
  · rw [entry_of_size_le h, entry_of_size_le (by simpa using h)]
    exact (mul_zero c).symm

theorem toSpace_tabulate (n : ℕ) (f : ℕ → ℝ) :
    (tabulate n f).toSpace n = WithLp.toLp 2 fun i : Fin n => f i := by
  ext i
  exact entry_tabulate f i.isLt

/-- A sum over the entries of a vector is a sum over the coordinates of its point. -/
theorem sum_entry (n : ℕ) (f : ℕ → ℝ) : Scalar.sum n f = ∑ i : Fin n, f i := by
  rw [Scalar.sum_eq, Fin.sum_univ_eq_sum_range]

theorem inner_eq (hx : x.size = n) : x.inner y = ⟪x.toSpace n, y.toSpace n⟫ := by
  rw [Vec.inner, hx, sum_entry, PiLp.inner_apply]
  exact Finset.sum_congr rfl fun i _ => mul_comm _ _

theorem normSq_eq (hx : x.size = n) : x.normSq = ‖x.toSpace n‖ ^ 2 := by
  rw [normSq, inner_eq hx, real_inner_self_eq_norm_sq]

theorem norm_eq (hx : x.size = n) : x.norm = ‖x.toSpace n‖ := by
  rw [Vec.norm, normSq_eq hx, Scalar.sqrt_eq, Real.sqrt_sq (norm_nonneg _)]

/-- The point of a share of the way between two vectors. -/
theorem toSpace_towards (hx : x.size = n) (t : ℝ) :
    (tabulate x.size fun i => x.entry i + t * (y.entry i - x.entry i)).toSpace n =
      x.toSpace n + t • (y.toSpace n - x.toSpace n) := by
  rw [hx, toSpace_tabulate]
  rfl

end Vec

/-! ## Matrices -/

namespace Matrix

/-- The linear map from `ℝⁿ` to `ℝᵐ` with the entries of a matrix as its coefficients. -/
noncomputable def toMap (A : Matrix ℝ) (m n : ℕ) :
    EuclideanSpace ℝ (Fin n) →ₗ[ℝ] EuclideanSpace ℝ (Fin m) where
  toFun v := WithLp.toLp _ fun i => ∑ j : Fin n, A.entry i j * v j
  map_add' v w := by
    ext i
    simp [mul_add, Finset.sum_add_distrib]
  map_smul' c v := by
    ext i
    simp [Finset.mul_sum, mul_left_comm]

@[simp] theorem toMap_apply (A : Matrix ℝ) (m n : ℕ) (v : EuclideanSpace ℝ (Fin n)) (i : Fin m) :
    A.toMap m n v i = ∑ j : Fin n, A.entry i j * v j := rfl

variable {A : Matrix ℝ} {m n : ℕ}

/-- The entries of `AᵀA` are the sums of products that they are in mathematics. -/
theorem entry_gram_eq (hA : A.HasShape m n) {i j : ℕ} (hi : i < n) (hj : j < n) :
    A.gram.entry i j = ∑ k : Fin m, A.entry k i * A.entry k j := by
  rw [entry_gram (hA.2.symm ▸ hi) (hA.2.symm ▸ hj), Vec.inner, size_column, hA.1, Vec.sum_entry]
  rfl

/-- The inner product of two images is the form of `AᵀA`. -/
theorem inner_toMap (hA : A.HasShape m n) (v w : EuclideanSpace ℝ (Fin n)) :
    ⟪A.toMap m n v, A.toMap m n w⟫ = ∑ i : Fin n, (∑ j : Fin n, A.gram.entry i j * v j) * w i := by
  have hentry : ∀ i j : Fin n, A.gram.entry i j = ∑ k : Fin m, A.entry k i * A.entry k j :=
    fun i j => entry_gram_eq hA i.isLt j.isLt
  calc ⟪A.toMap m n v, A.toMap m n w⟫
      = ∑ k : Fin m, (∑ i : Fin n, A.entry k i * w i) * ∑ j : Fin n, A.entry k j * v j := by
        rw [PiLp.inner_apply]
        rfl
    _ = ∑ k : Fin m, ∑ i : Fin n, ∑ j : Fin n, A.entry k i * w i * (A.entry k j * v j) :=
        Finset.sum_congr rfl fun k _ => Finset.sum_mul_sum _ _ _ _
    _ = ∑ i : Fin n, ∑ j : Fin n, ∑ k : Fin m, A.entry k i * w i * (A.entry k j * v j) := by
        rw [Finset.sum_comm]
        exact Finset.sum_congr rfl fun i _ => Finset.sum_comm
    _ = ∑ i : Fin n, (∑ j : Fin n, A.gram.entry i j * v j) * w i := by
        refine Finset.sum_congr rfl fun i _ => ?_
        rw [Finset.sum_mul]
        refine Finset.sum_congr rfl fun j _ => ?_
        rw [hentry, Finset.sum_mul, Finset.sum_mul]
        exact Finset.sum_congr rfl fun k _ => by ring

end Matrix

/-! ## The model -/

namespace Model

variable {n m : ℕ} {l : Linearization ℝ}

/-- **The quadratic form of the model is a square length**: `v·B v = ‖J v‖²` for `B = JᵀJ`. -/
theorem curvatureAt_holding (hl : l.check n m = .ok ()) {v : Vec ℝ} (hv : v.size = n) :
    (holding n m l).curvatureAt v = ‖l.jacobian.toMap m n (v.toSpace n)‖ ^ 2 := by
  have hJ : l.jacobian.HasShape m n := Linearization.hasShape_jacobian hl
  have hgram : l.jacobian.gram.rows = n := hJ.2
  rw [← real_inner_self_eq_norm_sq, Matrix.inner_toMap hJ, curvatureAt, Scalar.sumFrom_eq, neg_zero,
    hv, ← Fin.sum_univ_eq_sum_range, zero_add]
  refine Finset.sum_congr rfl fun j _ => ?_
  congr 1
  rw [Vec.inner, Matrix.size_column, show (holding n m l).hessian = l.jacobian.gram from rfl, hgram,
    Vec.sum_entry]
  refine Finset.sum_congr rfl fun i _ => ?_
  rw [Vec.toSpace_apply]
  congr 1
  show l.jacobian.gram.entry i j = _
  rw [Matrix.entry_gram_eq hJ i.isLt j.isLt, Matrix.entry_gram_eq hJ j.isLt i.isLt]
  exact Finset.sum_congr rfl fun k _ => mul_comm _ _

/-- By how much the model falls up to a step. -/
theorem reductionAt_holding (hl : l.check n m = .ok ()) {h : Vec ℝ} (hh : h.size = n) :
    (holding n m l).reductionAt h =
      -(⟪l.gradient.toSpace n, h.toSpace n⟫ +
        ‖l.jacobian.toMap m n (h.toSpace n)‖ ^ 2 / 2) := by
  rw [reductionAt, curvatureAt_holding hl hh, Vec.inner_eq hh, Scalar.half_eq, real_inner_comm,
    one_div_mul_eq_div]
  rfl

end Model

end TrustRegion
