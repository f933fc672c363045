import Mathlib
import TrustRegion.Linear.Matrix
import TrustRegion.Proofs.Exact.Scalar

/-!
# Inner products, norms and columns

The inner product of exact vectors is a finite sum (`Vec.inner_eq_sum`), and has the laws of one; so
have the inner products of the columns of a matrix, which are the entries of `AᵀA`.
-/

namespace TrustRegion

open Finset

namespace Vec

variable {x y : Vec ℝ}

theorem inner_eq_sum (x y : Vec ℝ) : x.inner y = ∑ i ∈ range x.size, x.entry i * y.entry i :=
  Scalar.sum_eq _ _

protected theorem inner_comm (h : x.size = y.size) : x.inner y = y.inner x := by
  rw [inner_eq_sum, inner_eq_sum, h]
  exact sum_congr rfl fun _ _ => mul_comm _ _

protected theorem inner_neg (h : x.size = y.size) : x.inner y.neg = -x.inner y := by
  rw [inner_eq_sum, inner_eq_sum, ← sum_neg_distrib]
  refine sum_congr rfl fun i hi => ?_
  rw [entry_neg (h ▸ mem_range.1 hi)]
  exact mul_neg _ _

theorem normSq_nonneg (x : Vec ℝ) : 0 ≤ x.normSq := by
  rw [normSq, inner_eq_sum]
  exact sum_nonneg fun _ _ => mul_self_nonneg _

theorem norm_mul_self (x : Vec ℝ) : x.norm * x.norm = x.normSq :=
  Real.mul_self_sqrt x.normSq_nonneg

protected theorem norm_nonneg (x : Vec ℝ) : 0 ≤ x.norm := Real.sqrt_nonneg _

/-- A vector without length has no entry but zero. -/
theorem entry_eq_zero_of_norm (h : x.norm = 0) (i : ℕ) : x.entry i = 0 := by
  rcases Nat.lt_or_ge i x.size with hi | hi
  · have hsum : ∑ i ∈ range x.size, x.entry i * x.entry i = 0 := by
      rw [← inner_eq_sum, ← normSq, ← norm_mul_self, h, mul_zero]
    rw [sum_eq_zero_iff_of_nonneg fun _ _ => mul_self_nonneg _] at hsum
    exact mul_self_eq_zero.1 (hsum i (mem_range.2 hi))
  · exact entry_of_size_le hi

/-- No entry is larger than the norm. -/
theorem abs_entry_le_norm (x : Vec ℝ) (i : ℕ) : |x.entry i| ≤ x.norm := by
  rcases Nat.lt_or_ge i x.size with hi | hi
  · refine abs_le_of_sq_le_sq ?_ x.norm_nonneg
    rw [sq, sq, norm_mul_self, normSq, inner_eq_sum]
    exact single_le_sum (f := fun j => x.entry j * x.entry j) (fun j _ => mul_self_nonneg _)
      (mem_range.2 hi)
  · rw [entry_of_size_le hi]
    exact abs_zero.trans_le x.norm_nonneg

theorem norm_zeros (n : ℕ) : (zeros n : Vec ℝ).norm = 0 := by
  have hsum : (zeros n : Vec ℝ).normSq = 0 := by
    rw [normSq, inner_eq_sum]
    exact sum_eq_zero fun i _ => by rw [entry_zeros]; exact mul_zero _
  exact mul_self_eq_zero.1 ((norm_mul_self _).trans hsum)

/-! ### Multiples -/

theorem entry_scale_eq (x : Vec ℝ) (c : ℝ) (i : ℕ) : (x.scale c).entry i = x.entry i * c := by
  rcases Nat.lt_or_ge i x.size with hi | hi
  · exact entry_scale c hi
  · rw [entry_of_size_le hi, entry_of_size_le (by simpa using hi), zero_mul]

/-- The inner product is of the first degree in either vector. -/
theorem inner_scale (x y : Vec ℝ) (a b : ℝ) :
    (x.scale a).inner (y.scale b) = x.inner y * (a * b) := by
  rw [inner_eq_sum, inner_eq_sum, size_scale, sum_mul]
  refine sum_congr rfl fun i _ => ?_
  rw [entry_scale_eq, entry_scale_eq]
  ring

theorem norm_scale (x : Vec ℝ) (c : ℝ) : (x.scale c).norm = x.norm * |c| := by
  rw [norm, normSq, inner_scale, Scalar.sqrt_eq, Real.sqrt_mul' _ (mul_self_nonneg c),
    Real.sqrt_mul_self_eq_abs]
  rfl

end Vec

namespace Matrix

variable {A : Matrix ℝ} {d x : Vec ℝ} {i j : ℕ}

theorem entry_gram_comm (hi : i < A.cols) (hj : j < A.cols) : A.gram.entry i j = A.gram.entry j i := by
  rw [entry_gram hi hj, entry_gram hj hi, Vec.inner_comm]
  rw [size_column, size_column]

/-- To scale the columns is to scale the inner products with them. -/
theorem inner_column_scaleColumns (hi : i < A.cols) :
    ((A.scaleColumns d).column i).inner x = (A.column i).inner x * d.entry i := by
  have hshape := A.hasShape_scaleColumns d
  rw [Vec.inner_eq_sum, Vec.inner_eq_sum, size_column, size_column, hshape.1, sum_mul]
  refine sum_congr rfl fun k hk => ?_
  show (A.scaleColumns d).entry k i * _ = A.entry k i * _ * _
  rw [entry_scaleColumns _ (mem_range.1 hk) hi]
  ring

theorem entry_gram_scaleColumns (hi : i < A.cols) (hj : j < A.cols) :
    (A.scaleColumns d).gram.entry i j = A.gram.entry i j * d.entry i * d.entry j := by
  have hshape := A.hasShape_scaleColumns d
  rw [entry_gram (hshape.2.symm ▸ hi) (hshape.2.symm ▸ hj), inner_column_scaleColumns hi,
    Vec.inner_comm, inner_column_scaleColumns hj, entry_gram hi hj, Vec.inner_comm]
  · ring
  · rw [size_column, size_column]
  · rw [size_column, size_column, hshape.1]

end Matrix

end TrustRegion
