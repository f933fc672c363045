import Mathlib
import TrustRegion.Proofs.Linear.Cholesky

/-!
# Pivots belong to the matrix

A matrix can be written as `M Mᵀ`, with a lower triangular `M`, in several ways, but all of them have
the same squares on the diagonal of `M`: the square in row `i` is the least value of the quadratic form
on the vectors that are `1` at `i` and `0` from there on (`sq_diagonal_le`).  So the pivots of one
factorisation are those of any other (**`sq_diagonal_eq`**).  Where the rows and columns of a matrix are
scaled, the pivots of its Cholesky factor are scaled along
(**`Cholesky.Factored.sq_diagonal_eq_of_scaled`**).
-/

namespace TrustRegion

open Finset

variable {n : ℕ} {M N : ℕ → ℕ → ℝ}

/-- Are the entries above the diagonal zero? -/
def IsLower (n : ℕ) (M : ℕ → ℕ → ℝ) : Prop := ∀ i < n, ∀ j < n, i < j → M i j = 0

/-- Two rows of a lower triangular matrix have no more in common than the shorter of them is long. -/
theorem IsLower.sum_rows (hM : IsLower n M) {i k : ℕ} (hik : i < k) (hk : k ≤ n) (j : ℕ) :
    ∑ t ∈ range n, M i t * M j t = ∑ t ∈ range k, M i t * (1 * M j t) := by
  rw [← sum_subset (range_subset_range.2 hk)]
  · exact sum_congr rfl fun t _ => by rw [one_mul]
  · intro t ht htk
    have htk' : k ≤ t := by simpa using htk
    rw [hM i (by omega) t (mem_range.1 ht) (by omega), zero_mul]

/-- The quadratic form of a leading block of `M Mᵀ` is a sum of squares. -/
theorem IsLower.form_leading (hM : IsLower n M) {k : ℕ} (hk : k ≤ n) (x : ℕ → ℝ) :
    ∑ i ∈ range k, (∑ j ∈ range k, (∑ t ∈ range n, M i t * M j t) * x j) * x i =
      ∑ t ∈ range k, (∑ i ∈ range k, M i t * x i) ^ 2 := by
  rw [form_eq_sum_sq (d := fun _ => 1) (M := M) fun i hi j _ => hM.sum_rows hi hk j]
  exact sum_congr rfl fun t _ => one_mul _

/-- No factor has a smaller pivot than another. -/
theorem sq_diagonal_le (hM : IsLower n M) (hN : IsLower n N) (hdiag : ∀ i < n, N i i ≠ 0)
    (h : ∀ i < n, ∀ j < n, ∑ t ∈ range n, M i t * M j t = ∑ t ∈ range n, N i t * N j t)
    {i : ℕ} (hi : i < n) : M i i ^ 2 ≤ N i i ^ 2 := by
  -- a vector that is `1` at `i`, and on which the form has the pivot of `N` as its value
  obtain ⟨x, hx⟩ := exists_solves_of_upper (n := i + 1) (A := fun t k => N k t)
    (fun t ht k hk hkt => hN k (by omega) t (by omega) hkt) (fun t ht => hdiag t (by omega))
    fun t => if t = i then N i i else 0
  have hrow : ∀ t < i + 1, ∑ k ∈ range (i + 1), N k t * x k = if t = i then N i i else 0 := hx
  have hlast : ∀ {L : ℕ → ℕ → ℝ}, IsLower n L →
      ∑ k ∈ range (i + 1), L k i * x k = L i i * x i := by
    intro L hL
    rw [sum_range_succ, sum_eq_zero, zero_add]
    intro k hk
    have hk' := mem_range.1 hk
    rw [hL k (by omega) i hi hk', zero_mul]
  have hxi : x i = 1 := by
    have hself := hrow i (Nat.lt_succ_self i)
    rw [hlast hN, if_pos rfl] at hself
    exact mul_left_cancel₀ (hdiag i hi) (hself.trans (mul_one _).symm)
  calc M i i ^ 2
      = (∑ k ∈ range (i + 1), M k i * x k) ^ 2 := by rw [hlast hM, hxi, mul_one]
    _ ≤ ∑ t ∈ range (i + 1), (∑ k ∈ range (i + 1), M k t * x k) ^ 2 :=
        single_le_sum (f := fun t => (∑ k ∈ range (i + 1), M k t * x k) ^ 2)
          (fun _ _ => sq_nonneg _) (mem_range.2 (Nat.lt_succ_self i))
    _ = ∑ t ∈ range (i + 1), (∑ k ∈ range (i + 1), N k t * x k) ^ 2 := by
        rw [← hM.form_leading hi, ← hN.form_leading hi]
        refine sum_congr rfl fun r hr => ?_
        congr 1
        refine sum_congr rfl fun c hc => ?_
        have hr' := mem_range.1 hr
        have hc' := mem_range.1 hc
        rw [h r (by omega) c (by omega)]
    _ = N i i ^ 2 := by
        rw [sum_range_succ, sum_eq_zero, zero_add, hrow i (Nat.lt_succ_self i), if_pos rfl]
        intro t ht
        have ht' := mem_range.1 ht
        rw [hrow t (by omega), if_neg ht'.ne]
        exact zero_pow two_ne_zero

/-- **Pivots belong to the matrix**, not to the way in which it is factored. -/
theorem sq_diagonal_eq (hM : IsLower n M) (hN : IsLower n N) (hdiagM : ∀ i < n, M i i ≠ 0)
    (hdiagN : ∀ i < n, N i i ≠ 0)
    (h : ∀ i < n, ∀ j < n, ∑ t ∈ range n, M i t * M j t = ∑ t ∈ range n, N i t * N j t)
    {i : ℕ} (hi : i < n) : M i i ^ 2 = N i i ^ 2 :=
  le_antisymm (sq_diagonal_le hM hN hdiagN h hi)
    (sq_diagonal_le hN hM hdiagM (fun i hi j hj => (h i hi j hj).symm) hi)

namespace Cholesky.Factored

variable {A W : Matrix ℝ} {d : ℕ → ℝ}

/-- Scaled along with the rows and columns of the matrix, the pivots of a Cholesky factor are those of
any factorisation of the scaled matrix. -/
theorem sq_diagonal_eq_of_scaled (h : Factored A W n n) (hd : ∀ i < n, d i ≠ 0) (hN : IsLower n N)
    (hdiag : ∀ i < n, N i i ≠ 0)
    (hproduct : ∀ i < n, ∀ j < n, symmetric A i j * d i * d j = ∑ t ∈ range n, N i t * N j t)
    {i : ℕ} (hi : i < n) : (d i * W.entry i i) ^ 2 = N i i ^ 2 := by
  have hM : IsLower n fun i t => d i * left W i t := fun i _ j _ hij =>
    mul_eq_zero_of_right _ (left_of_gt hij)
  rw [← left_of_le (W := W) (le_refl i)]
  refine sq_diagonal_eq hM hN (fun i hi => mul_ne_zero (hd i hi) ?_) hdiag (fun i hi j hj => ?_) hi
  · rw [left_of_le le_rfl]
    exact (h.pos i hi).ne'
  · rw [← hproduct i hi j hj, h.symmetric_eq i hi j hj, sum_mul, sum_mul]
    exact sum_congr rfl fun t _ => by ring

end Cholesky.Factored

end TrustRegion
