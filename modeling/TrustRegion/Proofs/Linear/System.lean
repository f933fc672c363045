import Mathlib

/-!
# Square systems of linear equations

A factorisation is used twice: a solution of the factored system solves the original one, and if no
factor is singular, the original is not.  This file says both for a product of two matrices
(`Solves.mul`, `Nonsingular.mul`), for rearranged rows (`Solves.of_rows`, `Nonsingular.of_rows`) and for
rows and columns that were scaled (`Solves.unscale`, `Nonsingular.unscale`).

A factorisation must also not give up where it need not.  For this the other direction is there too: a
nonsingular matrix has nonsingular factors (`Nonsingular.right`, `Nonsingular.rows`,
`Nonsingular.scale`), and a nonsingular triangular matrix has no zero on its diagonal
(`diagonal_ne_zero_of_upper`).

Matrices are functions of two indices here, of which only the values below `n` matter.
-/

namespace TrustRegion

open Finset

/-- Is `x` a solution of the equations `A x = b` in `n` unknowns? -/
def Solves (n : ℕ) (A : ℕ → ℕ → ℝ) (x b : ℕ → ℝ) : Prop :=
  ∀ i < n, ∑ j ∈ range n, A i j * x j = b i

/-- Has `A x = 0` the solution zero only? -/
def Nonsingular (n : ℕ) (A : ℕ → ℕ → ℝ) : Prop :=
  ∀ x : ℕ → ℝ, Solves n A x 0 → ∀ i < n, x i = 0

variable {n : ℕ} {A B C : ℕ → ℕ → ℝ} {x y b d : ℕ → ℝ} {σ : ℕ → ℕ}

/-- Only the entries below `n` matter. -/
theorem Solves.congr (h : Solves n A x b) (hA : ∀ i < n, ∀ j < n, B i j = A i j)
    (hb : ∀ i < n, y i = b i) : Solves n B x y := by
  intro i hi
  rw [hb i hi, ← h i hi]
  exact sum_congr rfl fun j hj => by rw [hA i hi j (mem_range.1 hj)]

theorem Solves.congr_solution (h : Solves n A x b) (hx : ∀ i < n, y i = x i) : Solves n A y b := by
  intro i hi
  rw [← h i hi]
  exact sum_congr rfl fun j hj => by rw [hx j (mem_range.1 hj)]

theorem Nonsingular.congr (h : Nonsingular n A) (hA : ∀ i < n, ∀ j < n, A i j = B i j) :
    Nonsingular n B :=
  fun _ hx => h _ (hx.congr hA fun _ _ => rfl)

/-- A nonsingular system has no two solutions. -/
theorem Nonsingular.unique (h : Nonsingular n A) (hx : Solves n A x b) (hy : Solves n A y b) :
    ∀ i < n, x i = y i := by
  have hdiff : Solves n A (fun j => x j - y j) 0 := by
    intro i hi
    simp only [mul_sub, sum_sub_distrib]
    rw [hx i hi, hy i hi]
    exact sub_self _
  exact fun i hi => sub_eq_zero.1 (h _ hdiff i hi)

/-! ## Products -/

theorem sum_mul_sum_eq (hA : ∀ i < n, ∀ j < n, A i j = ∑ t ∈ range n, B i t * C t j) {i : ℕ}
    (hi : i < n) (x : ℕ → ℝ) :
    ∑ j ∈ range n, A i j * x j = ∑ t ∈ range n, B i t * ∑ j ∈ range n, C t j * x j := by
  calc ∑ j ∈ range n, A i j * x j
      = ∑ j ∈ range n, ∑ t ∈ range n, B i t * (C t j * x j) := by
        refine sum_congr rfl fun j hj => ?_
        rw [hA i hi j (mem_range.1 hj), sum_mul]
        exact sum_congr rfl fun t _ => mul_assoc _ _ _
    _ = ∑ t ∈ range n, ∑ j ∈ range n, B i t * (C t j * x j) := sum_comm
    _ = ∑ t ∈ range n, B i t * ∑ j ∈ range n, C t j * x j :=
        sum_congr rfl fun t _ => (mul_sum _ _ _).symm

/-- A product is solved one factor after the other. -/
theorem Solves.mul (hA : ∀ i < n, ∀ j < n, A i j = ∑ t ∈ range n, B i t * C t j)
    (hC : Solves n C x y) (hB : Solves n B y b) : Solves n A x b := by
  intro i hi
  rw [sum_mul_sum_eq hA hi, ← hB i hi]
  exact sum_congr rfl fun t ht => by rw [hC t (mem_range.1 ht)]

theorem Nonsingular.mul (hA : ∀ i < n, ∀ j < n, A i j = ∑ t ∈ range n, B i t * C t j)
    (hB : Nonsingular n B) (hC : Nonsingular n C) : Nonsingular n A := by
  intro x hx
  refine hC x fun t ht => hB (fun t => ∑ j ∈ range n, C t j * x j) (fun i hi => ?_) t ht
  rw [← sum_mul_sum_eq hA hi]
  exact hx i hi

/-- The last factor of a nonsingular product is nonsingular. -/
theorem Nonsingular.right (hA : ∀ i < n, ∀ j < n, A i j = ∑ t ∈ range n, B i t * C t j)
    (h : Nonsingular n A) : Nonsingular n C := by
  intro x hx
  refine h x fun i hi => ?_
  rw [sum_mul_sum_eq hA hi]
  refine sum_eq_zero fun t ht => ?_
  rw [hx t (mem_range.1 ht)]
  exact mul_zero _

/-! ## Rearranged rows -/

theorem Solves.of_rows (hσ : ∀ i < n, ∃ r < n, σ r = i)
    (h : Solves n (fun r j => A (σ r) j) x fun r => b (σ r)) : Solves n A x b := by
  intro i hi
  obtain ⟨r, hr, rfl⟩ := hσ i hi
  exact h r hr

theorem Nonsingular.of_rows (hσ : ∀ r < n, σ r < n)
    (h : Nonsingular n fun r j => A (σ r) j) : Nonsingular n A :=
  fun x hx => h x fun r hr => hx (σ r) (hσ r hr)

theorem Nonsingular.rows (hσ : ∀ i < n, ∃ r < n, σ r = i) (h : Nonsingular n A) :
    Nonsingular n fun r j => A (σ r) j :=
  fun x hx => h x (Solves.of_rows (b := 0) hσ hx)

/-! ## Scaled rows and columns -/

theorem sum_scaled (i : ℕ) (x : ℕ → ℝ) :
    ∑ j ∈ range n, A i j * d i * d j * x j = (∑ j ∈ range n, A i j * (x j * d j)) * d i := by
  rw [sum_mul]
  exact sum_congr rfl fun j _ => by ring

/-- A solution of the scaled system, scaled back. -/
theorem Solves.unscale (hd : ∀ i < n, d i ≠ 0)
    (h : Solves n (fun i j => A i j * d i * d j) x fun i => b i * d i) :
    Solves n A (fun j => x j * d j) b := by
  intro i hi
  have := h i hi
  rw [sum_scaled] at this
  exact mul_right_cancel₀ (hd i hi) this

theorem Nonsingular.unscale (hd : ∀ i < n, d i ≠ 0)
    (h : Nonsingular n fun i j => A i j * d i * d j) : Nonsingular n A := by
  intro x hx i hi
  have hscaled : Solves n (fun i j => A i j * d i * d j) (fun j => x j / d j) 0 := by
    intro k hk
    rw [sum_scaled]
    have hsame : ∀ j ∈ range n, A k j * (x j / d j * d j) = A k j * x j := fun j hj => by
      rw [div_mul_cancel₀ _ (hd j (mem_range.1 hj))]
    rw [sum_congr rfl hsame, hx k hk]
    exact zero_mul _
  have hzero := h _ hscaled i hi
  exact (div_eq_zero_iff.1 hzero).resolve_right (hd i hi)

theorem Nonsingular.scale (hd : ∀ i < n, d i ≠ 0) (h : Nonsingular n A) :
    Nonsingular n fun i j => A i j * d i * d j := by
  intro x hx i hi
  have hback : Solves n A (fun j => x j * d j) 0 :=
    Solves.unscale hd (hx.congr (fun _ _ _ _ => rfl) fun _ _ => zero_mul _)
  exact (mul_eq_zero.1 (h _ hback i hi)).resolve_right (hd i hi)

/-! ## Triangular matrices -/

/-- A lower triangular matrix without zeros on its diagonal is nonsingular. -/
theorem nonsingular_of_lower (hzero : ∀ i < n, ∀ j < n, i < j → A i j = 0)
    (hdiag : ∀ i < n, A i i ≠ 0) : Nonsingular n A := by
  intro x hx i hi
  -- the unknowns vanish from the top on
  induction i using Nat.strong_induction_on with
  | _ i ih =>
      have hrow := hx i hi
      rw [sum_eq_single_of_mem i (mem_range.2 hi)] at hrow
      · exact (mul_eq_zero.1 hrow).resolve_left (hdiag i hi)
      · intro j hj hne
        rcases lt_or_gt_of_ne hne with hlt | hgt
        · rw [ih j hlt (mem_range.1 hj), mul_zero]
        · rw [hzero i hi j (mem_range.1 hj) hgt, zero_mul]

/-- An upper triangular matrix without zeros on its diagonal is nonsingular. -/
theorem nonsingular_of_upper (hzero : ∀ i < n, ∀ j < n, j < i → A i j = 0)
    (hdiag : ∀ i < n, A i i ≠ 0) : Nonsingular n A := by
  intro x hx i hi
  -- the unknowns vanish from the bottom on
  induction hk : n - i using Nat.strong_induction_on generalizing i with
  | _ k ih =>
      have hrow := hx i hi
      rw [sum_eq_single_of_mem i (mem_range.2 hi)] at hrow
      · exact (mul_eq_zero.1 hrow).resolve_left (hdiag i hi)
      · intro j hj hne
        have hj' := mem_range.1 hj
        rcases lt_or_gt_of_ne hne with hlt | hgt
        · rw [hzero i hi j hj' hlt, zero_mul]
        · rw [ih (n - j) (by omega) j hj' rfl, mul_zero]

/-- An upper triangular system without zeros on its diagonal has a solution. -/
theorem exists_solves_of_upper (hzero : ∀ i < n, ∀ j < n, j < i → A i j = 0)
    (hdiag : ∀ i < n, A i i ≠ 0) (b : ℕ → ℝ) : ∃ x, Solves n A x b := by
  induction n generalizing b with
  | zero => exact ⟨0, fun i hi => absurd hi (Nat.not_lt_zero i)⟩
  | succ n ih =>
      -- the last unknown is settled first, and its share goes to the right-hand side
      obtain ⟨y, hy⟩ := ih (fun i hi j hj => hzero i (by omega) j (by omega))
        (fun i hi => hdiag i (by omega)) fun i => b i - A i n * (b n / A n n)
      refine ⟨fun j => if j = n then b n / A n n else y j, fun i hi => ?_⟩
      have hsum : ∑ j ∈ range n, A i j * (if j = n then b n / A n n else y j) =
          ∑ j ∈ range n, A i j * y j :=
        sum_congr rfl fun j hj => by rw [if_neg (mem_range.1 hj).ne]
      rw [sum_range_succ, hsum]
      dsimp only
      rw [if_pos rfl]
      rcases Nat.lt_succ_iff_lt_or_eq.1 hi with hlt | rfl
      · rw [hy i hlt]
        ring
      · rw [sum_eq_zero fun j hj => ?_, zero_add, mul_div_cancel₀ _ (hdiag i hi)]
        rw [hzero i hi j (by have := mem_range.1 hj; omega) (mem_range.1 hj), zero_mul]

/-- A nonsingular upper triangular matrix has no zero on its diagonal. -/
theorem diagonal_ne_zero_of_upper (hzero : ∀ i < n, ∀ j < n, j < i → A i j = 0)
    (h : Nonsingular n A) : ∀ i < n, A i i ≠ 0 := by
  intro i hi
  induction i using Nat.strong_induction_on with
  | _ i ih =>
      intro hdiag
      -- at the first zero, the column is a combination of the columns before it
      obtain ⟨y, hy⟩ := exists_solves_of_upper (n := i) (A := A)
        (fun r hr j hj => hzero r (by omega) j (by omega)) (fun r hr => ih r hr (by omega))
        fun r => -A r i
      let x : ℕ → ℝ := fun j => if j < i then y j else if j = i then 1 else 0
      have hsum : ∀ r, ∑ j ∈ range n, A r j * x j = ∑ j ∈ range i, A r j * y j + A r i := by
        intro r
        rw [← sum_subset (range_subset_range.2 (show i + 1 ≤ n by omega)), sum_range_succ]
        · congr 1
          · exact sum_congr rfl fun j hj => by simp only [x, if_pos (mem_range.1 hj)]
          · simp only [x, lt_irrefl, if_false, if_true, mul_one]
        · intro j _ hj
          have hj' : i + 1 ≤ j := by simpa using hj
          simp only [x, if_neg (show ¬j < i by omega), if_neg (show ¬j = i by omega), mul_zero]
      have hsolves : Solves n A x 0 := by
        intro r hr
        rw [hsum]
        rcases Nat.lt_or_ge r i with hri | hir
        · rw [hy r hri]
          exact neg_add_cancel _
        · have hrow : ∑ j ∈ range i, A r j * y j = 0 := sum_eq_zero fun j hj => by
            have hj' := mem_range.1 hj
            rw [hzero r hr j (by omega) (by omega), zero_mul]
          rw [hrow, zero_add]
          rcases hir.eq_or_lt with rfl | hlt
          · exact hdiag
          · exact hzero r hr i hi hlt
      have hxi := h x hsolves i hi
      simp only [x, lt_irrefl, if_false, if_true] at hxi
      exact one_ne_zero hxi

/-! ## Positive definite matrices -/

/-- Is the quadratic form of the matrix positive, except at zero? -/
def Positive (n : ℕ) (A : ℕ → ℕ → ℝ) : Prop :=
  ∀ x : ℕ → ℝ, (∃ i < n, x i ≠ 0) →
    0 < ∑ i ∈ range n, (∑ j ∈ range n, A i j * x j) * x i

theorem Positive.congr (h : Positive n A) (hA : ∀ i < n, ∀ j < n, A i j = B i j) :
    Positive n B := by
  intro x hx
  refine (h x hx).trans_eq (sum_congr rfl fun i hi => ?_)
  congr 1
  exact sum_congr rfl fun j hj => by rw [hA i (mem_range.1 hi) j (mem_range.1 hj)]

/-- A leading block of a positive definite matrix is positive definite. -/
theorem Positive.leading {k : ℕ} (h : Positive n A) (hk : k ≤ n) : Positive k A := by
  intro x ⟨i, hi, hne⟩
  -- the vector is continued by zeros
  have hpos := h (fun j => if j < k then x j else 0) ⟨i, by omega, by rwa [if_pos hi]⟩
  have hcut : ∀ f : ℕ → ℝ, ∑ j ∈ range n, f j * (if j < k then x j else 0) =
      ∑ j ∈ range k, f j * x j := by
    intro f
    rw [← sum_subset (range_subset_range.2 hk)]
    · exact sum_congr rfl fun j hj => by rw [if_pos (mem_range.1 hj)]
    · intro j _ hj
      rw [if_neg (by simpa using hj), mul_zero]
  simpa only [hcut] using hpos

/-- The diagonal of a positive definite matrix is positive. -/
theorem Positive.diagonal_pos (h : Positive n A) {i : ℕ} (hi : i < n) : 0 < A i i := by
  have hpos := h (fun j => if j = i then 1 else 0) ⟨i, hi, by simp⟩
  simpa [hi] using hpos

theorem Positive.scale (hd : ∀ i < n, d i ≠ 0) (h : Positive n A) :
    Positive n fun i j => A i j * d i * d j := by
  intro x ⟨i, hi, hne⟩
  refine (h (fun j => x j * d j) ⟨i, hi, mul_ne_zero hne (hd i hi)⟩).trans_eq ?_
  refine sum_congr rfl fun i _ => ?_
  rw [sum_scaled]
  ring

theorem Positive.unscale (hd : ∀ i < n, d i ≠ 0) (h : Positive n fun i j => A i j * d i * d j) :
    Positive n A := by
  refine (h.scale (d := fun i => (d i)⁻¹) fun i hi => inv_ne_zero (hd i hi)).congr
    fun i hi j hj => ?_
  have hdi := hd i hi
  have hdj := hd j hj
  field_simp

/-- The quadratic form of `M D Mᵀ`, with a diagonal matrix `D`, is a sum of squares with the entries of
`D` as their weights. -/
theorem form_eq_sum_sq {M : ℕ → ℕ → ℝ}
    (hA : ∀ i < n, ∀ j < n, A i j = ∑ t ∈ range n, M i t * (d t * M j t)) (x : ℕ → ℝ) :
    ∑ i ∈ range n, (∑ j ∈ range n, A i j * x j) * x i =
      ∑ t ∈ range n, d t * (∑ i ∈ range n, M i t * x i) ^ 2 := by
  have himage : ∀ i ∈ range n, (∑ j ∈ range n, A i j * x j) * x i =
      ∑ t ∈ range n, d t * (∑ j ∈ range n, M j t * x j) * (M i t * x i) := by
    intro i hi
    rw [sum_mul_sum_eq hA (mem_range.1 hi), sum_mul]
    refine sum_congr rfl fun t _ => ?_
    have hrow : ∑ j ∈ range n, d t * M j t * x j = d t * ∑ j ∈ range n, M j t * x j := by
      rw [mul_sum]
      exact sum_congr rfl fun j _ => mul_assoc _ _ _
    rw [hrow]
    ring
  rw [sum_congr rfl himage, sum_comm]
  refine sum_congr rfl fun t _ => ?_
  rw [← mul_sum]
  ring

end TrustRegion
