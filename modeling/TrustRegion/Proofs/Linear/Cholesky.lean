import Mathlib
import TrustRegion.Linear.Cholesky
import TrustRegion.Proofs.Linear.Triangular

/-!
# Cholesky factorisation is exact

In exact arithmetic a factorisation that succeeds writes the symmetric matrix with the given lower
triangle as `L Lᵀ`, with a positive diagonal in `L` (`Cholesky.factored_of_factor`).  The invariant of
the sweep, `Cholesky.Factored`, says this of the columns that are finished.

Main results: **`Cholesky.solves_solve`**, the solution belongs to that symmetric matrix,
**`Cholesky.nonsingular_symmetric`**, which is nonsingular, and **`Cholesky.exists_factor`**, the
factorisation succeeds if that matrix is positive definite.
-/

namespace TrustRegion

namespace Cholesky

open Finset

/-- The symmetric matrix with the given lower triangle. -/
noncomputable def symmetric (A : Matrix ℝ) (i j : ℕ) : ℝ :=
  if j ≤ i then A.entry i j else A.entry j i

/-- Are the first `k` columns those of a factor, and the others those of the matrix? -/
structure Factored (A W : Matrix ℝ) (n k : ℕ) : Prop where
  pos : ∀ c < k, 0 < W.entry c c
  /-- The lower triangle of the product is that of the matrix. -/
  product : ∀ c < k, ∀ i, c ≤ i → i < n →
    ∑ t ∈ range (c + 1), W.entry i t * W.entry c t = A.entry i c
  /-- Elsewhere nothing has changed. -/
  rest : ∀ i < n, ∀ c < n, k ≤ c ∨ i < c → W.entry i c = A.entry i c

variable {A W W' : Matrix ℝ} {n k : ℕ}

theorem factored_zero (A : Matrix ℝ) (n : ℕ) : Factored A A n 0 :=
  ⟨by simp, by simp, fun _ _ _ _ _ => rfl⟩

theorem remainder_eq (W : Matrix ℝ) (i j : ℕ) :
    remainder W i j = W.entry i j - ∑ t ∈ range j, W.entry j t * W.entry i t := Scalar.less_eq _ _ _

/-- A step succeeds only with a positive remainder on the diagonal. -/
theorem remainder_pos_of_step (h : step W k = some W') : 0 < remainder W k k := by
  rw [step] at h
  split at h
  · rename_i hpivot
    exact lt_of_le_of_ne hpivot.2 (Scalar.isZero_eq_false_iff.1 hpivot.1).symm
  · cases h

/-- One more column. -/
theorem Factored.succ (hW : Factored A W n k) (hshape : W.HasShape n n) (hk : k < n)
    (h : step W k = some W') : Factored A W' n (k + 1) := by
  have hpivot := remainder_pos_of_step h
  have hroot : Scalar.sqrt (remainder W k k) = √(remainder W k k) := rfl
  have hentry : ∀ i < n, ∀ c < n, W'.entry i c = _ := fun i hi c hc =>
    entry_step h (hshape.1.symm ▸ hi) (hshape.2.symm ▸ hc)
  have hkeep : ∀ i < n, ∀ c < n, ¬(c = k ∧ k ≤ i) → W'.entry i c = W.entry i c :=
    fun i hi c hc hne => by rw [hentry i hi c hc, if_neg hne]
  have hdiag : W'.entry k k = √(remainder W k k) := by
    rw [hentry k hk k hk, if_pos ⟨rfl, le_rfl⟩, if_pos rfl, hroot]
  have hpos : 0 < W'.entry k k := by
    rw [hdiag]
    exact Real.sqrt_pos.2 hpivot
  -- the new column times its diagonal entry is the remainder
  have hcolumn : ∀ i, k ≤ i → i < n → W'.entry i k * W'.entry k k = remainder W i k := by
    intro i hki hi
    rcases eq_or_ne i k with rfl | hne
    · rw [hdiag, Real.mul_self_sqrt hpivot.le]
    · rw [hentry i hi k hk, if_pos ⟨rfl, hki⟩, if_neg hne, hroot, ← hdiag, div_mul_cancel₀ _ hpos.ne']
  have hsum : ∀ i < n, ∀ c ≤ k, ∑ t ∈ range c, W'.entry i t * W'.entry k t =
      ∑ t ∈ range c, W.entry i t * W.entry k t := fun i hi c hc =>
    sum_congr rfl fun t ht => by
      have ht' := mem_range.1 ht
      rw [hkeep i hi t (by omega) (by omega), hkeep k hk t (by omega) (by omega)]
  refine ⟨fun c hc => ?_, fun c hc i hci hi => ?_, fun i hi c hc hcase => ?_⟩
  · rcases Nat.lt_succ_iff_lt_or_eq.1 hc with hlt | rfl
    · rw [hkeep c (by omega) c (by omega) (by omega)]
      exact hW.pos c hlt
    · exact hpos
  · rcases Nat.lt_succ_iff_lt_or_eq.1 hc with hlt | rfl
    · rw [← hW.product c hlt i hci hi]
      refine sum_congr rfl fun t ht => ?_
      have ht' := mem_range.1 ht
      rw [hkeep i hi t (by omega) (by omega), hkeep c (by omega) t (by omega) (by omega)]
    · rw [sum_range_succ, hsum i hi c le_rfl, hcolumn i hci hi, remainder_eq,
        hW.rest i hi c hk (Or.inl le_rfl)]
      simp only [mul_comm (W.entry i _)]
      ring
  · rw [hkeep i hi c hc (by omega)]
    exact hW.rest i hi c hc (by omega)

/-- The invariant of the sweep. -/
theorem factored_of_sweep (hA : A.HasShape n n) (hk : k ≤ n) (h : sweep k A = some W) :
    Factored A W n k := by
  induction k generalizing W with
  | zero =>
      cases h
      exact factored_zero A n
  | succ k ih =>
      obtain ⟨V, hV, hW⟩ := Option.bind_eq_some_iff.1 h
      exact (ih (by omega) hV).succ ((sameShape_sweep hV).hasShape hA) (by omega) hW

theorem factored_of_factor (hA : A.HasShape n n) (h : factor A = some W) : Factored A W n n :=
  factored_of_sweep hA le_rfl (by rw [← hA.2]; exact h)

namespace Factored

/-- The factor, with zeros above the diagonal. -/
noncomputable def left (W : Matrix ℝ) : ℕ → ℕ → ℝ := Triangular.lower W fun k => W.entry k k

theorem left_of_le {i j : ℕ} (h : j ≤ i) : left W i j = W.entry i j := by
  rcases h.eq_or_lt with rfl | hlt
  · exact Triangular.lower_self j
  · exact Triangular.lower_of_lt hlt

theorem left_of_gt {i j : ℕ} (h : i < j) : left W i j = 0 := Triangular.lower_of_gt h

variable (h : Factored A W n n)

include h

/-- The symmetric matrix is the product of the factor with its transpose. -/
theorem symmetric_eq : ∀ i < n, ∀ j < n,
    symmetric A i j = ∑ t ∈ range n, left W i t * left W j t := by
  -- the entry below the diagonal, from which the other follows by symmetry
  have hbelow : ∀ i < n, ∀ j ≤ i, A.entry i j = ∑ t ∈ range n, left W i t * left W j t := by
    intro i hi j hji
    rw [← h.product j (by omega) i hji hi,
      ← sum_subset (range_subset_range.2 (show j + 1 ≤ n by omega))]
    · refine sum_congr rfl fun t ht => ?_
      have ht' := mem_range.1 ht
      rw [left_of_le (by omega), left_of_le (by omega)]
    · intro t _ ht
      rw [left_of_gt (i := j) (by simpa using ht), mul_zero]
  intro i hi j hj
  unfold symmetric
  split
  · rename_i hji
    exact hbelow i hi j hji
  · rename_i hij
    rw [hbelow j hj i (by omega)]
    exact sum_congr rfl fun t _ => mul_comm _ _

theorem nonsingular_left : Nonsingular n (left W) :=
  Triangular.nonsingular_lower fun i hi => (h.pos i hi).ne'

theorem nonsingular_left_transpose : Nonsingular n fun i j => left W j i :=
  nonsingular_of_upper (fun _ _ _ _ hlt => left_of_gt hlt) fun i hi => by
    rw [left_of_le le_rfl]
    exact (h.pos i hi).ne'

/-- **The symmetric matrix is nonsingular.** -/
theorem nonsingular_symmetric : Nonsingular n (symmetric A) :=
  Nonsingular.mul (C := fun t j => left W j t) h.symmetric_eq h.nonsingular_left
    h.nonsingular_left_transpose

/-- **The symmetric matrix is positive definite.** -/
theorem positive_symmetric : Positive n (symmetric A) := by
  intro x ⟨i, hi, hne⟩
  rw [form_eq_sum_sq (d := fun _ => 1) (M := left W) fun i hi j hj => by
    simpa only [one_mul] using h.symmetric_eq i hi j hj]
  have hsquares : ∀ t ∈ range n, 0 ≤ 1 * (∑ i ∈ range n, left W i t * x i) ^ 2 := fun t _ => by
    positivity
  refine (sum_nonneg hsquares).lt_of_ne fun hzero => hne ?_
  -- where all squares vanish, the transpose of the factor takes the vector to zero
  refine h.nonsingular_left_transpose x (fun t ht => ?_) i hi
  simpa using (sum_eq_zero_iff_of_nonneg hsquares).1 hzero.symm t (mem_range.2 ht)

/-- **The solution belongs to the symmetric matrix.** -/
theorem solves_solve (hW : W.cols = n) {b : Vec ℝ} (hb : b.size = n) :
    Solves n (symmetric A) (solve W b).entry b.entry := by
  have hne : ∀ i < n, W.entry i i ≠ 0 := fun i hi => (h.pos i hi).ne'
  unfold solve
  rw [hW]
  exact Solves.mul (C := fun t j => left W j t) h.symmetric_eq
    (Triangular.solves_adjoint hne (by simpa using hb)) (Triangular.solves_forward hne hb)

end Factored

/-! ## Success -/

namespace Factored

/-- Column `t` of the factor so far, and below the finished columns those of the unit matrix. -/
noncomputable def unfinished (W : Matrix ℝ) (k i t : ℕ) : ℝ :=
  if t < k then left W i t else if i = t then 1 else 0

/-- With the remainder on the diagonal, the factor so far gives the leading block. -/
theorem leading_eq (h : Factored A W n k) (hk : k < n) : ∀ i < k + 1, ∀ j < k + 1,
    symmetric A i j = ∑ t ∈ range (k + 1),
      unfinished W k i t * ((if t < k then 1 else remainder W k k) * unfinished W k j t) := by
  -- the entry below the diagonal, from which the other follows by symmetry
  have hbelow : ∀ i < k + 1, ∀ j ≤ i, A.entry i j = ∑ t ∈ range (k + 1),
      unfinished W k i t * ((if t < k then 1 else remainder W k k) * unfinished W k j t) := by
    intro i hi j hji
    have hfinished : ∀ t < k, unfinished W k i t *
        ((if t < k then 1 else remainder W k k) * unfinished W k j t) = left W i t * left W j t :=
      fun t ht => by simp only [unfinished, if_pos ht, one_mul]
    rw [sum_range_succ, sum_congr rfl fun t ht => hfinished t (mem_range.1 ht)]
    simp only [unfinished, lt_irrefl, if_false]
    rcases Nat.lt_or_ge j k with hjk | hkj
    · rw [if_neg (show ¬j = k by omega), mul_zero, mul_zero, add_zero, ← h.product j hjk i hji (by omega),
        ← sum_subset (range_subset_range.2 (show j + 1 ≤ k by omega))]
      · refine sum_congr rfl fun t ht => ?_
        have ht' := mem_range.1 ht
        rw [left_of_le (by omega), left_of_le (by omega)]
      · intro t _ ht
        rw [left_of_gt (i := j) (by simpa using ht), mul_zero]
    · obtain rfl : i = k := by omega
      obtain rfl : j = i := by omega
      rw [if_pos rfl, remainder_eq, h.rest j hk j hk (Or.inl le_rfl)]
      have hsum : ∑ t ∈ range j, left W j t * left W j t = ∑ t ∈ range j, W.entry j t * W.entry j t :=
        sum_congr rfl fun t ht => by rw [left_of_le (mem_range.1 ht).le]
      rw [hsum]
      ring
  intro i hi j hj
  unfold symmetric
  split
  · rename_i hji
    exact hbelow i hi j hji
  · rename_i hij
    rw [hbelow j hj i (by omega)]
    exact sum_congr rfl fun t _ => by ring

/-- For a positive definite matrix, what remains on the diagonal is positive. -/
theorem remainder_pos (h : Factored A W n k) (hk : k < n) (hpos : Positive n (symmetric A)) :
    0 < remainder W k k := by
  have hentry : ∀ t < k, ∀ i, unfinished W k i t = left W i t := fun t ht i => if_pos ht
  have hlast : ∀ i, unfinished W k i k = if i = k then 1 else 0 := fun i => if_neg (lt_irrefl k)
  -- a vector on which the quadratic form has the remainder as its value
  obtain ⟨x, hx⟩ := exists_solves_of_upper (n := k + 1) (A := fun t i => unfinished W k i t)
    (fun t ht i hi hit => by
      rcases Nat.lt_succ_iff_lt_or_eq.1 ht with hlt | rfl
      · rw [hentry t hlt, left_of_gt hit]
      · rw [hlast, if_neg hit.ne])
    (fun t ht => by
      rcases Nat.lt_succ_iff_lt_or_eq.1 ht with hlt | rfl
      · rw [hentry t hlt, left_of_le le_rfl]
        exact (h.pos t hlt).ne'
      · rw [hlast, if_pos rfl]
        exact one_ne_zero)
    fun t => if t = k then 1 else 0
  have hcolumn : ∀ t < k + 1, ∑ i ∈ range (k + 1), unfinished W k i t * x i = if t = k then 1 else 0 :=
    hx
  have hxk : x k = 1 := by
    have hrow := hcolumn k (Nat.lt_succ_self k)
    rw [if_pos rfl, sum_range_succ, hlast, if_pos rfl, one_mul, sum_eq_zero fun i hi => ?_,
      zero_add] at hrow
    · exact hrow
    · rw [hlast, if_neg (mem_range.1 hi).ne, zero_mul]
  have hvalue := hpos.leading (k := k + 1) hk x ⟨k, Nat.lt_succ_self k, by rw [hxk]; exact one_ne_zero⟩
  rw [form_eq_sum_sq (h.leading_eq hk), sum_range_succ, sum_eq_zero fun t ht => ?_,
    hcolumn k (Nat.lt_succ_self k)] at hvalue
  · simpa using hvalue
  · have ht' := mem_range.1 ht
    rw [hcolumn t (by omega), if_neg ht'.ne]
    ring

end Factored

/-- **A positive definite matrix has a factor.** -/
theorem exists_factor (hA : A.HasShape n n) (hpos : Positive n (symmetric A)) :
    ∃ L, factor A = some L := by
  have hsweep : ∀ k ≤ n, ∃ W, sweep k A = some W := by
    intro k
    induction k with
    | zero => exact fun _ => ⟨A, rfl⟩
    | succ k ih =>
        intro hk
        obtain ⟨W, hW⟩ := ih (by omega)
        have hrem := (factored_of_sweep hA (by omega) hW).remainder_pos hk hpos
        have hadmissible : Admissible (remainder W k k) :=
          ⟨Scalar.isZero_eq_false_iff.2 hrem.ne', hrem.le⟩
        rw [sweep, hW, Option.bind_some, step, if_pos hadmissible]
        exact ⟨_, rfl⟩
  unfold factor
  rw [hA.2]
  exact hsweep n le_rfl

end Cholesky

end TrustRegion
