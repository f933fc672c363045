import Mathlib
import TrustRegion.Proofs.Exact.Scalar
import TrustRegion.Proofs.Linear.System

/-!
# Substitution solves triangular systems

Exact substitution in a triangular system gives its solution: downwards (`solves_forward`), upwards
(`solves_backward`), and upwards in the transpose (`solves_adjoint`).  The vector of each sweep is the
solution as far as the sweep has come, and the right-hand side of what remains elsewhere; the lemmas on
`k` settled unknowns say so.

Only one side of a stored matrix takes part.  `Triangular.lower` and `Triangular.upper` are the matrices
that are solved, with zeros on the other side.
-/

namespace TrustRegion

namespace Triangular

open Finset

/-! ## The two sides of a matrix -/

/-- The part of a matrix below the diagonal, with the given diagonal. -/
noncomputable def lower (L : Matrix ℝ) (diagonal : ℕ → ℝ) (i j : ℕ) : ℝ :=
  if j < i then L.entry i j else if j = i then diagonal i else 0

/-- The part of a matrix on and above the diagonal. -/
noncomputable def upper (U : Matrix ℝ) (i j : ℕ) : ℝ := if i ≤ j then U.entry i j else 0

variable {L U : Matrix ℝ} {diagonal : ℕ → ℝ} {n : ℕ}

theorem lower_of_lt {i j : ℕ} (h : j < i) : lower L diagonal i j = L.entry i j := if_pos h

@[simp] theorem lower_self (i : ℕ) : lower L diagonal i i = diagonal i := by
  unfold lower
  rw [if_neg (lt_irrefl i), if_pos rfl]

theorem lower_of_gt {i j : ℕ} (h : i < j) : lower L diagonal i j = 0 := by
  unfold lower
  rw [if_neg (by omega), if_neg (by omega)]

theorem upper_of_le {i j : ℕ} (h : i ≤ j) : upper U i j = U.entry i j := if_pos h

theorem upper_of_gt {i j : ℕ} (h : j < i) : upper U i j = 0 := if_neg (not_le.2 h)

theorem nonsingular_lower (hd : ∀ i < n, diagonal i ≠ 0) : Nonsingular n (lower L diagonal) :=
  nonsingular_of_lower (fun _ _ _ _ h => lower_of_gt h) fun i hi => by
    rw [lower_self]
    exact hd i hi

theorem nonsingular_upper (hU : ∀ i < n, U.entry i i ≠ 0) : Nonsingular n (upper U) :=
  nonsingular_of_upper (fun _ _ _ _ h => upper_of_gt h) fun i hi => by
    rw [upper_of_le le_rfl]
    exact hU i hi

/-- A nonsingular upper triangular matrix has no zero on its diagonal. -/
theorem diagonal_ne_zero (h : Nonsingular n (upper U)) {i : ℕ} (hi : i < n) : U.entry i i ≠ 0 := by
  have hdiag := diagonal_ne_zero_of_upper (fun _ _ _ _ hlt => upper_of_gt hlt) h i hi
  rwa [upper_of_le le_rfl] at hdiag

/-- A row of a lower triangular matrix ends on the diagonal. -/
theorem sum_lower {i : ℕ} (hi : i < n) (x : ℕ → ℝ) :
    ∑ j ∈ range n, lower L diagonal i j * x j =
      ∑ j ∈ range i, L.entry i j * x j + diagonal i * x i := by
  have hsub : range (i + 1) ⊆ range n := range_subset_range.2 hi
  rw [← sum_subset hsub, sum_range_succ, lower_self]
  · congr 1
    exact sum_congr rfl fun j hj => by rw [lower_of_lt (mem_range.1 hj)]
  · intro j _ hj
    rw [lower_of_gt (by simpa using hj), zero_mul]

/-- A column of a lower triangular matrix begins on the diagonal. -/
theorem sum_lower_transpose {j : ℕ} (hj : j < n) (x : ℕ → ℝ) :
    ∑ i ∈ range n, lower L diagonal i j * x i =
      diagonal j * x j + ∑ i ∈ Ico (j + 1) n, L.entry i j * x i := by
  rw [range_eq_Ico, ← sum_Ico_consecutive _ (Nat.zero_le j) hj.le, sum_eq_zero, zero_add,
    sum_eq_sum_Ico_succ_bot hj, lower_self]
  · congr 1
    exact sum_congr rfl fun i hi => by rw [lower_of_lt (mem_Ico.1 hi).1]
  · intro i hi
    rw [lower_of_gt (mem_Ico.1 hi).2, zero_mul]

/-- A row of an upper triangular matrix begins on the diagonal. -/
theorem sum_upper {i : ℕ} (hi : i < n) (x : ℕ → ℝ) :
    ∑ j ∈ range n, upper U i j * x j = ∑ j ∈ Ico i n, U.entry i j * x j := by
  rw [range_eq_Ico, ← sum_Ico_consecutive _ (Nat.zero_le i) hi.le, sum_eq_zero, zero_add]
  · exact sum_congr rfl fun j hj => by rw [upper_of_le (mem_Ico.1 hj).1]
  · intro j hj
    rw [upper_of_gt (mem_Ico.1 hj).2, zero_mul]

/-! ## Downwards -/

/-- After `k` steps the first `k` equations are solved, and of the others the share of the first `k`
unknowns is settled. -/
theorem forward_settled {b : Vec ℝ} {k : ℕ} (hd : ∀ i < k, diagonal i ≠ 0) (hk : k ≤ b.size) :
    let x := forward L diagonal k b
    (∀ i < k, ∑ j ∈ range i, L.entry i j * x.entry j + diagonal i * x.entry i = b.entry i) ∧
      ∀ i, k ≤ i → i < b.size → x.entry i = b.entry i - ∑ j ∈ range k, L.entry i j * x.entry j := by
  induction k with
  | zero =>
      refine ⟨fun i hi => absurd hi (Nat.not_lt_zero i), fun i _ _ => ?_⟩
      rw [sum_range_zero, sub_zero]
      rfl
  | succ k ih =>
      obtain ⟨hsolved, hrest⟩ := ih (fun i hi => hd i (by omega)) (by omega)
      intro x
      have hsize : (forward L diagonal k b).size = b.size := size_forward _ _ _ _
      have hx : ∀ i < b.size, x.entry i = _ := fun i hi =>
        entry_forwardStep L diagonal k (hsize.symm ▸ hi)
      -- the unknowns settled before stay as they are
      have hkeep : ∀ i < k, x.entry i = (forward L diagonal k b).entry i := fun i hi => by
        rw [hx i (by omega), if_pos hi]
      have hnew : diagonal k * x.entry k = (forward L diagonal k b).entry k := by
        rw [hx k (by omega), if_neg (lt_irrefl k), if_pos rfl, mul_div_cancel₀ _ (hd k (by omega))]
      have hsum : ∀ i p, p ≤ k → ∑ j ∈ range p, L.entry i j * x.entry j =
          ∑ j ∈ range p, L.entry i j * (forward L diagonal k b).entry j := fun i p hp =>
        sum_congr rfl fun j hj => by rw [hkeep j (by have := mem_range.1 hj; omega)]
      refine ⟨fun i hi => ?_, fun i hi hib => ?_⟩
      · rcases Nat.lt_succ_iff_lt_or_eq.1 hi with hlt | rfl
        · rw [hkeep i hlt, hsum i i hlt.le]
          exact hsolved i hlt
        · rw [hsum i i le_rfl, hnew, hrest i le_rfl (by omega)]
          ring
      · rw [sum_range_succ, hsum i k le_rfl, hx i hib, if_neg (by omega), if_neg (by omega),
          hrest i (by omega) hib, hx k (by omega), if_neg (lt_irrefl k), if_pos rfl]
        ring

/-- **Forward substitution solves.** -/
theorem solves_forward {b : Vec ℝ} (hd : ∀ i < n, diagonal i ≠ 0) (hb : b.size = n) :
    Solves n (lower L diagonal) (forward L diagonal n b).entry b.entry := by
  intro i hi
  rw [sum_lower hi]
  exact (forward_settled hd hb.ge).1 i hi

/-! ## Upwards -/

/-- A sweep that ends has met no zero on the diagonal; it solves the equations of the unknowns that
it settles, and leaves the others as they are. -/
theorem backward_settled {b x : Vec ℝ} {k : ℕ} (h : backward U k b = .ok x) (hk : k ≤ b.size) :
    (∀ i < k, U.entry i i ≠ 0) ∧
      (∀ i < k, ∑ j ∈ Ico i k, U.entry i j * x.entry j = b.entry i) ∧
      ∀ i, k ≤ i → i < b.size → x.entry i = b.entry i := by
  induction k generalizing b with
  | zero =>
      cases h
      exact ⟨by simp, by simp, fun _ _ _ => rfl⟩
  | succ k ih =>
      rw [backward] at h
      split at h
      · cases h
      rename_i hpivot
      have hne : U.entry k k ≠ 0 := Scalar.isZero_eq_false_iff.1 (by simpa using hpivot)
      have hsize : (backwardStep U b k).size = b.size := by simp [backwardStep]
      obtain ⟨hdiag, hsolved, hrest⟩ := ih h (by omega)
      have hstep : ∀ i < b.size, (backwardStep U b k).entry i = _ := fun i hi =>
        entry_backwardStep U k hi
      have hxk : x.entry k = b.entry k / U.entry k k := by
        rw [hrest k le_rfl (by omega), hstep k (by omega), if_neg (lt_irrefl k), if_pos rfl]
      refine ⟨fun i hi => ?_, fun i hi => ?_, fun i hi hib => ?_⟩
      · rcases Nat.lt_succ_iff_lt_or_eq.1 hi with hlt | rfl
        · exact hdiag i hlt
        · exact hne
      · rcases Nat.lt_succ_iff_lt_or_eq.1 hi with hlt | rfl
        · rw [sum_Ico_succ_top hlt.le, hsolved i hlt, hxk, hstep i (by omega), if_pos hlt]
          ring
        · rw [sum_Ico_succ_top le_rfl, Ico_self, sum_empty, hxk, zero_add, mul_div_cancel₀ _ hne]
      · rw [hrest i (by omega) (by omega), hstep i hib, if_neg (by omega), if_neg (by omega)]

/-- **Backward substitution solves**, if it ends; then no entry of the diagonal is zero. -/
theorem solves_backward {b x : Vec ℝ} (h : backward U n b = .ok x) (hb : n ≤ b.size) :
    Solves n (upper U) x.entry b.entry ∧ ∀ i < n, U.entry i i ≠ 0 := by
  obtain ⟨hdiag, hsolved, -⟩ := backward_settled h hb
  refine ⟨fun i hi => ?_, hdiag⟩
  rw [sum_upper hi]
  exact hsolved i hi

/-! ## Upwards in the transpose -/

/-- The unknowns settled from the bottom solve their equations; the others are as they were. -/
theorem adjoint_settled {b : Vec ℝ} {k : ℕ} (hL : ∀ i < k, L.entry i i ≠ 0) (hk : k ≤ b.size) :
    let x := adjoint L k b
    (∀ i < k, L.entry i i * x.entry i +
        ∑ j ∈ Ico (i + 1) b.size, L.entry j i * x.entry j = b.entry i) ∧
      ∀ i, k ≤ i → i < b.size → x.entry i = b.entry i := by
  induction k generalizing b with
  | zero => exact ⟨by simp, fun _ _ _ => rfl⟩
  | succ k ih =>
      intro x
      have hsize : (adjointStep L b k).size = b.size := by simp [adjointStep]
      obtain ⟨hsolved, hrest⟩ := ih (b := adjointStep L b k) (fun i hi => hL i (by omega)) (by omega)
      have hsame : ∀ i < b.size, i ≠ k → (adjointStep L b k).entry i = b.entry i := fun i hi hne =>
        entry_adjointStep_of_ne L hi hne
      have hnew : L.entry k k * (adjointStep L b k).entry k =
          b.entry k - ∑ j ∈ Ico (k + 1) b.size, L.entry j k * b.entry j := by
        rw [adjointStep, Vec.entry_tabulate _ (by omega), if_pos rfl, Scalar.sum_eq,
          sum_Ico_eq_sum_range, mul_div_cancel₀ _ (hL k (by omega))]
      refine ⟨fun i hi => ?_, fun i hi hib => ?_⟩
      · rcases Nat.lt_succ_iff_lt_or_eq.1 hi with hlt | rfl
        · rw [← hsame i (by omega) (by omega), ← hsolved i hlt, hsize]
          rfl
        · have hbelow : ∑ j ∈ Ico (i + 1) b.size, L.entry j i * x.entry j =
              ∑ j ∈ Ico (i + 1) b.size, L.entry j i * b.entry j := by
            refine sum_congr rfl fun j hj => ?_
            obtain ⟨hj1, hj2⟩ := mem_Ico.1 hj
            rw [show x.entry j = (adjointStep L b i).entry j from
              hrest j (by omega) (by omega), hsame j hj2 (by omega)]
          rw [hbelow, show x.entry i = (adjointStep L b i).entry i from
            hrest i le_rfl (by omega), hnew]
          ring
      · rw [show x.entry i = (adjointStep L b k).entry i from hrest i (by omega) (by omega),
          hsame i hib (by omega)]

/-- **Substitution in the transpose solves.** -/
theorem solves_adjoint {b : Vec ℝ} (hL : ∀ i < n, L.entry i i ≠ 0) (hb : b.size = n) :
    Solves n (fun i j => lower L (fun k => L.entry k k) j i) (adjoint L n b).entry b.entry := by
  intro i hi
  rw [sum_lower_transpose hi, ← hb]
  exact (adjoint_settled (fun i hi => hL i (hb ▸ hi)) le_rfl).1 i (hb ▸ hi)

end Triangular

end TrustRegion
