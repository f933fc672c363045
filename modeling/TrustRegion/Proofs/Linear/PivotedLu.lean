import Mathlib
import TrustRegion.Linear.PivotedLu
import TrustRegion.Proofs.Linear.Triangular

/-!
# Triangular factorisation with row exchanges is exact

In exact arithmetic the factors multiply to the matrix with its rows rearranged.  `PivotedLu.source`
says from which row of the matrix a row of the product comes, and `PivotedLu.Factored` is the invariant
of the sweep: the finished columns of the two factors, and what is left to be factored.

A column is passed over only if nothing but zeros stand in it on and below the diagonal, because the
pivot has the largest modulus there (`PivotedLu.abs_entry_le_pivotRow`).

Main results: **`PivotedLu.solves_solve`** and **`PivotedLu.nonsingular_of_solve`** — a solve that ends
has solved the system, and the matrix is nonsingular; **`PivotedLu.diagonal_ne_zero`** — if it is, there
is no zero on the diagonal of `U`.
-/

namespace TrustRegion

namespace PivotedLu

open Finset

variable {A W : Matrix ℝ} {n k p : ℕ}

/-! ## Exchanges -/

theorem exchanged_lt {i : ℕ} (hk : k < n) (hp : p < n) (hi : i < n) : exchanged k p i < n := by
  unfold exchanged
  split
  · exact hp
  · split <;> assumption

/-- Rows above both that are exchanged stay where they are. -/
theorem exchanged_of_lt {i : ℕ} (hkp : k ≤ p) (hi : i < k) : exchanged k p i = i := by
  unfold exchanged
  rw [if_neg (by omega), if_neg (by omega)]

theorem le_exchanged {i : ℕ} (hkp : k ≤ p) (hi : k ≤ i) : k ≤ exchanged k p i := by
  unfold exchanged
  split
  · exact hkp
  · split <;> omega

/-- The row that stands at `i` after all exchanges. -/
def source (swaps : List (ℕ × ℕ)) (i : ℕ) : ℕ := swaps.foldr (fun s j => exchanged s.1 s.2 j) i

theorem source_append_singleton (swaps : List (ℕ × ℕ)) (s : ℕ × ℕ) (i : ℕ) :
    source (swaps ++ [s]) i = source swaps (exchanged s.1 s.2 i) := by
  simp [source, List.foldr_append]

theorem source_lt {swaps : List (ℕ × ℕ)} (h : ∀ s ∈ swaps, s.1 < n ∧ s.2 < n) {i : ℕ} (hi : i < n) :
    source swaps i < n := by
  induction swaps with
  | nil => exact hi
  | cons s ss ih =>
      have hs := h s (List.mem_cons_self ..)
      exact exchanged_lt hs.1 hs.2 (ih fun s' hs' => h s' (List.mem_cons_of_mem _ hs'))

/-- Every row comes to stand somewhere. -/
theorem exists_source {swaps : List (ℕ × ℕ)} (h : ∀ s ∈ swaps, s.1 < n ∧ s.2 < n) {i : ℕ}
    (hi : i < n) : ∃ r < n, source swaps r = i := by
  induction swaps generalizing i with
  | nil => exact ⟨i, hi, rfl⟩
  | cons s ss ih =>
      have hs := h s (List.mem_cons_self ..)
      obtain ⟨r, hr, hsource⟩ := ih (fun s' hs' => h s' (List.mem_cons_of_mem _ hs'))
        (exchanged_lt hs.1 hs.2 hi)
      refine ⟨r, hr, ?_⟩
      show exchanged s.1 s.2 (source ss r) = i
      rw [hsource, exchanged_exchanged]

/-- A vector is rearranged as the rows are. -/
theorem entry_permute {f : PivotedLu ℝ} {b : Vec ℝ}
    (h : ∀ s ∈ f.swaps, s.1 < b.size ∧ s.2 < b.size) {i : ℕ} (hi : i < b.size) :
    (f.permute b).entry i = b.entry (source f.swaps i) := by
  unfold permute
  induction hs : f.swaps generalizing f b with
  | nil => rfl
  | cons s ss ih =>
      rw [List.foldl_cons]
      have hss : ∀ s' ∈ ss, s'.1 < b.size ∧ s'.2 < b.size := fun s' hs' =>
        h s' (hs ▸ List.mem_cons_of_mem _ hs')
      rw [ih (f := { f with swaps := ss }) (by simpa using hss) (by simpa using hi) rfl,
        Vec.entry_tabulate _ (source_lt hss hi)]
      rfl

/-! ## The pivot -/

/-- The row found when `t` rows below row `k` have been looked at. -/
noncomputable def pivotRowAmong (W : Matrix ℝ) (k t : ℕ) : ℕ :=
  t.fold
    (fun t _ p =>
      if Scalar.abs (W.entry p k) < Scalar.abs (W.entry (k + 1 + t) k) then k + 1 + t else p) k

theorem pivotRow_eq (W : Matrix ℝ) (k : ℕ) :
    pivotRow W k = pivotRowAmong W k (W.rows - (k + 1)) := rfl

theorem pivotRowAmong_succ (W : Matrix ℝ) (k t : ℕ) :
    pivotRowAmong W k (t + 1) =
      if |W.entry (pivotRowAmong W k t) k| < |W.entry (k + 1 + t) k| then k + 1 + t
      else pivotRowAmong W k t := by
  unfold pivotRowAmong
  rw [Nat.fold_succ]
  generalize t.fold _ k = best
  by_cases h : |W.entry best k| < |W.entry (k + 1 + t) k|
  · rw [if_pos h, if_pos (by simpa only [Scalar.abs_eq] using h)]
  · rw [if_neg h, if_neg (by simpa only [Scalar.abs_eq] using h)]

/-- It is one of the rows looked at. -/
theorem pivotRowAmong_mem (W : Matrix ℝ) (k t : ℕ) :
    k ≤ pivotRowAmong W k t ∧ pivotRowAmong W k t ≤ k + t := by
  induction t with
  | zero => exact ⟨le_rfl, le_rfl⟩
  | succ t ih =>
      rw [pivotRowAmong_succ]
      split <;> omega

/-- None of the rows looked at has a larger modulus. -/
theorem abs_entry_le_pivotRowAmong {r t : ℕ} (hk : k ≤ r) (hr : r ≤ k + t) :
    |W.entry r k| ≤ |W.entry (pivotRowAmong W k t) k| := by
  induction t with
  | zero =>
      obtain rfl : r = k := by omega
      exact le_rfl
  | succ t ih =>
      rw [pivotRowAmong_succ]
      rcases Nat.lt_or_ge (k + t) r with hlast | hearlier
      · obtain rfl : r = k + 1 + t := by omega
        split
        · exact le_rfl
        · exact not_lt.1 ‹_›
      · split
        · exact (ih hearlier).trans (le_of_lt ‹_›)
        · exact ih hearlier

theorem le_pivotRow (W : Matrix ℝ) (k : ℕ) : k ≤ pivotRow W k := (pivotRowAmong_mem W k _).1

theorem pivotRow_lt (hk : k < W.rows) : pivotRow W k < W.rows := by
  have hle := (pivotRowAmong_mem W k (W.rows - (k + 1))).2
  rw [← pivotRow_eq] at hle
  omega

/-- The pivot has the largest modulus of its column, on and below the diagonal. -/
theorem abs_entry_le_pivotRow {r : ℕ} (hk : k ≤ r) (hr : r < W.rows) :
    |W.entry r k| ≤ |W.entry (pivotRow W k) k| :=
  abs_entry_le_pivotRowAmong hk (by omega)

/-! ## The invariant -/

/-- The factor `L`, with ones on its diagonal. -/
noncomputable def left (W : Matrix ℝ) : ℕ → ℕ → ℝ := Triangular.lower W fun _ => 1

/-- Is the matrix with its rows rearranged the product of the first `k` columns of `L` and rows of
`U`, and of what stands in the remaining corner? -/
structure Factored (A : Matrix ℝ) (f : PivotedLu ℝ) (n k : ℕ) : Prop where
  /-- Only rows of the matrix are exchanged. -/
  swaps : ∀ s ∈ f.swaps, s.1 < n ∧ s.2 < n
  product : ∀ r < n, ∀ c < n, A.entry (source f.swaps r) c =
    ∑ t ∈ range k, left f.combined r t * Triangular.upper f.combined t c +
      if k ≤ r ∧ k ≤ c then f.combined.entry r c else 0

theorem factored_zero (A : Matrix ℝ) (n : ℕ) : Factored A ⟨A, []⟩ n 0 :=
  ⟨by simp, fun r _ c _ => by simp [source]⟩

theorem left_of_lt {i j : ℕ} (h : j < i) : left W i j = W.entry i j := Triangular.lower_of_lt h

theorem left_self (W : Matrix ℝ) (i : ℕ) : left W i i = 1 := Triangular.lower_self i

theorem left_of_gt {i j : ℕ} (h : i < j) : left W i j = 0 := Triangular.lower_of_gt h

/-- The corner loses a row and a column, which become a row of `U` and a column of `L`. -/
theorem corner_succ {V : Matrix ℝ} {r c : ℕ} (hrow : k ≤ c → V.entry k c = W.entry k c)
    (hbelow : k < r → k ≤ c →
      W.entry r c = V.entry r k * W.entry k c + if k < c then V.entry r c else 0) :
    (if k ≤ r ∧ k ≤ c then W.entry r c else 0) =
      left V r k * Triangular.upper V k c + if k + 1 ≤ r ∧ k + 1 ≤ c then V.entry r c else 0 := by
  rcases Nat.lt_or_ge c k with hck | hck
  · rw [Triangular.upper_of_gt hck, mul_zero, zero_add, if_neg (by omega), if_neg (by omega)]
  rw [Triangular.upper_of_le hck, hrow hck]
  rcases lt_trichotomy r k with hrk | rfl | hrk
  · rw [left_of_gt hrk, zero_mul, zero_add, if_neg (by omega), if_neg (by omega)]
  · rw [left_self, one_mul, if_pos ⟨le_rfl, hck⟩, if_neg (show ¬(r + 1 ≤ r ∧ _) by omega), add_zero]
  · rw [left_of_lt hrk, if_pos ⟨hrk.le, hck⟩, hbelow hrk hck]
    congr 1
    by_cases hc : k < c
    · rw [if_pos hc, if_pos ⟨hrk, hc⟩]
    · rw [if_neg hc, if_neg (by omega)]

namespace Factored

variable {f : PivotedLu ℝ}

/-- Two rows of the corner change places, with their rows of `L`. -/
theorem exchange (hf : Factored A f n k) (hshape : f.combined.HasShape n n) (hkp : k ≤ p)
    (hp : p < n) :
    Factored A
      { combined := Matrix.tabulate f.combined.rows f.combined.cols fun r c =>
          f.combined.entry (exchanged k p r) c
        swaps := f.swaps ++ [(k, p)] } n k := by
  have hk : k < n := by omega
  have hentry : ∀ r < n, ∀ c < n, (Matrix.tabulate f.combined.rows f.combined.cols fun r c =>
      f.combined.entry (exchanged k p r) c).entry r c = f.combined.entry (exchanged k p r) c :=
    fun r hr c hc => Matrix.entry_tabulate _ (hshape.1.symm ▸ hr) (hshape.2.symm ▸ hc)
  refine ⟨fun s hs => ?_, fun r hr c hc => ?_⟩
  · rcases List.mem_append.1 hs with hs | hs
    · exact hf.swaps s hs
    · rw [List.mem_singleton.1 hs]
      exact ⟨hk, hp⟩
  · show A.entry (source (f.swaps ++ [(k, p)]) r) c = _
    rw [source_append_singleton, hf.product _ (exchanged_lt hk hp hr) c hc]
    have hiff : k ≤ exchanged k p r ↔ k ≤ r :=
      ⟨fun h => by
        by_contra hlt
        rw [exchanged_of_lt hkp (by omega)] at h
        omega, le_exchanged hkp⟩
    simp only [hiff, hentry r hr c hc]
    congr 1
    refine sum_congr rfl fun t ht => ?_
    have ht' : t < k := mem_range.1 ht
    congr 1
    · -- the rows above the corner are where they were
      rcases Nat.lt_or_ge r k with hrk | hrk
      · rw [exchanged_of_lt hkp hrk]
        unfold left Triangular.lower
        rw [hentry r hr t (by omega), exchanged_of_lt hkp hrk]
      · rw [left_of_lt (ht'.trans_le (le_exchanged hkp hrk)), left_of_lt (by omega),
          hentry r hr t (by omega)]
    · unfold Triangular.upper
      rw [hentry t (by omega) c hc, exchanged_of_lt hkp ht']

/-- A column of zeros below the diagonal is finished as it is. -/
theorem skip (hf : Factored A f n k)
    (hzero : ∀ r, k < r → r < n → f.combined.entry r k = 0) : Factored A f n (k + 1) := by
  refine ⟨hf.swaps, fun r hr c hc => ?_⟩
  rw [hf.product r hr c hc, sum_range_succ, add_assoc]
  congr 1
  refine corner_succ (fun _ => rfl) fun hkr hkc => ?_
  rw [hzero r hkr hr, zero_mul, zero_add]
  rcases hkc.eq_or_lt with rfl | hlt
  · rw [if_neg (lt_irrefl k), hzero r hkr hr]
  · rw [if_pos hlt]

/-- One more column is cleared. -/
theorem eliminate (hf : Factored A f n k) (hshape : f.combined.HasShape n n) (hk : k < n)
    (hpivot : f.combined.entry k k ≠ 0) :
    Factored A { f with combined := PivotedLu.eliminate f.combined k } n (k + 1) := by
  have hentry : ∀ r < n, ∀ c < n, (PivotedLu.eliminate f.combined k).entry r c = _ :=
    fun r hr c hc => Matrix.entry_tabulate _ (hshape.1.symm ▸ hr) (hshape.2.symm ▸ hc)
  have hsettled : ∀ r < n, ∀ c < n, r ≤ k ∨ c < k →
      (PivotedLu.eliminate f.combined k).entry r c = f.combined.entry r c := fun r hr c hc h =>
    entry_eliminate_of_settled (hshape.1.symm ▸ hr) (hshape.2.symm ▸ hc) h
  refine ⟨hf.swaps, fun r hr c hc => ?_⟩
  show A.entry (source f.swaps r) c = _
  rw [hf.product r hr c hc, sum_range_succ, add_assoc]
  congr 1
  · refine sum_congr rfl fun t ht => ?_
    have ht' : t < k := mem_range.1 ht
    congr 1
    · unfold left Triangular.lower
      rw [hsettled r hr t (by omega) (Or.inr ht')]
    · unfold Triangular.upper
      rw [hsettled t (by omega) c hc (Or.inl ht'.le)]
  · refine corner_succ (fun _ => hsettled k hk c hc (Or.inl le_rfl)) fun hkr hkc => ?_
    have hmultiplier : (PivotedLu.eliminate f.combined k).entry r k =
        f.combined.entry r k / f.combined.entry k k := by
      rw [hentry r hr k hk, if_neg (by omega), if_pos rfl, mul_one_div]
    rw [hmultiplier]
    rcases hkc.eq_or_lt with rfl | hlt
    · rw [if_neg (lt_irrefl k), add_zero, div_mul_cancel₀ _ hpivot]
    · rw [if_pos hlt, hentry r hr c hc, if_neg (by omega), if_neg (by omega)]
      ring

/-- One step of the sweep. -/
theorem succ (hf : Factored A f n k) (hshape : f.combined.HasShape n n) (hk : k < n) :
    Factored A (f.step k) n (k + 1) := by
  have hp : pivotRow f.combined k < n := hshape.1 ▸ pivotRow_lt (hshape.1.symm ▸ hk)
  unfold step
  dsimp only
  split
  · rename_i hzero
    -- the largest modulus is zero
    refine hf.skip fun r hkr hr => ?_
    have hle := abs_entry_le_pivotRow hkr.le (hshape.1.symm ▸ hr)
    rw [Scalar.isZero_iff.1 hzero, abs_zero] at hle
    exact abs_nonpos_iff.1 hle
  · rename_i hne
    have hexchange := hf.exchange hshape (le_pivotRow _ k) hp
    refine hexchange.eliminate ⟨hshape.1, (Matrix.cols_tabulate _ _ _).trans hshape.2⟩ hk ?_
    show (Matrix.tabulate _ _ _).entry k k ≠ 0
    rw [Matrix.entry_tabulate _ (hshape.1.symm ▸ hk) (hshape.2.symm ▸ hk), exchanged, if_pos rfl]
    exact Scalar.isZero_eq_false_iff.1 (by simpa using hne)

end Factored

/-- The invariant of the sweep. -/
theorem factored_sweep (hA : A.HasShape n n) (hk : k ≤ n) : Factored A (sweep k A) n k := by
  induction k with
  | zero => exact factored_zero A n
  | succ k ih =>
      exact (ih (by omega)).succ ((sameShape_sweep k A).hasShape hA) (by omega)

/-! ## Solving -/

variable {b x : Vec ℝ}

/-- The factors multiply to the matrix with its rows rearranged. -/
theorem factored_factor (hA : A.HasShape n n) : Factored A (factor A) n n := by
  unfold factor
  rw [hA.2]
  exact factored_sweep hA le_rfl

theorem product_factor (hA : A.HasShape n n) : ∀ r < n, ∀ c < n,
    A.entry (source (factor A).swaps r) c =
      ∑ t ∈ range n, left (factor A).combined r t * Triangular.upper (factor A).combined t c := by
  intro r hr c hc
  rw [(factored_factor hA).product r hr c hc, if_neg (by omega), add_zero]

/-- **A solve that ends has solved the system.** -/
theorem solves_solve (hA : A.HasShape n n) (hb : b.size = n) (h : (factor A).solve b = .ok x) :
    Solves n A.entry x.entry b.entry := by
  have hf := factored_factor hA
  unfold solve at h
  rw [(hasShape_factor hA).2] at h
  have hperm : ((factor A).permute b).size = n := by simpa using hb
  have hforward : Solves n (left (factor A).combined)
      (Triangular.forward (factor A).combined (fun _ => 1) n ((factor A).permute b)).entry
      ((factor A).permute b).entry := Triangular.solves_forward (fun _ _ => one_ne_zero) hperm
  have hbackward := (Triangular.solves_backward h (by simpa using hb.ge)).1
  refine Solves.of_rows (fun i hi => exists_source hf.swaps hi) ?_
  refine Solves.mul (product_factor hA) hbackward (hforward.congr (fun _ _ _ _ => rfl) ?_)
  intro i hi
  exact (entry_permute (hb.symm ▸ hf.swaps) (hb.symm ▸ hi)).symm

/-- **The matrix of a solve that ends is nonsingular.** -/
theorem nonsingular_of_solve (hA : A.HasShape n n) (hb : b.size = n)
    (h : (factor A).solve b = .ok x) : Nonsingular n A.entry := by
  have hf := factored_factor hA
  unfold solve at h
  rw [(hasShape_factor hA).2] at h
  have hdiag := (Triangular.solves_backward h (by simpa using hb.ge)).2
  refine Nonsingular.of_rows (fun r hr => source_lt hf.swaps hr) ?_
  exact Nonsingular.mul (product_factor hA)
    (Triangular.nonsingular_lower fun _ _ => one_ne_zero) (Triangular.nonsingular_upper hdiag)

/-- **The factor `U` of a nonsingular matrix** has no zero on its diagonal. -/
theorem diagonal_ne_zero (hA : A.HasShape n n) (h : Nonsingular n A.entry) {i : ℕ} (hi : i < n) :
    (factor A).combined.entry i i ≠ 0 :=
  Triangular.diagonal_ne_zero
    ((h.rows fun _ hi => exists_source (factored_factor hA).swaps hi).right (product_factor hA)) hi

end PivotedLu

end TrustRegion
