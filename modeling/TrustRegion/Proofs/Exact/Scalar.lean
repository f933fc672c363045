import Mathlib
import TrustRegion.Proofs.Scalar.Comparison
import TrustRegion.Settings

/-!
# Exact scalars

The real numbers with their exact square root are scalars.  They have no infinity and no value that
is not a number, so here the operations that guard against those are the ordinary ones of the reals.
Sums added from the left are the sums over `Finset.range`.
-/

namespace TrustRegion

open Finset

/-- Exact arithmetic: the real numbers, with the exact square root. -/
noncomputable instance : Scalar ℝ where
  sqrt := Real.sqrt
  abs x := |x|
  decideLt := inferInstance
  decideLe := inferInstance

namespace Scalar

theorem sqrt_eq (x : ℝ) : Scalar.sqrt x = √x := rfl

theorem abs_eq (x : ℝ) : Scalar.abs x = |x| := rfl

theorem two_eq : (two : ℝ) = 2 := one_add_one_eq_two

theorem half_eq : (half : ℝ) = 1 / 2 := by rw [half, two_eq]

/-! ## Special values -/

theorem isZero_iff {x : ℝ} : isZero x = true ↔ x = 0 := by
  rw [isZero, Bool.and_eq_true, decide_eq_true_iff, decide_eq_true_iff]
  exact ⟨fun h => le_antisymm h.1 h.2, fun h => ⟨h.le, h.ge⟩⟩

theorem isZero_eq_false_iff {x : ℝ} : isZero x = false ↔ x ≠ 0 := by
  rw [Ne, ← isZero_iff, Bool.not_eq_true]

theorem isNaN_eq_false (x : ℝ) : isNaN x = false := by simp [isNaN]

theorem isFinite_eq_true (x : ℝ) : isFinite x = true := isZero_iff.2 (sub_self x)

/-! ## Order -/

/-- The real numbers are ordered. -/
instance lawfulOrder_real : LawfulOrder ℝ where
  number_of_le _ := ⟨le_rfl, le_rfl⟩
  le_trans := le_trans
  le_total _ _ := le_total _ _
  lt_iff := lt_iff_le_not_ge
  zero_le_zero := le_rfl
  abs_le_zero h h' := (abs_eq_zero.2 (le_antisymm h h')).le
  not_sqrt_neg a := not_lt.2 (Real.sqrt_nonneg a)

theorem larger_eq_max (a b : ℝ) : larger a b = max a b := by
  unfold larger
  rw [isNaN_eq_false, isNaN_eq_false]
  simp only [Bool.false_eq_true, if_false]
  split
  · rename_i h; exact (max_eq_right h.le).symm
  · rename_i h; exact (max_eq_left (not_lt.1 h)).symm

/-- A value within the bounds is left alone. -/
theorem clamp_of_mem {low high x : ℝ} (hl : low ≤ x) (hh : x ≤ high) : clamp low high x = x := by
  rw [clamp, if_neg (not_lt.2 hl), if_neg (not_lt.2 hh)]

/-! ## Sums -/

theorem sumFrom_eq (start : ℝ) (n : ℕ) (f : ℕ → ℝ) :
    sumFrom start n f = start + ∑ i ∈ range n, f i := by
  induction n with
  | zero => simp
  | succ n ih => rw [sumFrom_succ, ih, sum_range_succ, add_assoc]

theorem sum_eq (n : ℕ) (f : ℕ → ℝ) : Scalar.sum n f = ∑ i ∈ range n, f i := by
  rw [Scalar.sum, sumFrom_eq]
  exact zero_add _

theorem less_eq (start : ℝ) (n : ℕ) (f : ℕ → ℝ) :
    less start n f = start - ∑ i ∈ range n, f i := by
  induction n with
  | zero => simp
  | succ n ih => rw [less_succ, ih, sum_range_succ, sub_sub]

end Scalar

/-! ## Lengths that may be infinite -/

namespace Extended

theorem reaches_finite {x bound : ℝ} : (finite x).reaches bound = true ↔ bound ≤ x :=
  decide_eq_true_iff

theorem reaches_infinite (bound : ℝ) : (infinite : Extended ℝ).reaches bound = true := by
  simp [reaches, Scalar.isNaN_eq_false]

theorem exceeds_infinite (bound : ℝ) : (infinite : Extended ℝ).exceeds bound = true := by
  simp [exceeds, Scalar.isFinite_eq_true]

end Extended

/-- The least pivot exceeds a bound exactly if every pivot does. -/
theorem Matrix.exceeds_leastPivot {A : Matrix ℝ} {n : ℕ} {bound : ℝ} :
    (A.leastPivot n).exceeds bound = true ↔ ∀ i < n, bound < |A.entry i i| := by
  rw [exceeds_leastPivot_iff]
  simp [Scalar.isNaN_eq_false, Scalar.abs_eq, Extended.exceeds_infinite]

/-! ## Checks -/

/-- Every positive radius passes the check. -/
theorem checkRadius_eq_ok_iff {radius : ℝ} :
    (checkRadius radius : Except (StepError ℝ) Unit) = .ok () ↔ 0 < radius := by
  unfold checkRadius
  rw [Scalar.isFinite_eq_true]
  by_cases h : 0 < radius
  · simp [h]
  · simp [h]

/-- Settings without messages are valid if their tolerance is in range. -/
theorem Settings.validate_of_tolerance {settings : Settings ℝ} (h : 0 ≤ settings.tolerance)
    (h' : settings.tolerance < 1) (hlevel : settings.logLevel = none) :
    settings.validate = .ok () := by
  unfold Settings.validate Settings.logFilter
  rw [if_pos ⟨h, h'⟩, hlevel]
  rfl

end TrustRegion
