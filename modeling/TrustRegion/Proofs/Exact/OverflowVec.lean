import Mathlib
import TrustRegion.Proofs.Exact.Overflow
import TrustRegion.Proofs.Exact.Vec

/-!
# Vectors of numbers that overflow

`Vec.overflowing` takes an exact vector into the arithmetic that overflows.  Its square is exact or infinite
(`Vec.normSq_overflowing`), so a norm that compares with a number is the exact one
(`Vec.within_of_norm_le`).
-/

namespace TrustRegion

namespace Vec

open Overflowing

/-- The vector in the arithmetic that overflows. -/
noncomputable def overflowing (x : Vec ℝ) : Vec Overflowing := ⟨x.coords.map ofReal⟩

/-- Are all entries within the range? -/
def InRange (x : Vec ℝ) : Prop := ∀ i, |x.entry i| ≤ largest

/-- Are all entries numbers? -/
def Finite (v : Vec Overflowing) : Prop := ∀ i < v.size, ∃ x hx, v.entry i = number x hx

/-- Is it a vector of numbers of norm `r` at most? -/
def Within (v : Vec Overflowing) (r : ℝ) : Prop :=
  ∃ x : Vec ℝ, v = x.overflowing ∧ x.InRange ∧ x.norm ≤ r

/-- Is it a vector of numbers, the square of whose norm is within the range, and far within the range in
units of `r`? -/
def FarInRange (v : Vec Overflowing) (r : ℝ) : Prop :=
  ∃ x : Vec ℝ, v = x.overflowing ∧ x.normSq ≤ largest ∧
    ((32 : ℕ) : ℝ) * x.normSq ≤ largest * r ^ 2

/-- Is no entry a number? -/
def Lost (v : Vec Overflowing) : Prop := ∀ i < v.size, ∀ x hx, v.entry i ≠ number x hx

variable {x : Vec ℝ} {v : Vec Overflowing} {r : ℝ}

@[simp] theorem size_overflowing (x : Vec ℝ) : x.overflowing.size = x.size := by
  simp [overflowing, size]

@[simp] theorem entry_overflowing (x : Vec ℝ) (i : ℕ) : x.overflowing.entry i = ofReal (x.entry i) := by
  unfold entry overflowing
  by_cases h : i < x.coords.size
  · simp [h]
  · simp [h, Overflowing.ofReal_zero]

theorem overflowing_tabulate (n : ℕ) (f : ℕ → ℝ) :
    (tabulate n f).overflowing = tabulate n fun i => ofReal (f i) := by
  refine ext_entry (by simp) fun i hi => ?_
  have hi' : i < n := by simpa using hi
  rw [entry_overflowing, entry_tabulate _ hi', entry_tabulate _ hi']

/-- What has its square within the range has its norm and all entries there. -/
theorem abs_norm_le (h : x.normSq ≤ largest) : |x.norm| ≤ largest := abs_sqrt_le h

theorem inRange_of_normSq (h : x.normSq ≤ largest) : x.InRange := fun i =>
  (x.abs_entry_le_norm i).trans ((le_abs_self _).trans (abs_norm_le h))

theorem inRange_of_norm (h : x.norm ≤ largest) : x.InRange := fun i =>
  (x.abs_entry_le_norm i).trans h

/-- A vector of numbers is one of real numbers within the range. -/
theorem exists_overflowing (h : v.Finite) : ∃ x : Vec ℝ, v = x.overflowing ∧ x.InRange := by
  choose! f hf hentry using h
  refine ⟨tabulate v.size f, ext_entry (by simp) fun i hi => ?_, fun i => ?_⟩
  · rw [hentry i hi, entry_overflowing, entry_tabulate _ hi, ofReal_of_le]
  · rcases Nat.lt_or_ge i v.size with hi | hi
    · rw [entry_tabulate _ hi]
      exact hf i hi
    · rw [entry_of_size_le (by simpa using hi)]
      exact abs_zero_le_largest

theorem finite_overflowing (h : x.InRange) : x.overflowing.Finite := fun i _ =>
  ⟨x.entry i, h i, by rw [entry_overflowing, ofReal_of_le (h i)]⟩

/-- No entry of a vector of norm `r` at most is larger than `r`. -/
theorem Within.entry_le (h : v.Within r) {i : ℕ} (hi : i < v.size) :
    ∃ x hx, v.entry i = number x hx ∧ |x| ≤ r := by
  obtain ⟨x, rfl, hx, hr⟩ := h
  exact ⟨x.entry i, hx i, by rw [entry_overflowing, ofReal_of_le (hx i)],
    (x.abs_entry_le_norm i).trans hr⟩

/-- A multiple is exact; entries that overflow become infinite. -/
theorem scale_overflowing (hx : x.InRange) {c : ℝ} (hc : |c| ≤ largest) :
    x.overflowing.scale (ofReal c) = (x.scale c).overflowing := by
  refine ext_entry (by simp) fun i hi => ?_
  rw [entry_scale _ (by simpa using hi), entry_overflowing, entry_overflowing, entry_scale_eq,
    ofReal_mul (hx i) hc]

/-! ### Norms -/

/-- The squares are exact, and their sum is, or it is infinite. -/
theorem normSq_overflowing (hx : x.InRange) : x.overflowing.normSq = ofReal x.normSq := by
  have hmul : ∀ i, ofReal (x.entry i) * ofReal (x.entry i) = ofReal (x.entry i * x.entry i) :=
    fun i => ofReal_mul (hx i) (hx i)
  rw [normSq, inner, size_overflowing]
  simp only [entry_overflowing, hmul]
  rw [sum_ofReal_of_nonneg fun i _ => mul_self_nonneg _, normSq, inner_eq_sum]

theorem norm_overflowing_of_le (hx : x.normSq ≤ largest) : x.overflowing.norm = ofReal x.norm := by
  rw [norm, normSq_overflowing (inRange_of_normSq hx),
    sqrt_ofReal ((abs_of_nonneg x.normSq_nonneg).trans_le hx) x.normSq_nonneg]
  rfl

theorem norm_overflowing_of_gt (hx : x.InRange) (h : largest < x.normSq) :
    x.overflowing.norm = infinite false := by
  rw [norm, normSq_overflowing hx, ofReal_of_gt h]
  rfl

/-- If a sum of squares is a number, so are the summands. -/
theorem exists_of_normSq (n : ℕ) {f : ℕ → Overflowing} {z : ℝ} {hz : |z| ≤ largest}
    (h : Scalar.sum n (fun i => f i * f i) = number z hz) : ∀ i < n, ∃ x hx, f i = number x hx := by
  induction n generalizing z with
  | zero => exact fun i hi => absurd hi (Nat.not_lt_zero i)
  | succ n ih =>
      rw [Scalar.sum_succ] at h
      obtain ⟨y, w, hy, hw, hsum, hlast, -⟩ := numbers_of_add h
      intro i hi
      rcases Nat.lt_succ_iff_lt_or_eq.1 hi with hi' | rfl
      · exact ih hsum i hi'
      · obtain ⟨x, -, hx, -, hfx, -⟩ := numbers_of_mul hlast
        exact ⟨x, hx, hfx⟩

/-- A norm that is not beyond a number is the exact one. -/
theorem within_of_norm_le (hr : |r| ≤ largest) (h : v.norm ≤ ofReal r) : v.Within r := by
  obtain ⟨z, hz, hnormSq, -, hroot⟩ := number_of_sqrt_le hr h
  obtain ⟨x, rfl, hx⟩ := exists_overflowing (exists_of_normSq v.size hnormSq)
  rw [normSq_overflowing hx] at hnormSq
  obtain rfl := eq_of_ofReal hnormSq
  exact ⟨x, rfl, hx, hroot⟩

end Vec

end TrustRegion
