import Mathlib
import TrustRegion.Proofs.Exact.OverflowVec
import TrustRegion.Proofs.Path.Crossing
import TrustRegion.Proofs.Path.Landing

/-!
# The crossing within the range

The segment of the path that leaves the trust region is measured in units of the radius, so that the
quadratic equation for the crossing overflows late.  For a segment that starts inside the ball and ends
outside of it, it is enough that the square of the norm of its end is within the range, and far within the
range in units of the radius (`Crossing.Moderate`): then no intermediate result overflows, the share of the
segment is the exact one (`Crossing.Moderate.share_overflowing`), and so is the point after it, on the sphere
(**`DoglegPath.within_crossingPoint`**).
-/

namespace TrustRegion

open Finset
open Overflowing

namespace Crossing

/-! ## The quadratic equation -/

/-- Are the coefficients so small that the discriminant is within the range? -/
structure Tame (k : Coefficients ℝ) : Prop where
  /-- The segment is not too long. -/
  a_le : 8 * k.a ≤ largest
  /-- The linear coefficient is bounded by the quadratic one, as the start is within the ball. -/
  sq_b_le : k.b ^ 2 ≤ 4 * k.a
  /-- The constant coefficient is not below that of a segment from the origin. -/
  neg_one_le_c : -1 ≤ k.c

namespace Tame

variable {k : Coefficients ℝ} (h : Tame k) (hk : Bracketed k)

include h hk

theorem abs_b_le : |k.b| ≤ largest / 2 :=
  abs_le_half_largest (by linarith [h.sq_b_le, h.a_le, hk.a_pos])

theorem abs_c_le : |k.c| ≤ 1 := abs_le.2 ⟨h.neg_one_le_c, by linarith [hk.c_neg]⟩

theorem abs_product_le : |4 * k.a * k.c| ≤ 4 * k.a := by
  have ha : 0 ≤ 4 * k.a := by linarith [hk.a_pos]
  rw [abs_mul, abs_of_nonneg ha]
  exact mul_le_of_le_one_right ha (h.abs_c_le hk)

theorem discriminant_le : discriminant k ≤ largest := by
  rw [hk.discriminant_eq]
  linarith [h.sq_b_le, h.a_le, (abs_le.1 (h.abs_product_le hk)).1]

theorem abs_a_le : |2 * k.a| ≤ largest ∧ |k.a| ≤ largest := by
  have hpos := hk.a_pos
  have hle := h.a_le
  rw [abs_of_pos hpos, abs_of_pos (by linarith)]
  exact ⟨by linarith, by linarith⟩

theorem discriminant_ofReal :
    discriminant ⟨ofReal k.a, ofReal k.b, ofReal k.c⟩ = ofReal (discriminant k) := by
  have hlargest := four_le_largest
  have hpos := hk.a_pos
  have hle := h.a_le
  have h0 := abs_zero_le_largest
  have hfour : |((4 : ℕ) : ℝ)| ≤ largest := by rw [Nat.abs_cast, Nat.cast_ofNat]; exact hlargest
  have hb : |k.b| ≤ largest := by linarith [h.abs_b_le hk]
  have hc : |k.c| ≤ largest := by linarith [h.abs_c_le hk]
  have hbb : |k.b * k.b| ≤ largest := by
    rw [abs_mul_self, ← sq]
    linarith [h.sq_b_le]
  have hfourA : |((4 : ℕ) : ℝ) * k.a| ≤ largest := by
    rw [Nat.cast_ofNat, abs_of_pos (by linarith)]
    linarith
  have hproduct : |((4 : ℕ) : ℝ) * k.a * k.c| ≤ largest := by
    rw [Nat.cast_ofNat]
    linarith [h.abs_product_le hk]
  have hdiff : |k.b * k.b - ((4 : ℕ) : ℝ) * k.a * k.c| ≤ largest := by
    rw [← hk.discriminant_unguarded, abs_of_nonneg (hk.discriminant_nonneg)]
    exact h.discriminant_le hk
  unfold discriminant
  rw [← ofReal_natCast, ofReal_mul hb hb, ofReal_mul hfour (h.abs_a_le hk).2, ofReal_mul hfourA hc,
    ofReal_sub hbb hproduct, ← ofReal_zero, larger_ofReal hdiff h0]

/-- Neither formula for the root overflows. -/
theorem root_ofReal : root ⟨ofReal k.a, ofReal k.b, ofReal k.c⟩ = ofReal (root k) := by
  have hlargest := four_le_largest
  have h0 := abs_zero_le_largest
  have h2 := abs_two_le_largest
  have hb := h.abs_b_le hk
  have hbl : |k.b| ≤ largest := by linarith [abs_nonneg k.b]
  have hc := h.abs_c_le hk
  have hdisc := h.discriminant_le hk
  have hnonneg := hk.discriminant_nonneg
  have hwidth : |√(discriminant k)| ≤ largest / 2 :=
    abs_le_half_largest (by rwa [Real.sq_sqrt hnonneg])
  have hwidthl : |√(discriminant k)| ≤ largest := abs_sqrt_le hdisc
  have habs := abs_lt.1 hk.abs_b_lt
  unfold root
  rw [h.discriminant_ofReal hk, sqrt_ofReal ((abs_of_nonneg hnonneg).trans_le hdisc) hnonneg, two_eq,
    Scalar.two_eq, Scalar.sqrt_eq]
  simp only [← ofReal_zero, ofReal_lt_ofReal h0 hbl]
  split
  · have hsum : |k.b + √(discriminant k)| ≤ largest := by linarith [abs_add_le k.b √(discriminant k)]
    have hnumerator : |-2 * k.c| ≤ largest := by
      rw [abs_mul, abs_neg, abs_two]
      linarith
    rw [neg_ofReal, ofReal_mul (by rwa [abs_neg]) (by linarith), ofReal_add hbl hwidthl,
      ofReal_div hnumerator hsum (by linarith)]
  · have hsum : |-k.b + √(discriminant k)| ≤ largest := by
      linarith [abs_add_le (-k.b) √(discriminant k), abs_neg k.b]
    obtain ⟨h2a, ha⟩ := h.abs_a_le hk
    rw [neg_ofReal, ofReal_add (by rwa [abs_neg]) hwidthl, ofReal_mul h2 ha,
      ofReal_div hsum h2a (mul_pos two_pos hk.a_pos).ne']

end Tame

/-! ## The segment -/

/-- Does the segment from `x` to `y` leave the ball of radius `r`, with its end far within the range in units
of the radius? -/
structure Moderate (x y : Vec ℝ) (r : ℝ) : Prop where
  size_eq : x.size = y.size
  inside : x.norm < r
  outside : r < y.norm
  normSq_le : y.normSq ≤ largest
  /-- In units of the radius it is far within the range. -/
  unit : 32 * y.normSq ≤ largest * r ^ 2

namespace Moderate

variable {x y : Vec ℝ} {r : ℝ} (h : Moderate x y r)

include h

theorem pos : 0 < r := x.norm_nonneg.trans_lt h.inside

theorem abs_radius_le : |r| ≤ largest := by
  rw [abs_of_pos h.pos]
  exact h.outside.le.trans ((le_abs_self _).trans (Vec.abs_norm_le h.normSq_le))

theorem normSq_start_le : x.normSq ≤ largest := by
  refine le_trans ?_ h.normSq_le
  rw [← x.norm_mul_self, ← y.norm_mul_self]
  exact mul_self_le_mul_self x.norm_nonneg (h.inside.trans h.outside).le

theorem bracketed : Bracketed (coefficients x y r) := by
  refine bracketed_coefficients h.size_eq rfl ?_ ?_
  · rw [← Vec.norm_eq h.size_eq]
    exact h.inside
  · rw [← Vec.norm_eq rfl]
    exact h.outside

/-! ### The coordinates in units of the radius -/

omit h in
/-- The start, in units of the radius. -/
noncomputable def start (x : Vec ℝ) (r : ℝ) (i : ℕ) : ℝ := x.entry i / r

omit h in
/-- The direction of the segment, in units of the radius. -/
noncomputable def direction (x y : Vec ℝ) (r : ℝ) (i : ℕ) : ℝ := y.entry i / r - start x r i

theorem abs_start_le (i : ℕ) : |start x r i| ≤ 1 := by
  rw [start, abs_div, abs_of_pos h.pos, div_le_one h.pos]
  exact (x.abs_entry_le_norm i).trans h.inside.le

theorem sum_start_le : ∑ i ∈ range y.size, start x r i ^ 2 ≤ 1 := by
  have hsum : ∑ i ∈ range y.size, start x r i ^ 2 = (x.norm / r) ^ 2 := by
    rw [div_pow, sq x.norm, x.norm_mul_self, Vec.normSq, Vec.inner_eq_sum, h.size_eq, sum_div]
    exact sum_congr rfl fun i _ => by rw [start, div_pow, sq]
  rw [hsum]
  exact pow_le_one₀ (div_nonneg x.norm_nonneg h.pos.le) ((div_le_one h.pos).2 h.inside.le)

theorem a_eq : (coefficients x y r).a = ∑ i ∈ range y.size, direction x y r i ^ 2 := by
  show Scalar.sum (min x.size y.size) _ = _
  rw [h.size_eq, min_self, Scalar.sum_eq]
  exact sum_congr rfl fun i _ => (sq _).symm

theorem b_eq : (coefficients x y r).b = (∑ i ∈ range y.size, start x r i * direction x y r i) * 2 := by
  show (Scalar.sum (min x.size y.size) _) * Scalar.two = _
  rw [h.size_eq, min_self, Scalar.sum_eq, Scalar.two_eq]
  rfl

theorem a_le : 8 * (coefficients x y r).a ≤ largest := by
  have hr2 : 0 < r ^ 2 := pow_pos h.pos 2
  have hlength : ‖y.toSpace y.size - x.toSpace y.size‖ ≤ 2 * y.norm := by
    have htriangle := norm_sub_le (y.toSpace y.size) (x.toSpace y.size)
    rw [← Vec.norm_eq rfl, ← Vec.norm_eq h.size_eq] at htriangle
    linarith [h.inside, h.outside]
  have hsq : ‖y.toSpace y.size - x.toSpace y.size‖ ^ 2 ≤ 4 * y.normSq := by
    rw [← y.norm_mul_self]
    nlinarith [norm_nonneg (y.toSpace y.size - x.toSpace y.size)]
  refine le_of_mul_le_mul_right ?_ hr2
  rw [mul_assoc, a_coefficients h.size_eq rfl h.pos.ne']
  linarith [h.unit]

/-- Every partial sum of the linear coefficient is bounded by the quadratic one. -/
theorem sq_sum_le {k : ℕ} (hk : k ≤ y.size) :
    (∑ i ∈ range k, start x r i * direction x y r i) ^ 2 ≤ (coefficients x y r).a := by
  have hsub : range k ⊆ range y.size := range_mono hk
  calc (∑ i ∈ range k, start x r i * direction x y r i) ^ 2
      ≤ (∑ i ∈ range k, start x r i ^ 2) * ∑ i ∈ range k, direction x y r i ^ 2 :=
        sum_mul_sq_le_sq_mul_sq _ _ _
    _ ≤ 1 * ∑ i ∈ range y.size, direction x y r i ^ 2 := by
        refine mul_le_mul ?_ ?_ (sum_nonneg fun _ _ => sq_nonneg _) zero_le_one
        · exact (sum_le_sum_of_subset_of_nonneg hsub fun _ _ _ => sq_nonneg _).trans h.sum_start_le
        · exact sum_le_sum_of_subset_of_nonneg hsub fun _ _ _ => sq_nonneg _
    _ = (coefficients x y r).a := by rw [one_mul, h.a_eq]

theorem tame : Tame (coefficients x y r) := by
  have hc : (coefficients x y r).c = (x.norm / r + 1) * (x.norm / r - 1) := rfl
  have hshare : 0 ≤ x.norm / r := div_nonneg x.norm_nonneg h.pos.le
  refine ⟨h.a_le, ?_, ?_⟩
  · rw [h.b_eq, mul_pow]
    linarith [h.sq_sum_le le_rfl]
  · rw [hc]
    nlinarith

/-! ### Nothing overflows -/

theorem sq_direction_le (i : ℕ) : direction x y r i ^ 2 ≤ largest := by
  rcases Nat.lt_or_ge i y.size with hi | hi
  · have hterm : direction x y r i ^ 2 ≤ (coefficients x y r).a := by
      rw [h.a_eq]
      exact single_le_sum (f := fun j => direction x y r j ^ 2) (fun _ _ => sq_nonneg _)
        (mem_range.2 hi)
    linarith [h.a_le, h.bracketed.a_pos]
  · rw [direction, start, Vec.entry_of_size_le hi, Vec.entry_of_size_le (h.size_eq.trans_le hi), zero_div,
      sub_zero, sq, mul_zero]
    exact largest_pos.le

theorem abs_direction_le (i : ℕ) : |direction x y r i| ≤ largest :=
  abs_le_largest_of_sq (h.sq_direction_le i)

theorem start_overflowing (i : ℕ) : x.overflowing.entry i / ofReal r = ofReal (start x r i) := by
  rw [Vec.entry_overflowing,
    ofReal_div (Vec.inRange_of_normSq h.normSq_start_le i) h.abs_radius_le h.pos.ne', start]

theorem direction_overflowing (i : ℕ) :
    y.overflowing.entry i / ofReal r - x.overflowing.entry i / ofReal r =
      ofReal (direction x y r i) := by
  have hstart := h.abs_start_le i
  have hstartl : |start x r i| ≤ largest := by linarith [four_le_largest]
  have hend : |y.entry i / r| ≤ largest := by
    have hsplit : y.entry i / r = direction x y r i + start x r i := by rw [direction]; ring
    rw [hsplit]
    linarith [abs_add_le (direction x y r i) (start x r i), four_le_largest,
      abs_le_half_largest (h.sq_direction_le i)]
  rw [h.start_overflowing, Vec.entry_overflowing,
    ofReal_div (Vec.inRange_of_normSq h.normSq_le i) h.abs_radius_le h.pos.ne',
    ofReal_sub hend hstartl, direction]

theorem a_overflowing :
    (coefficients x.overflowing y.overflowing (ofReal r)).a = ofReal (coefficients x y r).a := by
  have hsq : ∀ i, ofReal (direction x y r i) * ofReal (direction x y r i) =
      ofReal (direction x y r i ^ 2) := fun i => by
    rw [ofReal_mul (h.abs_direction_le i) (h.abs_direction_le i), sq]
  show Scalar.sum (min x.overflowing.size y.overflowing.size) (fun i =>
    (y.overflowing.entry i / ofReal r - x.overflowing.entry i / ofReal r) *
      (y.overflowing.entry i / ofReal r - x.overflowing.entry i / ofReal r)) = _
  simp only [h.direction_overflowing, hsq]
  rw [Vec.size_overflowing, Vec.size_overflowing, h.size_eq, min_self,
    sum_ofReal_of_nonneg fun i _ => sq_nonneg _, h.a_eq]

theorem b_overflowing :
    (coefficients x.overflowing y.overflowing (ofReal r)).b = ofReal (coefficients x y r).b := by
  have htwo := abs_two_le_largest
  have hstart : ∀ i, |start x r i| ≤ largest := fun i => by
    linarith [h.abs_start_le i, four_le_largest]
  have hproduct : ∀ i, ofReal (start x r i) * ofReal (direction x y r i) =
      ofReal (start x r i * direction x y r i) := fun i =>
    ofReal_mul (hstart i) (h.abs_direction_le i)
  have hterm : ∀ i, |start x r i * direction x y r i| ≤ largest := fun i => by
    rw [abs_mul]
    exact (mul_le_of_le_one_left (abs_nonneg _) (h.abs_start_le i)).trans (h.abs_direction_le i)
  have hpartial : ∀ k ≤ y.size, |∑ i ∈ range k, start x r i * direction x y r i| ≤ largest :=
    fun k hk => abs_le_largest_of_sq ((h.sq_sum_le hk).trans
      (by linarith [h.a_le, h.bracketed.a_pos]))
  show Scalar.sum (min x.overflowing.size y.overflowing.size) (fun i =>
    x.overflowing.entry i / ofReal r *
      (y.overflowing.entry i / ofReal r - x.overflowing.entry i / ofReal r)) * Scalar.two = _
  simp only [h.direction_overflowing]
  simp only [h.start_overflowing, hproduct]
  rw [Vec.size_overflowing, Vec.size_overflowing, h.size_eq, min_self,
    sum_ofReal (fun i _ => hterm i) fun k hk => hpartial k hk.le, two_eq,
    ofReal_mul (hpartial _ le_rfl) htwo, h.b_eq]

theorem c_overflowing :
    (coefficients x.overflowing y.overflowing (ofReal r)).c = ofReal (coefficients x y r).c := by
  have hlargest := four_le_largest
  have hone := abs_one_le_largest
  have hshare0 : 0 ≤ x.norm / r := div_nonneg x.norm_nonneg h.pos.le
  have hshare1 : x.norm / r ≤ 1 := (div_le_one h.pos).2 h.inside.le
  have hshare : |x.norm / r| ≤ largest := by rw [abs_of_nonneg hshare0]; linarith
  have hplus : |x.norm / r + 1| ≤ largest := by rw [abs_of_nonneg (by linarith)]; linarith
  have hminus : |x.norm / r - 1| ≤ largest := abs_le.2 ⟨by linarith, by linarith⟩
  show (x.overflowing.norm / ofReal r + 1) * (x.overflowing.norm / ofReal r - 1) = _
  rw [Vec.norm_overflowing_of_le h.normSq_start_le,
    ofReal_div (Vec.abs_norm_le h.normSq_start_le) h.abs_radius_le h.pos.ne', ← ofReal_one,
    ofReal_add hshare hone, ofReal_sub hshare hone, ofReal_mul hplus hminus]
  rfl

/-- The share of the segment is the exact one. -/
theorem share_overflowing :
    share x.overflowing y.overflowing (ofReal r) = ofReal (share x y r) := by
  have hk := h.bracketed
  obtain ⟨hpos, hlt, -⟩ := hk.root_mem
  have h0 := abs_zero_le_largest
  have hcoefficients : coefficients x.overflowing y.overflowing (ofReal r) =
      ⟨ofReal (coefficients x y r).a, ofReal (coefficients x y r).b,
        ofReal (coefficients x y r).c⟩ := by
    rw [← h.a_overflowing, ← h.b_overflowing, ← h.c_overflowing]
  have hexact : share x y r = root (coefficients x y r) :=
    share_eq_root h.size_eq rfl ((Vec.norm_eq h.size_eq).symm.trans_lt h.inside)
      (h.outside.trans_eq (Vec.norm_eq rfl))
  have hguard : ¬ofReal (coefficients x y r).a ≤ 0 := by
    rw [← ofReal_zero, ofReal_le_ofReal (h.tame.abs_a_le hk).2 h0]
    exact not_le.2 hk.a_pos
  unfold share at hexact ⊢
  rw [hcoefficients, hexact, if_neg hguard, h.tame.root_ofReal hk, clamp_ofReal hpos hlt]

theorem share_mem : 0 < share x y r ∧ share x y r < 1 ∧
    ‖x.toSpace y.size + share x y r • (y.toSpace y.size - x.toSpace y.size)‖ = r :=
  Crossing.share_mem h.size_eq rfl ((Vec.norm_eq h.size_eq).symm.trans_lt h.inside)
    (h.outside.trans_eq (Vec.norm_eq rfl))

end Moderate

end Crossing

/-! ## The point -/

namespace DoglegPath

variable {x y : Vec ℝ} {r : ℝ} (h : Crossing.Moderate x y r)

include h

/-- The point on the sphere is the exact one. -/
theorem crossingPoint_overflowing :
    crossingPoint x.overflowing y.overflowing (ofReal r) = (crossingPoint x y r).overflowing := by
  obtain ⟨hpos, hlt, -⟩ := h.share_mem
  have hshare : |Crossing.share x y r| ≤ 1 := by rw [abs_of_pos hpos]; exact hlt.le
  have hentry : ∀ (v : Vec ℝ) i, v.normSq ≤ largest → |v.entry i| ≤ largest / 2 := fun v i hv =>
    (v.abs_entry_le_norm i).trans ((le_abs_self _).trans
      (abs_le_half_largest (by rwa [sq, v.norm_mul_self])))
  unfold crossingPoint
  rw [Vec.overflowing_tabulate, Vec.size_overflowing, h.share_overflowing]
  refine Vec.tabulate_congr fun i _ => ?_
  have hx := hentry x i h.normSq_start_le
  have hy := hentry y i h.normSq_le
  have hpositive := largest_pos
  have hdiff : |y.entry i - x.entry i| ≤ largest := by linarith [abs_sub (y.entry i) (x.entry i)]
  have hway : |Crossing.share x y r * (y.entry i - x.entry i)| ≤ largest := by
    rw [abs_mul]
    exact (mul_le_of_le_one_left (abs_nonneg _) hshare).trans hdiff
  rw [Vec.entry_overflowing, Vec.entry_overflowing, ofReal_sub (by linarith) (by linarith),
    ofReal_mul (by linarith [four_le_largest]) hdiff, ofReal_add (by linarith) hway]

/-- **The step to the crossing** is a vector of numbers whose norm is the radius. -/
theorem within_crossingPoint : (crossingPoint x.overflowing y.overflowing (ofReal r)).Within r := by
  have hsize : (crossingPoint x y r).size = y.size := by
    rw [crossingPoint, Vec.size_tabulate, h.size_eq]
  have hnorm : (crossingPoint x y r).norm = r := by
    rw [Vec.norm_eq hsize, crossingPoint, Vec.toSpace_towards h.size_eq]
    exact h.share_mem.2.2
  refine ⟨crossingPoint x y r, crossingPoint_overflowing h, Vec.inRange_of_norm ?_, hnorm.le⟩
  rw [hnorm]
  exact (le_abs_self r).trans h.abs_radius_le

end DoglegPath

end TrustRegion
