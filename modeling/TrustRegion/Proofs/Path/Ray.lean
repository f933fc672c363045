import Mathlib
import TrustRegion.Proofs.Path.Geometry

/-!
# The best point of the ray

The Cauchy point, cut off at a radius, is the one point of the ray of steepest descent within the radius
at which the model is lowest: **`lineMinimiser_reachWithin`**.  Up to it the model falls, and if it is not
the radius that ends the way, the slope has come to its end there and the model rises again.
-/

namespace TrustRegion

variable {E F : Type*} [NormedAddCommGroup E] [NormedAddCommGroup F] {g : E} {κ radius s t u : ℝ}

/-! ## Where the way ends -/

/-- The radius is reached exactly if the Cauchy point is at least as far away. -/
theorem reachWithin_eq_iff (hr : 0 ≤ radius) (hκ : 0 ≤ κ) :
    reachWithin g κ radius = radius ↔ (radius : EReal) ≤ cauchyLength g κ := by
  rw [← min_eq_left_iff, ← coe_reachWithin hr hκ, EReal.coe_eq_coe_iff]

/-- As a multiple of the gradient, the way is as long as it can be. -/
theorem reachWithin_div_mul (hg : g ≠ 0) :
    reachWithin g κ radius / ‖g‖ * ‖g‖ = reachWithin g κ radius :=
  div_mul_cancel₀ _ (norm_ne_zero_iff.2 hg)

/-- If it is not the radius that ends the way, the slope has come to its end. -/
theorem reachWithin_mul_eq (hr : 0 ≤ radius) (hκ : 0 ≤ κ) (hg : g ≠ 0)
    (h : reachWithin g κ radius < radius) : reachWithin g κ radius / ‖g‖ * κ = ‖g‖ ^ 2 := by
  have hlt : cauchyLength g κ < radius := not_le.1 fun hle => h.ne ((reachWithin_eq_iff hr hκ).2 hle)
  have hg' : ‖g‖ ≠ 0 := norm_ne_zero_iff.2 hg
  have hκ' : κ ≠ 0 := by
    rintro rfl
    rw [cauchyLength_of_flat hg] at hlt
    exact not_top_lt hlt
  rw [reachWithin_of_lt hlt]
  field_simp

variable [InnerProductSpace ℝ E] [InnerProductSpace ℝ F] {J : E →ₗ[ℝ] F}

/-! ## Up and down -/

/-- Up to the Cauchy point the model falls strictly, if there is a slope at all. -/
theorem fall_neg_smul_strictMono (hg : g ≠ 0) (hst : s < t) (ht : t * ‖J g‖ ^ 2 ≤ ‖g‖ ^ 2) :
    fall J g (-(s • g)) < fall J g (-(t • g)) := by
  have hg' : 0 < ‖g‖ ^ 2 := pow_pos (norm_pos_iff.2 hg) 2
  have hmean : (t + s) / 2 * ‖J g‖ ^ 2 < ‖g‖ ^ 2 := by
    rcases (sq_nonneg ‖J g‖).eq_or_lt with hflat | hcurved
    · rw [← hflat, mul_zero]
      exact hg'
    · exact (mul_lt_mul_of_pos_right (by linarith) hcurved).trans_le ht
  rw [← sub_pos, fall_neg_smul_sub]
  exact mul_pos (sub_pos.2 hst) (sub_pos.2 hmean)

/-- Beyond the Cauchy point the model rises strictly. -/
theorem fall_neg_smul_strictAnti (hg : g ≠ 0) (htu : t < u) (ht : t * ‖J g‖ ^ 2 = ‖g‖ ^ 2) :
    fall J g (-(u • g)) < fall J g (-(t • g)) := by
  have hcurved : 0 < ‖J g‖ ^ 2 := by
    refine lt_of_le_of_ne (sq_nonneg _) fun hflat => ?_
    rw [← hflat, mul_zero] at ht
    exact pow_ne_zero 2 (norm_ne_zero_iff.2 hg) ht.symm
  have hmean : ‖g‖ ^ 2 < (t + u) / 2 * ‖J g‖ ^ 2 := by
    rw [← ht]
    exact mul_lt_mul_of_pos_right (by linarith) hcurved
  rw [← sub_pos, fall_neg_smul_sub]
  exact mul_pos_of_neg_of_neg (sub_neg.2 htu) (sub_neg.2 hmean)

/-! ## The line minimiser -/

/-- Is `-t g` the best point of the ray within the radius? -/
structure LineMinimiser (J : E →ₗ[ℝ] F) (g : E) (radius t : ℝ) : Prop where
  nonneg : 0 ≤ t
  within : t * ‖g‖ ≤ radius
  /-- Any other multiple of a gradient that does not vanish is worse. -/
  fall_lt : g ≠ 0 → ∀ u, 0 ≤ u → u * ‖g‖ ≤ radius → u ≠ t →
    fall J g (-(u • g)) < fall J g (-(t • g))

/-- No point of the ray within the radius is better. -/
theorem LineMinimiser.fall_le (h : LineMinimiser J g radius t) (hu : 0 ≤ u) (hin : u * ‖g‖ ≤ radius) :
    fall J g (-(u • g)) ≤ fall J g (-(t • g)) := by
  rcases eq_or_ne g 0 with rfl | hg
  · rw [smul_zero, smul_zero]
  rcases eq_or_ne u t with rfl | hne
  · exact le_rfl
  · exact (h.fall_lt hg u hu hin hne).le

/-- **The Cauchy point, cut off at the radius, is the best point of the ray within the radius.** -/
theorem lineMinimiser_reachWithin (hr : 0 ≤ radius) :
    LineMinimiser J g radius (reachWithin g (‖J g‖ ^ 2) radius / ‖g‖) := by
  have hκ : 0 ≤ ‖J g‖ ^ 2 := sq_nonneg _
  refine ⟨div_nonneg (reachWithin_nonneg hr hκ) (norm_nonneg g), ?_, fun hg u hu hin hne => ?_⟩
  · rcases eq_or_ne g 0 with rfl | hg
    · rwa [norm_zero, mul_zero]
    · rw [reachWithin_div_mul hg]
      exact reachWithin_le hr hκ
  · rcases hne.lt_or_gt with hlt | hgt
    · exact fall_neg_smul_strictMono hg hlt (reachWithin_mul_le hr hκ)
    · -- a longer way within the radius shows that it is not the radius that ends the way
      have hshort : reachWithin g (‖J g‖ ^ 2) radius < radius := by
        rw [← reachWithin_div_mul hg]
        exact (mul_lt_mul_of_pos_right hgt (norm_pos_iff.2 hg)).trans_le hin
      exact fall_neg_smul_strictAnti hg hgt (reachWithin_mul_eq hr hκ hg hshort)

end TrustRegion
