import Mathlib

/-!
# The geometry of a dogleg path

A quadratic model `⟪g, h⟫ + ½ ‖J h‖²` falls along the ray `-t g` as long as `t ‖J g‖² ≤ ‖g‖²`, that is,
up to its Cauchy point.  From there on the path leads to a stationary point `p` of the model.

* `half_le_fall` — the model falls along the ray by at least half of what its slope promises.
* `IsStationary.fall_le`, `IsStationary.fall_mono` — a stationary point is a minimiser, and the model
  falls all the way towards it from anywhere.
* **`IsStationary.inner_cauchyPoint_nonneg`** — the way from the Cauchy point to a stationary point
  never turns back towards the origin, so the distance from the origin grows along it
  (`norm_add_smul_mono`).
* `mem_segment_cauchyPoint_iff`, `mem_doglegPath_none_iff` — the leg of the path on the ray.
-/

namespace TrustRegion

open scoped RealInnerProductSpace

variable {E F : Type*} [NormedAddCommGroup E] [NormedAddCommGroup F]

/-! ## How far away the Cauchy point is -/

open Classical in
/-- The distance of the Cauchy point from the origin, for a gradient `g` with the curvature `κ = g·B g`:
zero where the gradient vanishes, infinite where the model has no curvature along it, and `‖g‖³ / κ`
otherwise. -/
noncomputable def cauchyLength (g : E) (κ : ℝ) : EReal :=
  if g = 0 then 0 else if κ = 0 then ⊤ else ((‖g‖ ^ 3 / κ : ℝ) : EReal)

section Length

variable {g : E} {κ : ℝ}

@[simp] theorem cauchyLength_zero (κ : ℝ) : cauchyLength (0 : E) κ = 0 := if_pos rfl

theorem cauchyLength_of_flat (hg : g ≠ 0) : cauchyLength g 0 = ⊤ := by
  unfold cauchyLength
  rw [if_neg hg, if_pos rfl]

theorem cauchyLength_of_curved (hg : g ≠ 0) (hκ : κ ≠ 0) :
    cauchyLength g κ = ((‖g‖ ^ 3 / κ : ℝ) : EReal) := by
  unfold cauchyLength
  rw [if_neg hg, if_neg hκ]

theorem cauchyLength_nonneg (hκ : 0 ≤ κ) : 0 ≤ cauchyLength g κ := by
  unfold cauchyLength
  split_ifs with h h'
  · exact le_rfl
  · exact le_top
  · exact EReal.coe_nonneg.2 (by positivity)

/-- The distance of the Cauchy point, cut off at a radius. -/
noncomputable def reachWithin (g : E) (κ radius : ℝ) : ℝ :=
  (min (radius : EReal) (cauchyLength g κ)).toReal

variable {radius : ℝ}

theorem coe_reachWithin (hr : 0 ≤ radius) (hκ : 0 ≤ κ) :
    ((reachWithin g κ radius : ℝ) : EReal) = min (radius : EReal) (cauchyLength g κ) := by
  refine EReal.coe_toReal (ne_of_lt ?_) (ne_of_gt ?_)
  · exact (min_le_left _ _).trans_lt (EReal.coe_lt_top _)
  · exact (EReal.bot_lt_zero).trans_le (le_min (EReal.coe_nonneg.2 hr) (cauchyLength_nonneg hκ))

theorem reachWithin_nonneg (hr : 0 ≤ radius) (hκ : 0 ≤ κ) : 0 ≤ reachWithin g κ radius :=
  EReal.toReal_nonneg (le_min (EReal.coe_nonneg.2 hr) (cauchyLength_nonneg hκ))

theorem reachWithin_le (hr : 0 ≤ radius) (hκ : 0 ≤ κ) : reachWithin g κ radius ≤ radius := by
  rw [← EReal.coe_le_coe_iff, coe_reachWithin hr hκ]
  exact min_le_left _ _

theorem reachWithin_of_le (h : (radius : EReal) ≤ cauchyLength g κ) :
    reachWithin g κ radius = radius := by
  unfold reachWithin
  rw [min_eq_left h, EReal.toReal_coe]

/-- A Cauchy point closer than the radius is not cut off. -/
theorem reachWithin_of_lt (h : cauchyLength g κ < radius) :
    reachWithin g κ radius = ‖g‖ ^ 3 / κ := by
  unfold reachWithin
  rw [min_eq_right h.le]
  rcases eq_or_ne g 0 with rfl | hg
  · simp
  rcases eq_or_ne κ 0 with rfl | hκ
  · rw [cauchyLength_of_flat hg] at h
    exact absurd h not_top_lt
  · rw [cauchyLength_of_curved hg hκ, EReal.toReal_coe]

@[simp] theorem reachWithin_zero (hr : 0 ≤ radius) : reachWithin (0 : E) κ radius = 0 := by
  unfold reachWithin
  rw [cauchyLength_zero, min_eq_right (EReal.coe_nonneg.2 hr), EReal.toReal_zero]

theorem reachWithin_pos (hr : 0 < radius) (hκ : 0 ≤ κ) (hg : g ≠ 0) :
    0 < reachWithin g κ radius := by
  rw [← EReal.coe_pos, coe_reachWithin hr.le hκ]
  refine lt_min (EReal.coe_pos.2 hr) ?_
  rcases hκ.eq_or_lt with rfl | hκ'
  · rw [cauchyLength_of_flat hg]
    exact EReal.zero_lt_top
  · rw [cauchyLength_of_curved hg hκ'.ne']
    exact EReal.coe_pos.2 (div_pos (pow_pos (norm_pos_iff.2 hg) 3) hκ')

/-- Up to that distance the model falls along the ray. -/
theorem reachWithin_mul_le (hr : 0 ≤ radius) (hκ : 0 ≤ κ) :
    reachWithin g κ radius / ‖g‖ * κ ≤ ‖g‖ ^ 2 := by
  rcases eq_or_ne g 0 with rfl | hg
  · simp
  rcases hκ.eq_or_lt with rfl | hκ'
  · rw [mul_zero]
    positivity
  have hg' : 0 < ‖g‖ := norm_pos_iff.2 hg
  have hle : reachWithin g κ radius ≤ ‖g‖ ^ 3 / κ := by
    rw [← EReal.coe_le_coe_iff, coe_reachWithin hr hκ, cauchyLength_of_curved hg hκ'.ne']
    exact min_le_right _ _
  rw [le_div_iff₀ hκ'] at hle
  rw [div_mul_eq_mul_div, div_le_iff₀ hg']
  linarith

end Length

variable [InnerProductSpace ℝ E] [InnerProductSpace ℝ F]

/-! ## The path -/

/-- The Cauchy point, where there is one. -/
noncomputable def cauchyPoint (g : E) (κ : ℝ) : E := -((‖g‖ ^ 2 / κ) • g)

open Classical in
/-- The dogleg path, with its last point if there is one: the segments from the origin over the Cauchy
point to the last point, or, without a last point, the segment to the Cauchy point or the whole ray. -/
noncomputable def doglegPath (g : E) (κ : ℝ) : Option E → Set E
  | some p => segment ℝ 0 (cauchyPoint g κ) ∪ segment ℝ (cauchyPoint g κ) p
  | none =>
      if g ≠ 0 ∧ κ = 0 then {q | ∃ t : ℝ, 0 ≤ t ∧ q = -(t • g)}
      else segment ℝ 0 (cauchyPoint g κ)

/-- By how much the model falls from the origin to `h`. -/
noncomputable def fall (J : E →ₗ[ℝ] F) (g h : E) : ℝ := -(⟪g, h⟫ + ‖J h‖ ^ 2 / 2)

/-- Does the gradient of the model vanish at `p`? -/
def IsStationary (J : E →ₗ[ℝ] F) (g p : E) : Prop := ∀ v, ⟪J p, J v⟫ = -⟪g, v⟫

variable {J : E →ₗ[ℝ] F} {g p : E} {κ : ℝ}

/-! ## Along the ray -/

/-- The point of the ray at the distance of the Cauchy point, cut off at a radius. -/
noncomputable def clippedPoint (g : E) (κ radius : ℝ) : E := -((reachWithin g κ radius / ‖g‖) • g)

section Clipped

variable {radius : ℝ}

theorem norm_clippedPoint (hr : 0 ≤ radius) (hκ : 0 ≤ κ) :
    ‖clippedPoint g κ radius‖ = reachWithin g κ radius := by
  unfold clippedPoint
  rcases eq_or_ne g 0 with rfl | hg
  · rw [smul_zero, neg_zero, norm_zero, reachWithin_zero hr]
  · have hg' : ‖g‖ ≠ 0 := norm_ne_zero_iff.2 hg
    rw [norm_neg, norm_smul, Real.norm_of_nonneg
      (div_nonneg (reachWithin_nonneg hr hκ) (norm_nonneg _)), div_mul_cancel₀ _ hg']

/-- A point that the radius ends lies on the sphere, straight down the slope. -/
theorem clippedPoint_of_le (h : (radius : EReal) ≤ cauchyLength g κ) :
    clippedPoint g κ radius = -((radius / ‖g‖) • g) := by
  unfold clippedPoint
  rw [reachWithin_of_le h]

/-- A Cauchy point within the radius is not cut off. -/
theorem clippedPoint_of_lt (h : cauchyLength g κ < radius) :
    clippedPoint g κ radius = cauchyPoint g κ := by
  unfold clippedPoint cauchyPoint
  rw [reachWithin_of_lt h]
  rcases eq_or_ne g 0 with rfl | hg
  · simp
  · have hg' : ‖g‖ ≠ 0 := norm_ne_zero_iff.2 hg
    congr 2
    field_simp

/-- It lies inside the sphere. -/
theorem norm_clippedPoint_lt (hκ : 0 ≤ κ) (h : cauchyLength g κ < radius) :
    ‖clippedPoint g κ radius‖ < radius := by
  -- a radius that goes beyond a distance is positive
  have hr : 0 < radius := EReal.coe_pos.1 ((cauchyLength_nonneg hκ).trans_lt h)
  rw [norm_clippedPoint hr.le hκ, ← EReal.coe_lt_coe_iff, coe_reachWithin hr.le hκ]
  exact (min_le_right _ _).trans_lt h

end Clipped

theorem fall_neg_smul (t : ℝ) :
    fall J g (-(t • g)) = t * ‖g‖ ^ 2 - t ^ 2 * ‖J g‖ ^ 2 / 2 := by
  unfold fall
  rw [inner_neg_right, inner_smul_right, real_inner_self_eq_norm_sq, map_neg, map_smul, norm_neg,
    norm_smul, mul_pow, Real.norm_eq_abs, sq_abs]
  ring

/-- How much further the model falls along the ray depends on the slope half-way. -/
theorem fall_neg_smul_sub (s t : ℝ) :
    fall J g (-(t • g)) - fall J g (-(s • g)) =
      (t - s) * (‖g‖ ^ 2 - (t + s) / 2 * ‖J g‖ ^ 2) := by
  rw [fall_neg_smul, fall_neg_smul]
  ring

/-- Up to the Cauchy point the model falls by at least half of what its slope at the origin
promises. -/
theorem half_le_fall {t : ℝ} (h0 : 0 ≤ t) (ht : t * ‖J g‖ ^ 2 ≤ ‖g‖ ^ 2) :
    t * ‖g‖ ^ 2 / 2 ≤ fall J g (-(t • g)) := by
  have := mul_le_mul_of_nonneg_left ht h0
  rw [fall_neg_smul]
  linarith

/-! ## Towards a stationary point -/

namespace IsStationary

theorem inner_self (hp : IsStationary J g p) : ⟪g, p⟫ = -‖J p‖ ^ 2 := by
  rw [← real_inner_self_eq_norm_sq, hp p, neg_neg]

theorem fall_eq (hp : IsStationary J g p) (h : E) :
    fall J g h = fall J g p - ‖J (h - p)‖ ^ 2 / 2 := by
  have hh : ⟪J h, J p⟫ = -⟪g, h⟫ := by rw [real_inner_comm, hp h]
  unfold fall
  rw [hp.inner_self, map_sub, norm_sub_sq_real, hh]
  ring

/-- A stationary point is a minimiser of the model. -/
theorem fall_le (hp : IsStationary J g p) (h : E) : fall J g h ≤ fall J g p := by
  rw [hp.fall_eq h]
  exact sub_le_self _ (by positivity)

/-- The model falls all the way towards a stationary point. -/
theorem fall_mono (hp : IsStationary J g p) (x : E) {s t : ℝ} (hst : s ≤ t) (ht : t ≤ 1) :
    fall J g (x + s • (p - x)) ≤ fall J g (x + t • (p - x)) := by
  have hdist : ∀ r : ℝ, ‖J (x + r • (p - x) - p)‖ ^ 2 = (1 - r) ^ 2 * ‖J (x - p)‖ ^ 2 := by
    intro r
    rw [show x + r • (p - x) - p = (1 - r) • (x - p) by module, map_smul, norm_smul, mul_pow,
      Real.norm_eq_abs, sq_abs]
  have hpow : (1 - t) ^ 2 ≤ (1 - s) ^ 2 := pow_le_pow_left₀ (by linarith) (by linarith) 2
  have := mul_le_mul_of_nonneg_right hpow (sq_nonneg ‖J (x - p)‖)
  rw [hp.fall_eq, hp.fall_eq (x + t • (p - x)), hdist, hdist]
  linarith

/-- Where there is a stationary point, the model has curvature along its gradient. -/
theorem map_ne_zero (hp : IsStationary J g p) (hg : g ≠ 0) : J g ≠ 0 := by
  intro h
  have := hp g
  rw [h, inner_zero_right, real_inner_self_eq_norm_sq, eq_comm, neg_eq_zero] at this
  exact hg (norm_eq_zero.1 (pow_eq_zero_iff two_ne_zero |>.1 this))

/-- As a share of the gradient, the Cauchy point is where the slope along the ray ends. -/
theorem slope_mul_curvature (hp : IsStationary J g p) :
    ‖g‖ ^ 2 / ‖J g‖ ^ 2 * ‖J g‖ ^ 2 = ‖g‖ ^ 2 := by
  rcases eq_or_ne g 0 with rfl | hg
  · simp
  · exact div_mul_cancel₀ _ (pow_ne_zero 2 (norm_ne_zero_iff.2 (hp.map_ne_zero hg)))

/-- How far the second leg leads away from the origin: as far as its image under `J` is long. -/
theorem inner_cauchyPoint (hp : IsStationary J g p) :
    ⟪cauchyPoint g (‖J g‖ ^ 2), p - cauchyPoint g (‖J g‖ ^ 2)⟫ =
      ‖g‖ ^ 2 / ‖J g‖ ^ 2 * ‖J (p - cauchyPoint g (‖J g‖ ^ 2))‖ ^ 2 := by
  have hslope := hp.slope_mul_curvature
  unfold cauchyPoint
  generalize ‖g‖ ^ 2 / ‖J g‖ ^ 2 = t at hslope ⊢
  have hleft : ⟪-(t • g), p - -(t • g)⟫ = t * ‖J p‖ ^ 2 - t ^ 2 * ‖g‖ ^ 2 := by
    rw [sub_neg_eq_add, inner_neg_left, inner_add_right, real_inner_smul_left,
      real_inner_smul_left, inner_smul_right, hp.inner_self, real_inner_self_eq_norm_sq]
    ring
  have hright : ‖J (p - -(t • g))‖ ^ 2 = ‖J p‖ ^ 2 - 2 * t * ‖g‖ ^ 2 + t ^ 2 * ‖J g‖ ^ 2 := by
    rw [sub_neg_eq_add, map_add, map_smul, norm_add_sq_real, inner_smul_right, hp g,
      real_inner_self_eq_norm_sq, norm_smul, mul_pow, Real.norm_eq_abs, sq_abs]
    ring
  rw [hleft, hright]
  linear_combination -t ^ 2 * hslope

/-- **The second leg never turns back.** -/
theorem inner_cauchyPoint_nonneg (hp : IsStationary J g p) :
    0 ≤ ⟪cauchyPoint g (‖J g‖ ^ 2), p - cauchyPoint g (‖J g‖ ^ 2)⟫ := by
  rw [hp.inner_cauchyPoint]
  positivity

end IsStationary

/-! ## Along a way that does not turn back -/

section NeverTurnsBack

variable {x d : E} {s t : ℝ}

theorem norm_add_smul_sq (x d : E) (t : ℝ) :
    ‖x + t • d‖ ^ 2 = ‖x‖ ^ 2 + 2 * t * ⟪x, d⟫ + t ^ 2 * ‖d‖ ^ 2 := by
  rw [norm_add_sq_real, inner_smul_right, norm_smul, mul_pow, Real.norm_eq_abs, sq_abs]
  ring

/-- The distance from the origin grows, unless the way has no length. -/
theorem norm_add_smul_strictMono (hx : 0 ≤ ⟪x, d⟫) (hd : d ≠ 0) (hs : 0 ≤ s) (hst : s < t) :
    ‖x + s • d‖ < ‖x + t • d‖ := by
  refine (sq_lt_sq₀ (norm_nonneg _) (norm_nonneg _)).1 ?_
  have hd' : 0 < ‖d‖ ^ 2 := pow_pos (norm_pos_iff.2 hd) 2
  have h1 := mul_le_mul_of_nonneg_right hst.le hx
  have h2 := mul_lt_mul_of_pos_right (pow_lt_pow_left₀ hst hs two_ne_zero) hd'
  rw [norm_add_smul_sq, norm_add_smul_sq]
  linarith

end NeverTurnsBack

/-! ## The leg on the ray -/

theorem segment_eq_smul (x y q : E) :
    q ∈ segment ℝ x y ↔ ∃ t : ℝ, 0 ≤ t ∧ t ≤ 1 ∧ q = x + t • (y - x) := by
  rw [segment_eq_image']
  constructor
  · rintro ⟨t, ht, rfl⟩
    exact ⟨t, ht.1, ht.2, rfl⟩
  · rintro ⟨t, h0, h1, rfl⟩
    exact ⟨t, ⟨h0, h1⟩, rfl⟩

/-- The points of the first leg. -/
theorem mem_segment_cauchyPoint_iff (hκ : 0 ≤ κ) (hcurved : κ = 0 → g = 0) {q : E} :
    q ∈ segment ℝ 0 (cauchyPoint g κ) ↔
      ∃ t : ℝ, 0 ≤ t ∧ t * κ ≤ ‖g‖ ^ 2 ∧ q = -(t • g) := by
  rw [segment_eq_smul]
  rcases eq_or_ne g 0 with rfl | hg
  · constructor
    · rintro ⟨t, -, -, rfl⟩
      exact ⟨0, le_rfl, by simp, by simp [cauchyPoint]⟩
    · rintro ⟨t, -, -, rfl⟩
      exact ⟨0, le_rfl, zero_le_one, by simp⟩
  have hκ' : 0 < κ := lt_of_le_of_ne hκ fun h => hg (hcurved h.symm)
  have hg' : 0 < ‖g‖ ^ 2 := pow_pos (norm_pos_iff.2 hg) 2
  constructor
  · rintro ⟨t, h0, h1, rfl⟩
    refine ⟨t * (‖g‖ ^ 2 / κ), by positivity, ?_, ?_⟩
    · rw [mul_assoc, div_mul_cancel₀ _ hκ'.ne']
      exact mul_le_of_le_one_left hg'.le h1
    · unfold cauchyPoint
      module
  · rintro ⟨t, h0, h1, rfl⟩
    refine ⟨t * κ / ‖g‖ ^ 2, by positivity, (div_le_one hg').2 h1, ?_⟩
    unfold cauchyPoint
    rw [sub_zero, zero_add, smul_neg, smul_smul, div_mul_div_comm, mul_comm (‖g‖ ^ 2) κ,
      mul_div_mul_right _ _ hg'.ne', mul_div_cancel_right₀ _ hκ'.ne']

/-- The path without a last point is the part of the ray along which the model falls. -/
theorem mem_doglegPath_none_iff (hκ : 0 ≤ κ) {q : E} :
    q ∈ doglegPath g κ none ↔ ∃ t : ℝ, 0 ≤ t ∧ t * κ ≤ ‖g‖ ^ 2 ∧ q = -(t • g) := by
  unfold doglegPath
  by_cases h : g ≠ 0 ∧ κ = 0
  · rw [if_pos h, h.2]
    constructor
    · rintro ⟨t, h0, rfl⟩
      exact ⟨t, h0, by rw [mul_zero]; positivity, rfl⟩
    · rintro ⟨t, h0, -, rfl⟩
      exact ⟨t, h0, rfl⟩
  · rw [if_neg h]
    refine mem_segment_cauchyPoint_iff hκ fun hzero => ?_
    by_contra hg
    exact h ⟨hg, hzero⟩

end TrustRegion
