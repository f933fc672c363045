import Mathlib
import TrustRegion.Proofs.Path.Ray
import TrustRegion.Proofs.Path.Reached

/-!
# The best point of the path

The step within a radius lies on the dogleg path (`DoglegPath.Reached.mem_doglegPath`), and no point of
the path within the radius has a lower value of the model: **`DoglegPath.Reached.fall_le`**.

Along the first leg this is the minimality of the Cauchy point on the ray.  On the second leg the model
falls as well, and a point further along is further from the origin, so only the points before the
crossing are within the radius.
-/

namespace TrustRegion

open scoped RealInnerProductSpace

variable {E F : Type*} [NormedAddCommGroup E] [InnerProductSpace ℝ E] [NormedAddCommGroup F]
  [InnerProductSpace ℝ F] {J : E →ₗ[ℝ] F} {g p q : E} {radius : ℝ}

/-- Where there is a stationary point, the Cauchy point has the distance of the formula. -/
theorem IsStationary.coe_norm_cauchyPoint (hp : IsStationary J g p) :
    ((‖cauchyPoint g (‖J g‖ ^ 2)‖ : ℝ) : EReal) = cauchyLength g (‖J g‖ ^ 2) := by
  rcases eq_or_ne g 0 with rfl | hg
  · simp [cauchyPoint]
  have hg' : ‖g‖ ≠ 0 := norm_ne_zero_iff.2 hg
  have hκ : ‖J g‖ ^ 2 ≠ 0 := pow_ne_zero 2 (norm_ne_zero_iff.2 (hp.map_ne_zero hg))
  rw [cauchyLength_of_curved hg hκ]
  congr 1
  unfold cauchyPoint
  rw [norm_neg, norm_smul, Real.norm_of_nonneg (by positivity)]
  ring

/-- The first leg of a path that has a second one. -/
theorem IsStationary.mem_segment_iff (hp : IsStationary J g p) :
    q ∈ segment ℝ 0 (cauchyPoint g (‖J g‖ ^ 2)) ↔
      ∃ t : ℝ, 0 ≤ t ∧ t * ‖J g‖ ^ 2 ≤ ‖g‖ ^ 2 ∧ q = -(t • g) := by
  refine mem_segment_cauchyPoint_iff (sq_nonneg _) fun hflat => ?_
  by_contra hg
  exact hp.map_ne_zero hg (norm_eq_zero.1 (pow_eq_zero_iff two_ne_zero |>.1 hflat))

/-- The point cut off at the radius lies on the first leg. -/
theorem exists_clippedPoint (hr : 0 ≤ radius) : ∃ t : ℝ, 0 ≤ t ∧ t * ‖J g‖ ^ 2 ≤ ‖g‖ ^ 2 ∧
    clippedPoint g (‖J g‖ ^ 2) radius = -(t • g) :=
  ⟨_, div_nonneg (reachWithin_nonneg hr (sq_nonneg _)) (norm_nonneg g),
    reachWithin_mul_le hr (sq_nonneg _), rfl⟩

/-- On the ray the point cut off at the radius is the best one within the radius. -/
theorem fall_le_clippedPoint (hr : 0 ≤ radius) {t : ℝ} (ht : 0 ≤ t) (hin : ‖-(t • g)‖ ≤ radius) :
    fall J g (-(t • g)) ≤ fall J g (clippedPoint g (‖J g‖ ^ 2) radius) := by
  rw [norm_neg, norm_smul, Real.norm_of_nonneg ht] at hin
  exact (lineMinimiser_reachWithin hr).fall_le ht hin

/-- Nothing of the second leg but the Cauchy point is within the distance of the Cauchy point. -/
theorem IsStationary.eq_cauchyPoint (hp : IsStationary J g p) {s : ℝ} (hs : 0 ≤ s)
    (hin : ‖cauchyPoint g (‖J g‖ ^ 2) + s • (p - cauchyPoint g (‖J g‖ ^ 2))‖ ≤
      ‖cauchyPoint g (‖J g‖ ^ 2)‖) :
    cauchyPoint g (‖J g‖ ^ 2) + s • (p - cauchyPoint g (‖J g‖ ^ 2)) =
      cauchyPoint g (‖J g‖ ^ 2) := by
  rcases eq_or_ne (p - cauchyPoint g (‖J g‖ ^ 2)) 0 with hd | hd
  · rw [hd, smul_zero, add_zero]
  rcases hs.eq_or_lt with rfl | hpos
  · rw [zero_smul, add_zero]
  · have hlt := norm_add_smul_strictMono hp.inner_cauchyPoint_nonneg hd le_rfl hpos
    rw [zero_smul, add_zero] at hlt
    exact absurd hin (not_le.2 hlt)

/-- Where the sphere ends the first leg, no point of the path within the radius is better. -/
theorem IsStationary.fall_le_of_reaches (hp : IsStationary J g p) (hr : 0 ≤ radius)
    (reaches : (radius : EReal) ≤ cauchyLength g (‖J g‖ ^ 2))
    (hq : q ∈ doglegPath g (‖J g‖ ^ 2) (some p)) (hin : ‖q‖ ≤ radius) :
    fall J g q ≤ fall J g (clippedPoint g (‖J g‖ ^ 2) radius) := by
  -- a point of the second leg this near is the Cauchy point, which ends the first leg
  have hfirst : q ∈ segment ℝ 0 (cauchyPoint g (‖J g‖ ^ 2)) := by
    rcases hq with hq | hq
    · exact hq
    obtain ⟨s, hs, -, rfl⟩ := (segment_eq_smul _ _ _).1 hq
    rw [← hp.coe_norm_cauchyPoint, EReal.coe_le_coe_iff] at reaches
    rw [hp.eq_cauchyPoint hs (hin.trans reaches)]
    exact right_mem_segment ℝ _ _
  obtain ⟨t, ht, -, rfl⟩ := hp.mem_segment_iff.1 hfirst
  exact fall_le_clippedPoint hr ht hin

/-- Where the sphere crosses the second leg, no point of the path within the radius is better. -/
theorem IsStationary.fall_le_of_crosses (hp : IsStationary J g p) (hr : 0 ≤ radius)
    (passes : cauchyLength g (‖J g‖ ^ 2) < radius) {share : ℝ} (share_pos : 0 < share)
    (share_lt : share < 1)
    (hnorm : ‖cauchyPoint g (‖J g‖ ^ 2) + share • (p - cauchyPoint g (‖J g‖ ^ 2))‖ = radius)
    (hq : q ∈ doglegPath g (‖J g‖ ^ 2) (some p)) (hin : ‖q‖ ≤ radius) :
    fall J g q ≤
      fall J g (cauchyPoint g (‖J g‖ ^ 2) + share • (p - cauchyPoint g (‖J g‖ ^ 2))) := by
  rcases hq with hq | hq
  · obtain ⟨t, ht, -, rfl⟩ := hp.mem_segment_iff.1 hq
    have hcauchy := fall_le_clippedPoint (J := J) hr ht hin
    rw [clippedPoint_of_lt passes] at hcauchy
    have hsecond := hp.fall_mono (cauchyPoint g (‖J g‖ ^ 2)) share_pos.le share_lt.le
    rw [zero_smul, add_zero] at hsecond
    exact hcauchy.trans hsecond
  · obtain ⟨s, hs, hs1, rfl⟩ := (segment_eq_smul _ _ _).1 hq
    rcases le_or_gt s share with hle | hgt
    · exact hp.fall_mono _ hle share_lt.le
    -- beyond the crossing the distance exceeds the radius, unless the leg has no length
    rcases eq_or_ne (p - cauchyPoint g (‖J g‖ ^ 2)) 0 with hd | hd
    · rw [hd, smul_zero, smul_zero]
    · have hlt := norm_add_smul_strictMono hp.inner_cauchyPoint_nonneg hd share_pos.le hgt
      rw [hnorm] at hlt
      exact absurd hin (not_le.2 hlt)

namespace DoglegPath.Reached

variable {n m : ℕ} {J : EuclideanSpace ℝ (Fin n) →ₗ[ℝ] EuclideanSpace ℝ (Fin m)}
  {g q : EuclideanSpace ℝ (Fin n)} {p? : Option (Vec ℝ)} {L : Landing ℝ}

/-- The step lies on the path. -/
theorem mem_doglegPath (h : Reached n g (‖J g‖ ^ 2) radius p? L) (hr : 0 ≤ radius)
    (hp : ∀ p, p? = some p → IsStationary J g (p.toSpace n)) :
    L.step.toSpace n ∈ doglegPath g (‖J g‖ ^ 2) (p?.map (Vec.toSpace n)) := by
  cases h with
  | gaussNewton near => exact Or.inr (right_mem_segment ℝ _ _)
  | before far reaches point =>
      refine Or.inl ?_
      rw [(hp _ rfl).mem_segment_iff]
      obtain ⟨t, ht, hfall, heq⟩ := exists_clippedPoint (J := J) (g := g) hr
      exact ⟨t, ht, hfall, point.trans ((clippedPoint_of_le reaches).symm.trans heq)⟩
  | between far passes share_pos share_lt point norm_eq =>
      exact Or.inr ((segment_eq_smul _ _ _).2 ⟨_, share_pos.le, share_lt.le, point⟩)
  | alone point flag_iff =>
      show _ ∈ doglegPath g (‖J g‖ ^ 2) none
      rw [mem_doglegPath_none_iff (sq_nonneg _)]
      obtain ⟨t, ht, hfall, heq⟩ := exists_clippedPoint (J := J) (g := g) hr
      exact ⟨t, ht, hfall, point.trans heq⟩

/-- **The step is the best point of the path within the radius.** -/
theorem fall_le (h : Reached n g (‖J g‖ ^ 2) radius p? L) (hr : 0 ≤ radius)
    (hp : ∀ p, p? = some p → IsStationary J g (p.toSpace n))
    (hq : q ∈ doglegPath g (‖J g‖ ^ 2) (p?.map (Vec.toSpace n))) (hin : ‖q‖ ≤ radius) :
    fall J g q ≤ fall J g (L.step.toSpace n) := by
  cases h with
  | gaussNewton near => exact (hp _ rfl).fall_le q
  | @before p x far reaches point =>
      show fall J g q ≤ fall J g (x.toSpace n)
      rw [point, ← clippedPoint_of_le reaches]
      exact (hp _ rfl).fall_le_of_reaches hr reaches hq hin
  | @between p x share far passes share_pos share_lt point norm_eq =>
      show fall J g q ≤ fall J g (x.toSpace n)
      rw [point] at norm_eq ⊢
      exact (hp _ rfl).fall_le_of_crosses hr passes share_pos share_lt norm_eq hq hin
  | alone point flag_iff =>
      show fall J g q ≤ fall J g (Vec.toSpace n _)
      rw [point]
      obtain ⟨t, ht, -, rfl⟩ := (mem_doglegPath_none_iff (sq_nonneg _)).1 hq
      exact fall_le_clippedPoint hr ht hin

/-- The Cauchy point, cut off at the radius, lies on the path. -/
theorem clippedPoint_mem (hr : 0 ≤ radius)
    (hp : ∀ p, p? = some p → IsStationary J g (p.toSpace n)) :
    clippedPoint g (‖J g‖ ^ 2) radius ∈ doglegPath g (‖J g‖ ^ 2) (p?.map (Vec.toSpace n)) := by
  have hclipped := exists_clippedPoint (J := J) (g := g) hr
  cases p? with
  | none => exact (mem_doglegPath_none_iff (sq_nonneg _)).2 hclipped
  | some p => exact Or.inl ((hp p rfl).mem_segment_iff.2 hclipped)

/-- The model falls at least as far as to the Cauchy point, cut off at the radius. -/
theorem fall_clippedPoint_le (h : Reached n g (‖J g‖ ^ 2) radius p? L) (hr : 0 ≤ radius)
    (hp : ∀ p, p? = some p → IsStationary J g (p.toSpace n)) :
    fall J g (clippedPoint g (‖J g‖ ^ 2) radius) ≤ fall J g (L.step.toSpace n) := by
  refine h.fall_le hr hp (clippedPoint_mem hr hp) ?_
  rw [norm_clippedPoint hr (sq_nonneg _)]
  exact reachWithin_le hr (sq_nonneg _)

end DoglegPath.Reached

end TrustRegion
