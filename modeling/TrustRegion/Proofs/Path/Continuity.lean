import Mathlib
import TrustRegion.Proofs.Path.Optimality
import TrustRegion.Proofs.Solver.Exact

/-!
# The step moves continuously with the radius

Three formulas give the step, and which of them applies is decided by comparing the radius with two
distances.  Where one formula gives way to the next the step might jump.  It does not:

* with a Gauss-Newton point the path is compact, and no two of its points are at the same distance from
  the origin (`IsStationary.injOn_norm`).  The step is the point of the path whose distance is the lesser
  of the radius and `‖p_GN‖`, so it moves as continuously as that distance does;
* without one it is the Cauchy point cut off at the radius, and how far away that is varies continuously
  (`continuousOn_reachWithin`).

The formulas themselves are not looked at: **`DoglegPath.continuousOn_landing`** covers both seams, and
the case that they coincide, at once.
-/

namespace TrustRegion

open Set
open scoped RealInnerProductSpace

/-- A map into a compact set is continuous if a continuous quantity that tells the points of the set
apart varies continuously along it. -/
theorem continuousOn_of_comp {X Y Z : Type*} [TopologicalSpace X] [TopologicalSpace Y]
    [TopologicalSpace Z] [T2Space Z] {S : Set X} {K : Set Y} {f : Y → Z} {h : X → Y}
    (hK : IsCompact K) (hf : ContinuousOn f K) (hinj : InjOn f K) (hmaps : MapsTo h S K)
    (hcomp : ContinuousOn (f ∘ h) S) : ContinuousOn h S := by
  have hspace : CompactSpace K := isCompact_iff_compactSpace.1 hK
  have hemb := (hf.domRestrict.isClosedEmbedding (injOn_iff_injective.1 hinj)).isEmbedding
  have hlift : Continuous (hmaps.restrict h S K) :=
    hemb.continuous_iff.2 (continuousOn_iff_continuous_domRestrict.1 hcomp)
  exact continuousOn_iff_continuous_domRestrict.2 (continuous_subtype_val.comp hlift)

variable {E F : Type*} [NormedAddCommGroup E] [InnerProductSpace ℝ E] [NormedAddCommGroup F]
  [InnerProductSpace ℝ F] {J : E →ₗ[ℝ] F} {g p q x y : E}

/-! ## The path -/

theorem isCompact_segment (x y : E) : IsCompact (segment ℝ x y) := by
  rw [segment_eq_image']
  exact isCompact_Icc.image (by fun_prop)

theorem isCompact_doglegPath (g : E) (κ : ℝ) (p : E) : IsCompact (doglegPath g κ (some p)) :=
  (isCompact_segment _ _).union (isCompact_segment _ _)

/-- Along a way that does not turn back the distance from the origin tells the points apart. -/
theorem injOn_norm_segment (h : 0 ≤ ⟪x, y - x⟫) : InjOn (fun q : E => ‖q‖) (segment ℝ x y) := by
  intro q hq q' hq' hnorm
  obtain ⟨s, hs, -, rfl⟩ := (segment_eq_smul x y q).1 hq
  obtain ⟨t, ht, -, rfl⟩ := (segment_eq_smul x y q').1 hq'
  rcases eq_or_ne (y - x) 0 with hd | hd
  · rw [hd, smul_zero, smul_zero]
  rcases lt_trichotomy s t with hlt | rfl | hlt
  · exact absurd hnorm (norm_add_smul_strictMono h hd hs hlt).ne
  · rfl
  · exact absurd hnorm (norm_add_smul_strictMono h hd ht hlt).ne'

/-- The points of the second leg are at least as far away as those of the first. -/
theorem IsStationary.mem_first_of_norm_le (hp : IsStationary J g p)
    (hq : q ∈ doglegPath g (‖J g‖ ^ 2) (some p)) (hnorm : ‖q‖ ≤ ‖cauchyPoint g (‖J g‖ ^ 2)‖) :
    q ∈ segment ℝ 0 (cauchyPoint g (‖J g‖ ^ 2)) := by
  rcases hq with hq | hq
  · exact hq
  · obtain ⟨s, hs, -, rfl⟩ := (segment_eq_smul _ _ _).1 hq
    rw [hp.eq_cauchyPoint hs hnorm]
    exact right_mem_segment ℝ _ _

/-- **The distance from the origin tells the points of the path apart.** -/
theorem IsStationary.injOn_norm (hp : IsStationary J g p) :
    InjOn (fun q : E => ‖q‖) (doglegPath g (‖J g‖ ^ 2) (some p)) := by
  have hfirst := injOn_norm_segment (x := (0 : E)) (y := cauchyPoint g (‖J g‖ ^ 2))
    (inner_zero_left _).ge
  intro q hq q' hq' hnorm
  rcases le_or_gt ‖q‖ ‖cauchyPoint g (‖J g‖ ^ 2)‖ with hnear | hfar
  · exact hfirst (hp.mem_first_of_norm_le hq hnear)
      (hp.mem_first_of_norm_le hq' (hnorm.symm.trans_le hnear)) hnorm
  · -- beyond the Cauchy point there is only the second leg
    have hsecond : ∀ r ∈ doglegPath g (‖J g‖ ^ 2) (some p), ‖cauchyPoint g (‖J g‖ ^ 2)‖ < ‖r‖ →
        r ∈ segment ℝ (cauchyPoint g (‖J g‖ ^ 2)) p := by
      rintro r (hr | hr) hlt
      · obtain ⟨t, ht, ht1, rfl⟩ := (segment_eq_smul _ _ _).1 hr
        rw [zero_add, sub_zero, norm_smul, Real.norm_of_nonneg ht] at hlt
        exact absurd hlt (not_lt.2 (mul_le_of_le_one_left (norm_nonneg _) ht1))
      · exact hr
    exact injOn_norm_segment hp.inner_cauchyPoint_nonneg (hsecond q hq hfar)
      (hsecond q' hq' (hfar.trans_eq hnorm)) hnorm

/-! ## The ray -/

omit [InnerProductSpace ℝ E] in
/-- How far one gets on the ray varies continuously with the radius. -/
theorem continuousOn_reachWithin {κ : ℝ} (hκ : 0 ≤ κ) : ContinuousOn (reachWithin g κ) (Ici 0) := by
  refine EReal.continuousOn_toReal.comp (continuous_coe_real_ereal.min continuous_const).continuousOn
    fun r hr => ?_
  rw [← coe_reachWithin hr hκ]
  simp

theorem continuousOn_clippedPoint {κ : ℝ} (hκ : 0 ≤ κ) :
    ContinuousOn (clippedPoint g κ) (Ici 0) :=
  (((continuousOn_reachWithin hκ).div_const _).smul continuousOn_const).neg

/-! ## The step -/

namespace DoglegPath

variable {n m : ℕ} {l : Linearization ℝ} {kind : SolverKind} {tolerance : ℝ}

/-- **The step moves continuously with the radius.** -/
theorem continuousOn_landing (hl : l.check n m = .ok ()) (hg : kind = .qr → l.Consistent) :
    ContinuousOn (fun radius => (landing (CauchyPoint.along (Model.holding n m l)) l.gradient
      (gaussNewtonPoint? kind tolerance l) radius).step.toSpace n) (Ioi 0) := by
  have hκ := Linearization.curvature_eq hl
  have hreached : ∀ radius ∈ Ioi (0 : ℝ), Reached n (l.gradient.toSpace n)
      (‖l.jacobian.toMap m n (l.gradient.toSpace n)‖ ^ 2) radius (gaussNewtonPoint? kind tolerance l)
      (landing (CauchyPoint.along (Model.holding n m l)) l.gradient
        (gaussNewtonPoint? kind tolerance l) radius) := by
    intro radius hr
    rw [← hκ]
    exact landing_reached hl hr _ fun p hp => size_gaussNewtonPoint? hl hp
  cases hp : gaussNewtonPoint? kind tolerance l with
  | none =>
      have hray : ContinuousOn (clippedPoint (l.gradient.toSpace n) (l.curvature n)) (Ioi 0) :=
        (continuousOn_clippedPoint (Linearization.curvature_nonneg hl)).mono Ioi_subset_Ici_self
      exact hray.congr fun radius _ => CauchyPoint.toSpace_stepWithin hl radius
  | some p =>
      have hstat := stationary_gaussNewtonPoint hl hg hp
      rw [hp] at hreached
      refine continuousOn_of_comp (isCompact_doglegPath _ _ (p.toSpace n))
        continuous_norm.continuousOn hstat.injOn_norm (fun radius hr => ?_) ?_
      · refine (hreached radius hr).mem_doglegPath hr.le fun p' hp' => ?_
        cases hp'
        exact hstat
      · have hmin : ContinuousOn (fun radius : ℝ => min radius ‖p.toSpace n‖) (Ioi 0) :=
          (continuous_id.min continuous_const).continuousOn
        exact hmin.congr fun radius hr => (hreached radius hr).norm_eq_min hr.le (sq_nonneg _)

end DoglegPath

end TrustRegion
