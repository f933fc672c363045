import Mathlib
import TrustRegion.Proofs.Path.Continuity

/-!
# The second leg leads outward

Where the linear solver finds a Gauss-Newton point `p_GN`, the columns of the Jacobian are independent,
and the way from the Cauchy point `p_C` to `p_GN` leads strictly away from the origin unless it has no
length (`LeadsOutward`, **`IsStationary.leadsOutward`**).  Two things in the computation of a step rest on
this.

* Two tests decide which formula gives the step.  If both hold, the two points coincide, so the tests
  could as well be made in the other order (`DoglegPath.placeCauchyFirst`,
  **`DoglegPath.step_placeCauchyFirst`**).
* The formula for the crossing is guarded against a segment without length, against a segment that
  turns back and against rounding.  No guard is ever needed (`Crossing.Unguarded`,
  **`DoglegPath.step_combined`**).
-/

namespace TrustRegion

open scoped RealInnerProductSpace

variable {E F : Type*} [NormedAddCommGroup E] [InnerProductSpace ℝ E] [NormedAddCommGroup F]
  [InnerProductSpace ℝ F] {J : E →ₗ[ℝ] F} {g p x y : E} {radius : ℝ}

/-! ## Away from the origin -/

/-- Does the way from `x` to `y` lead strictly away from the origin, unless it has no length? -/
structure LeadsOutward (x y : E) : Prop where
  /-- It never turns back. -/
  inner_nonneg : 0 ≤ ⟪x, y - x⟫
  /-- It sets out at a right angle only if it has no length. -/
  eq_of_inner : ⟪x, y - x⟫ = 0 → x = y
  /-- Its end is as far away as its start. -/
  norm_le : ‖x‖ ≤ ‖y‖
  /-- Its end is no further away only if it has no length. -/
  eq_of_norm : ‖x‖ = ‖y‖ → x = y

/-- The angle at which the way sets out decides the rest. -/
theorem LeadsOutward.of_inner (hnonneg : 0 ≤ ⟪x, y - x⟫) (heq : ⟪x, y - x⟫ = 0 → x = y) :
    LeadsOutward x y := by
  have hlt : x ≠ y → ‖x‖ < ‖y‖ := by
    intro hne
    have hgrows := norm_add_smul_strictMono hnonneg (sub_ne_zero.2 hne.symm) le_rfl one_pos
    rwa [zero_smul, add_zero, one_smul, add_sub_cancel] at hgrows
  refine ⟨hnonneg, heq, ?_, fun hnorm => ?_⟩
  · rcases eq_or_ne x y with rfl | hne
    · exact le_rfl
    · exact (hlt hne).le
  · by_contra hne
    exact (hlt hne).ne hnorm

namespace IsStationary

/-- The way to the Cauchy point has a length. -/
theorem share_ne_zero (hp : IsStationary J g p) (hg : g ≠ 0) : ‖g‖ ^ 2 / ‖J g‖ ^ 2 ≠ 0 :=
  div_ne_zero (pow_ne_zero 2 (norm_ne_zero_iff.2 hg))
    (pow_ne_zero 2 (norm_ne_zero_iff.2 (hp.map_ne_zero hg)))

/-- **The second leg leads outward**, if no direction but zero is flat. -/
theorem leadsOutward (hp : IsStationary J g p) (hinj : ∀ v, J v = 0 → v = 0) :
    LeadsOutward (cauchyPoint g (‖J g‖ ^ 2)) p := by
  refine .of_inner hp.inner_cauchyPoint_nonneg fun hinner => ?_
  rcases eq_or_ne g 0 with rfl | hg
  · -- without a gradient both points are the origin
    have hJp : ‖J p‖ ^ 2 = 0 := by
      rw [← neg_eq_zero, ← hp.inner_self, inner_zero_left]
    rw [hinj p (norm_eq_zero.1 (pow_eq_zero_iff two_ne_zero |>.1 hJp))]
    simp [cauchyPoint]
  · rw [hp.inner_cauchyPoint, mul_eq_zero, or_iff_right (hp.share_ne_zero hg)] at hinner
    exact (sub_eq_zero.1 (hinj _ (norm_eq_zero.1 (pow_eq_zero_iff two_ne_zero |>.1 hinner)))).symm

/-- The second leg has a length if the gradient mixes with a level direction. -/
theorem cauchyPoint_ne (hp : IsStationary J g p) {v : E} (hlevel : ⟪g, v⟫ = 0)
    (hmix : ⟪J g, J v⟫ ≠ 0) : cauchyPoint g (‖J g‖ ^ 2) ≠ p := by
  have hg : g ≠ 0 := by
    rintro rfl
    exact hmix (by rw [map_zero, inner_zero_left])
  intro h
  have hv := hp v
  rw [← h, cauchyPoint, map_neg, map_smul, inner_neg_left, real_inner_smul_left, hlevel, neg_zero,
    neg_eq_zero] at hv
  exact mul_ne_zero (hp.share_ne_zero hg) hmix hv

/-- A stationary point within the radius, with a Cauchy point that the radius cuts off or just
reaches, is the Cauchy point. -/
theorem clippedPoint_eq (hp : IsStationary J g p) (hinj : ∀ v, J v = 0 → v = 0)
    (hnear : ‖p‖ ≤ radius) (hreach : (radius : EReal) ≤ cauchyLength g (‖J g‖ ^ 2)) :
    clippedPoint g (‖J g‖ ^ 2) radius = p := by
  have hr : 0 ≤ radius := (norm_nonneg p).trans hnear
  have hout := hp.leadsOutward hinj
  have hfar : radius ≤ ‖cauchyPoint g (‖J g‖ ^ 2)‖ := by
    rwa [← hp.coe_norm_cauchyPoint, EReal.coe_le_coe_iff] at hreach
  have hnorm : radius = ‖p‖ := le_antisymm (hfar.trans hout.norm_le) hnear
  refine hp.injOn_norm (Or.inl ?_) (Or.inr (right_mem_segment ℝ _ _)) ?_
  · exact hp.mem_segment_iff.2 (exists_clippedPoint hr)
  · show ‖clippedPoint g (‖J g‖ ^ 2) radius‖ = ‖p‖
    rw [norm_clippedPoint hr (sq_nonneg _), reachWithin_of_le hreach, hnorm]

end IsStationary

/-! ## The crossing without its guards -/

namespace Crossing

/-- Is the share the one that the stable formula gives, and none of the guards of any effect? -/
structure Unguarded (k : Coefficients ℝ) (share : ℝ) : Prop where
  /-- The segment has a length, so the share is not one by default. -/
  a_pos : 0 < k.a
  /-- The segment leads outward, so the other formula does not apply. -/
  b_pos : 0 < k.b
  /-- The segment starts inside the ball. -/
  c_neg : k.c < 0
  discriminant_pos : 0 < k.b * k.b - ((4 : ℕ) : ℝ) * k.a * k.c
  /-- The share is what the formula gives, and has not been clamped. -/
  share_eq : share = -Scalar.two * k.c / (k.b + √(k.b * k.b - ((4 : ℕ) : ℝ) * k.a * k.c))

/-- A segment that leads outward from inside the ball to outside of it needs no guard. -/
theorem unguarded {n : ℕ} {x y : Vec ℝ} (hx : x.size = n) (hy : y.size = n)
    (hout : LeadsOutward (x.toSpace n) (y.toSpace n)) (hin : ‖x.toSpace n‖ < radius)
    (hfar : radius < ‖y.toSpace n‖) :
    Unguarded (coefficients x y radius) (share x y radius) := by
  have hr : 0 < radius := (norm_nonneg _).trans_lt hin
  have hk := bracketed_coefficients hx hy hin hfar
  have hb : 0 < (coefficients x y radius).b := by
    have hne : x.toSpace n ≠ y.toSpace n := by
      intro h
      rw [h] at hin
      exact lt_asymm hin hfar
    have hinner : 0 < ⟪x.toSpace n, y.toSpace n - x.toSpace n⟫ :=
      lt_of_le_of_ne hout.inner_nonneg fun h => hne (hout.eq_of_inner h.symm)
    refine pos_of_mul_pos_left ?_ (pow_pos hr 2).le
    rw [b_coefficients hx hy hr.ne']
    exact mul_pos two_pos hinner
  rw [share_eq_root hx hy hin hfar]
  generalize coefficients x y radius = k at hk hb
  refine ⟨hk.a_pos, hb, hk.c_neg, ?_, ?_⟩
  · rw [← hk.discriminant_unguarded]
    exact hk.discriminant_pos
  · rw [← hk.discriminant_unguarded]
    exact hk.root_eq.1

end Crossing

/-! ## The tests in the other order -/

namespace DoglegPath

variable {n m : ℕ} {kind : SolverKind} {tolerance : ℝ} {l : Linearization ℝ} {d : DoglegPath ℝ}
  {p out : Vec ℝ}

/-- The way to place a step that asks first whether the Cauchy point reaches the boundary, and only then
whether the Gauss-Newton point is near enough. -/
def placeCauchyFirst {α : Type} [Scalar α] : Placing α := fun d norm radius out =>
  match norm with
  | none => d.toCauchy radius out
  | some norm =>
    if d.cauchy.norm.reaches radius then d.toCauchy radius out
    else if norm ≤ radius then d.toGaussNewton norm radius out
    else d.betweenBy Crossing.known radius out

/-- The Cauchy point of a problem that has a Gauss-Newton point. -/
noncomputable def cornerOf (n m : ℕ) (l : Linearization ℝ) : EuclideanSpace ℝ (Fin n) :=
  cauchyPoint (l.gradient.toSpace n) (‖l.jacobian.toMap m n (l.gradient.toSpace n)‖ ^ 2)

/-- The way from the Cauchy point to the Gauss-Newton point leads outward. -/
theorem leadsOutward_gaussNewtonPoint (hl : l.check n m = .ok ())
    (hg : kind = .qr → l.Consistent) (hp : gaussNewtonPoint? kind tolerance l = some p) :
    LeadsOutward (cornerOf n m l) (p.toSpace n) :=
  (stationary_gaussNewtonPoint hl hg hp).leadsOutward fun _ => injective_of_gaussNewtonPoint hl hg hp

/-- The distance that is kept for the Cauchy point is finite. -/
theorem norm_along_eq (hl : l.check n m = .ok ()) (hg : kind = .qr → l.Consistent)
    (hp : gaussNewtonPoint? kind tolerance l = some p) :
    (CauchyPoint.along (Model.holding n m l)).norm = .finite ‖cornerOf n m l‖ := by
  have hnorm := CauchyPoint.norm_along hl
  rw [Linearization.curvature_eq hl, ← (stationary_gaussNewtonPoint hl hg hp).coe_norm_cauchyPoint]
    at hnorm
  cases hc : (CauchyPoint.along (Model.holding n m l)).norm with
  | finite x =>
      rw [hc] at hnorm
      exact congrArg Extended.finite (EReal.coe_injective hnorm)
  | infinite =>
      rw [hc] at hnorm
      exact absurd hnorm.symm (EReal.coe_ne_top _)

/-- Where both tests hold, the step to the Cauchy point and the one to the Gauss-Newton point agree. -/
theorem stepWithin_eq_gaussNewtonPoint (hl : l.check n m = .ok ()) (hg : kind = .qr → l.Consistent)
    (hp : gaussNewtonPoint? kind tolerance l = some p) (hnear : p.norm ≤ radius)
    (hreach : (CauchyPoint.along (Model.holding n m l)).norm.reaches radius = true) :
    ((CauchyPoint.along (Model.holding n m l)).stepWithin l.gradient radius).1 = p := by
  have hsize := size_gaussNewtonPoint? hl hp
  rw [Extended.reaches_iff, CauchyPoint.norm_along hl, Linearization.curvature_eq hl] at hreach
  rw [Vec.norm_eq hsize] at hnear
  rw [← Vec.toSpace_inj (CauchyPoint.size_stepWithin_of_check hl _ _) hsize,
    CauchyPoint.toSpace_stepWithin hl, Linearization.curvature_eq hl]
  exact (stationary_gaussNewtonPoint hl hg hp).clippedPoint_eq
    (fun _ => injective_of_gaussNewtonPoint hl hg hp) hnear hreach

/-- Placed with the tests in the other order, a step is the same vector. -/
theorem place_placeCauchyFirst (hd : d.Sized n m kind tolerance) (hh : d.Holds n m l)
    (hp : d.gaussNewton.step? = gaussNewtonPoint? kind tolerance l)
    (hg : kind = .qr → l.Consistent) (radius : ℝ) (hout : out.size = n) :
    ∃ placed placed', d.place d.gaussNewton.norm? radius out = some placed ∧
      d.placeCauchyFirst d.gaussNewton.norm? radius out = some placed' ∧
      placed'.step = placed.step := by
  have htoCauchy := toCauchy_of_sized hd radius hout
  rw [GaussNewton.norm?_of_knows (hh.model ▸ hh.gaussNewton), hp]
  unfold place placeBy placeCauchyFirst
  cases hpoint : gaussNewtonPoint? kind tolerance l with
  | none => exact ⟨_, _, htoCauchy, htoCauchy, rfl⟩
  | some p =>
      obtain rfl := GaussNewton.point_of_step? (hp.trans hpoint)
      simp only [Option.map_some]
      by_cases hnear : d.gaussNewton.point.norm ≤ radius
      · have htoPoint := toGaussNewton_of_sized hd d.gaussNewton.point.norm radius hout
        rw [if_pos hnear, if_pos hnear]
        by_cases hreach : d.cauchy.norm.reaches radius = true
        · rw [if_pos hreach]
          refine ⟨_, _, htoPoint, htoCauchy, ?_⟩
          -- both tests hold, and it is here that the two points have to coincide
          rw [hh.cauchy] at hreach ⊢
          rw [hh.model]
          exact stepWithin_eq_gaussNewtonPoint hh.check hg hpoint hnear hreach
        · rw [if_neg hreach]
          exact ⟨_, _, htoPoint, htoPoint, rfl⟩
      · rw [if_neg hnear, if_neg hnear]
        by_cases hreach : d.cauchy.norm.reaches radius = true
        · rw [if_pos hreach]
          exact ⟨_, _, htoCauchy, htoCauchy, rfl⟩
        · rw [if_neg hreach]
          exact ⟨_, _, between_of_sized hd radius hout, between_of_sized hd radius hout, rfl⟩

/-- With the tests in the other order, a path that holds a problem takes the same step. -/
theorem step_placeCauchyFirst (hd : d.Sized n m kind tolerance) (hh : d.Holds n m l)
    (hstaged : d.staged = true) (hg : kind = .qr → l.Consistent) (radius : ℝ) (hout : out.size = n) :
    ∃ t t', d.step radius out = some t ∧
      d.stepBy GaussNewton.compute placeCauchyFirst radius out = some t' ∧
      t'.state.2 = t.state.2 := by
  obtain ⟨u, hu, hsized, hholds, hstep, -⟩ := exists_asked hd hh
  obtain ⟨placed, placed', hplace, hplace', hsame⟩ :=
    place_placeCauchyFirst hsized hholds hstep hg radius hout
  rw [step, stepBy_eq hd hstaged hout hu, hplace, stepBy_eq hd hstaged hout hu, hplace']
  exact ⟨_, _, rfl, rfl, hsame⟩

/-! ## A step that ends on the second leg -/

/-- What the path shows of a step `x` that ends between the Cauchy point `c` and the Gauss-Newton point
`p`, with the scratch vector as it is then. -/
structure OnSecondLeg (n : ℕ) (c : EuclideanSpace ℝ (Fin n)) (p : Vec ℝ) (radius : ℝ)
    (corner x : Vec ℝ) : Prop where
  /-- The scratch vector is the Cauchy point. -/
  corner_eq : corner.toSpace n = c
  unguarded : Crossing.Unguarded (Crossing.coefficients corner p radius)
    (Crossing.share corner p radius)
  /-- The step is where the sphere crosses the segment. -/
  point : x.toSpace n = c + Crossing.share corner p radius • (p.toSpace n - c)

/-- A radius that lies strictly between the distances of the two points does not cut off the way to the
Cauchy point, and the segment needs no guard. -/
theorem onSecondLeg_crossingPoint (hl : l.check n m = .ok ()) (hg : kind = .qr → l.Consistent)
    (hp : gaussNewtonPoint? kind tolerance l = some p) (hpast : ‖cornerOf n m l‖ < radius)
    (hfar : radius < ‖p.toSpace n‖) :
    let corner := ((CauchyPoint.along (Model.holding n m l)).stepWithin l.gradient radius).1
    OnSecondLeg n (cornerOf n m l) p radius corner (crossingPoint corner p radius) := by
  intro corner
  have hsize : corner.size = n := CauchyPoint.size_stepWithin_of_check hl _ _
  have hcorner : corner.toSpace n = cornerOf n m l := by
    rw [CauchyPoint.toSpace_stepWithin hl, Linearization.curvature_eq hl]
    refine clippedPoint_of_lt ?_
    rw [← (stationary_gaussNewtonPoint hl hg hp).coe_norm_cauchyPoint]
    exact EReal.coe_lt_coe_iff.2 hpast
  refine ⟨hcorner, Crossing.unguarded hsize (size_gaussNewtonPoint? hl hp) ?_ ?_ hfar, ?_⟩
  · rw [hcorner]
    exact leadsOutward_gaussNewtonPoint hl hg hp
  · rw [hcorner]
    exact hpast
  · rw [← hcorner]
    exact Vec.toSpace_towards hsize _

/-- The step ends on the second leg exactly if the radius lies strictly between the distances of the two
points, and then no guard of the crossing is of any effect. -/
theorem place_combined (hd : d.Sized n m kind tolerance) (hh : d.Holds n m l)
    (hp : d.gaussNewton.step? = gaussNewtonPoint? kind tolerance l)
    (hg : kind = .qr → l.Consistent) (hpoint : gaussNewtonPoint? kind tolerance l = some p)
    (hout : out.size = n) {placed : Placed ℝ}
    (hplace : d.place d.gaussNewton.norm? radius out = some placed) :
    (placed.regime = .combined ↔ ‖cornerOf n m l‖ < radius ∧ radius < ‖p.toSpace n‖) ∧
      (placed.regime = .combined →
        placed.onBoundary = true ∧
          OnSecondLeg n (cornerOf n m l) p radius placed.path.corner placed.step ∧
          .crossing (Crossing.share placed.path.corner p radius) ∈ placed.events) := by
  have hsize := size_gaussNewtonPoint? hh.check hpoint
  obtain rfl := GaussNewton.point_of_step? (hp.trans hpoint)
  have hreaches : d.cauchy.norm.reaches radius = true ↔ radius ≤ ‖cornerOf n m l‖ := by
    rw [hh.cauchy, norm_along_eq hh.check hg hpoint, Extended.reaches_finite]
  rw [GaussNewton.norm?_of_knows (hh.model ▸ hh.gaussNewton), hp, hpoint] at hplace
  unfold place placeBy at hplace
  simp only [Option.map_some, Vec.norm_eq hsize] at hplace
  by_cases hnear : ‖d.gaussNewton.point.toSpace n‖ ≤ radius
  · rw [if_pos hnear, toGaussNewton_of_sized hd _ radius hout] at hplace
    cases hplace
    exact ⟨iff_of_false (by simp) fun h => absurd hnear (not_le.2 h.2), by simp⟩
  rw [if_neg hnear] at hplace
  by_cases hreach : d.cauchy.norm.reaches radius = true
  · rw [if_pos hreach, toCauchy_of_sized hd radius hout] at hplace
    cases hplace
    exact ⟨iff_of_false (by simp) fun h => absurd (hreaches.1 hreach) (not_le.2 h.1), by simp⟩
  rw [if_neg hreach, between_of_sized hd radius hout] at hplace
  cases hplace
  have hpast : ‖cornerOf n m l‖ < radius := not_le.1 (mt hreaches.2 hreach)
  have hfar : radius < ‖d.gaussNewton.point.toSpace n‖ := not_le.1 hnear
  refine ⟨iff_of_true rfl ⟨hpast, hfar⟩, fun _ => ⟨rfl, ?_, List.mem_cons_self⟩⟩
  rw [hh.cauchy, hh.model]
  exact onSecondLeg_crossingPoint hh.check hg hpoint hpast hfar

/-- **No guard is needed.**  A path that holds a problem steps to the second leg exactly if the radius
lies strictly between the distances of the two points, and then no guard of the crossing is of any
effect. -/
theorem step_combined (hd : d.Sized n m kind tolerance) (hh : d.Holds n m l) (hstaged : d.staged = true)
    (hg : kind = .qr → l.Consistent) (hpoint : gaussNewtonPoint? kind tolerance l = some p)
    (hout : out.size = n) {t : Turn ℝ (DoglegPath ℝ × Vec ℝ) (StepError ℝ) (Regime × Bool)}
    (ht : d.step radius out = some t) :
    (t.result = .ok (.combined, true) ↔ ‖cornerOf n m l‖ < radius ∧ radius < ‖p.toSpace n‖) ∧
      ∀ flag, t.result = .ok (.combined, flag) →
        OnSecondLeg n (cornerOf n m l) p radius t.state.1.corner t.state.2 ∧
        .crossing (Crossing.share t.state.1.corner p radius) ∈ t.events := by
  obtain ⟨u, hu, hsized, hholds, hstep, -⟩ := exists_asked hd hh
  rw [step, stepBy_eq hd hstaged hout hu] at ht
  obtain ⟨placed, hplace, hturn⟩ := Option.bind_eq_some_iff.1 ht
  cases hturn
  obtain ⟨hiff, hcombined⟩ := place_combined hsized hholds hstep hg hpoint hout hplace
  have hregime : ∀ flag, (Except.ok (placed.regime, placed.onBoundary) : Except (StepError ℝ) _) =
      .ok (.combined, flag) → placed.regime = .combined :=
    fun flag hresult => congrArg Prod.fst (Except.ok.inj hresult)
  refine ⟨⟨fun hresult => hiff.1 (hregime _ hresult), fun hbetween => ?_⟩, fun flag hresult => ?_⟩
  · show Except.ok (placed.regime, placed.onBoundary) = _
    rw [hiff.2 hbetween, (hcombined (hiff.2 hbetween)).1]
  · obtain ⟨-, hleg, hevent⟩ := hcombined (hregime flag hresult)
    exact ⟨hleg, List.mem_append_right _ hevent⟩

end DoglegPath

end TrustRegion
