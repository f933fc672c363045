import Mathlib
import TrustRegion.Proofs.Solver.Rank

/-!
# The only crossing

Where a segment leaves a ball about the origin is computed for any two vectors.  For a segment that starts
inside the ball and ends outside of it (`Crossing.Leaves`), wherever it leads in between, no division is by
zero, no guard is of any effect, and of the two formulas either could have been taken (`Crossing.Exact`); the
share that comes out belongs to the only crossing.

A step asks for a crossing for such segments only, although it takes any number as its radius.

* The computation of the share is a parameter of `DoglegPath.placeBy`.  A step asks for a share if it has no
  outcome where just this one is unknown (`DoglegPath.Asks`).
* `DoglegPath.Sound` holds of every path that a history of problems and steps leads to
  (`DoglegPath.Reachable.sound`).  A step for such a path asks for a share exactly if it ends between the Cauchy
  point and the Gauss-Newton point (`DoglegPath.Sound.asks_iff`), and the tests made before then say that the
  first is inside and the second outside (`DoglegPath.leaves_of_crosses`).
* **`DoglegPath.only_crossing`** puts the two together.
-/

namespace TrustRegion

open scoped RealInnerProductSpace

/-! ## The crossing of a segment -/

namespace Crossing

/-- Does the segment from `p` to `q` start inside the ball and end outside of it? -/
structure Leaves (n : ℕ) (p q : Vec ℝ) (radius : ℝ) : Prop where
  size_start : p.size = n
  size_end : q.size = n
  inside : ‖p.toSpace n‖ < radius
  outside : radius < ‖q.toSpace n‖

/-- Is the share what either formula gives, without a division by zero and without any guard? -/
structure Exact (k : Coefficients ℝ) (share : ℝ) : Prop where
  /-- The segment has a length, so the share is not one by default. -/
  a_pos : 0 < k.a
  discriminant_pos : 0 < k.b * k.b - ((4 : ℕ) : ℝ) * k.a * k.c
  /-- So its guard is of no effect. -/
  discriminant_eq : discriminant k = k.b * k.b - ((4 : ℕ) : ℝ) * k.a * k.c
  /-- The divisor of the formula for a segment that sets out outward is not zero. -/
  outward_divisor : k.b + √(discriminant k) ≠ 0
  /-- Nor is that of the formula for any other segment. -/
  inward_divisor : Scalar.two * k.a ≠ 0
  /-- The share is what the first formula gives, and has not been clamped. -/
  outward : share = -Scalar.two * k.c / (k.b + √(discriminant k))
  inward : share = (-k.b + √(discriminant k)) / (Scalar.two * k.a)

/-- Nothing goes wrong with a bracketed equation. -/
theorem Bracketed.exact_root {k : Coefficients ℝ} (h : Bracketed k) : Exact k (root k) where
  a_pos := h.a_pos
  discriminant_pos := h.discriminant_unguarded ▸ h.discriminant_pos
  discriminant_eq := h.discriminant_unguarded
  outward_divisor := h.b_add_sqrt_pos.ne'
  inward_divisor := mul_ne_zero (by rw [Scalar.two_eq]; exact two_ne_zero) h.a_pos.ne'
  outward := h.root_eq.1
  inward := h.root_eq.2

namespace Leaves

variable {n : ℕ} {p q : Vec ℝ} {radius t : ℝ}

theorem radius_pos (h : Leaves n p q radius) : 0 < radius := (norm_nonneg _).trans_lt h.inside

theorem bracketed (h : Leaves n p q radius) : Bracketed (coefficients p q radius) :=
  bracketed_coefficients h.size_start h.size_end h.inside h.outside

theorem exact_share (h : Leaves n p q radius) : Exact (coefficients p q radius) (share p q radius) := by
  rw [share_eq_root h.size_start h.size_end h.inside h.outside]
  exact h.bracketed.exact_root

/-- Beyond its start the segment meets the sphere after the share that is computed, and nowhere else. -/
theorem norm_eq_iff (h : Leaves n p q radius) (ht : 0 < t) :
    ‖p.toSpace n + t • (q.toSpace n - p.toSpace n)‖ = radius ↔ t = share p q radius := by
  have hr := h.radius_pos
  rw [share_eq_root h.size_start h.size_end h.inside h.outside, ← h.bracketed.eval_eq_zero_iff ht,
    ← mul_eq_zero_iff_right (pow_ne_zero 2 hr.ne'),
    eval_coefficients h.size_start h.size_end hr.ne', sub_eq_zero,
    sq_eq_sq₀ (norm_nonneg _) hr.le]

/-- The share is the only one in the open unit interval after which the segment meets the sphere. -/
theorem mem_Ioo_iff (h : Leaves n p q radius) :
    (t ∈ Set.Ioo 0 1 ∧ ‖p.toSpace n + t • (q.toSpace n - p.toSpace n)‖ = radius) ↔
      t = share p q radius := by
  constructor
  · rintro ⟨⟨hpos, -⟩, hnorm⟩
    exact (h.norm_eq_iff hpos).1 hnorm
  · rintro rfl
    obtain ⟨hpos, hlt, hnorm⟩ := share_mem h.size_start h.size_end h.inside h.outside
    exact ⟨⟨hpos, hlt⟩, hnorm⟩

/-- It is the positive root of the equation of the crossing in the lengths themselves. -/
theorem equation_iff (h : Leaves n p q radius) :
    (0 < t ∧ ‖q.toSpace n - p.toSpace n‖ ^ 2 * t ^ 2 +
        2 * ⟪p.toSpace n, q.toSpace n - p.toSpace n⟫ * t + (‖p.toSpace n‖ ^ 2 - radius ^ 2) = 0) ↔
      t = share p q radius := by
  have hequation : ‖q.toSpace n - p.toSpace n‖ ^ 2 * t ^ 2 +
      2 * ⟪p.toSpace n, q.toSpace n - p.toSpace n⟫ * t + (‖p.toSpace n‖ ^ 2 - radius ^ 2) = 0 ↔
      ‖p.toSpace n + t • (q.toSpace n - p.toSpace n)‖ = radius := by
    rw [← sq_eq_sq₀ (norm_nonneg _) h.radius_pos.le, norm_add_smul_sq, ← sub_eq_zero (b := radius ^ 2)]
    refine Eq.congr_left ?_
    ring
  rw [hequation]
  constructor
  · rintro ⟨hpos, hnorm⟩
    exact (h.norm_eq_iff hpos).1 hnorm
  · rintro rfl
    obtain ⟨hpos, -, hnorm⟩ := share_mem h.size_start h.size_end h.inside h.outside
    exact ⟨hpos, hnorm⟩

end Leaves

end Crossing

/-! ## Asking for a share -/

section Asking

variable {α : Type} [Scalar α]

namespace Crossing

/-- The computation of the share, but for a single one that is unknown. -/
def knownBut [DecidableEq α] (p q : Vec α) (radius : α) : Method α := fun p' q' radius' =>
  if p' = p ∧ q' = q ∧ radius' = radius then none else known p' q' radius'

theorem knownBut_eq_none_iff [DecidableEq α] {p q p' q' : Vec α} {radius radius' : α} :
    knownBut p q radius p' q' radius' = none ↔ p' = p ∧ q' = q ∧ radius' = radius := by
  unfold knownBut known
  split <;> simp_all

end Crossing

omit [Scalar α] in
/-- A Gauss-Newton point with a distance is there. -/
theorem GaussNewton.step?_of_norm? {g : GaussNewton α} {norm : α} (h : g.norm? = some norm) :
    g.step? = some g.point := by
  unfold norm? at h
  unfold step?
  cases hp : g.progress <;> simp_all

namespace DoglegPath

/-- Does the step for a radius ask for the share of the segment from `p` to `q` within the radius `bound`?  If
so, it has no outcome where this share is unknown. -/
def Asks [DecidableEq α] (d : DoglegPath α) (radius : α) (out p q : Vec α) (bound : α) : Prop :=
  d.stepBy GaussNewton.compute (placeBy (Crossing.knownBut p q bound)) radius out = none

/-- Is the Gauss-Newton point that is known too far away for a radius, and the Cauchy point not far enough? -/
def Crosses (d : DoglegPath α) (radius : α) : Prop :=
  ∃ norm, d.gaussNewton.norm? = some norm ∧ ¬norm ≤ radius ∧ ¬d.cauchy.norm.reaches radius = true

/-- Does the step end between the Cauchy point `p` and the Gauss-Newton point `q`? -/
structure EndsBetween (t : Turn α (DoglegPath α × Vec α) (StepError α) (Regime × Bool)) (p q : Vec α) :
    Prop where
  combined : ∃ flag, t.result = .ok (.combined, flag)
  /-- The scratch vector afterwards. -/
  corner : t.state.1.corner = p
  point : t.state.1.gaussNewton.step? = some q

variable {n m : Nat} {kind : SolverKind} {tolerance : α} {d : DoglegPath α} {l : Linearization α}
  {radius bound : α} {out p q : Vec α}

/-! ### Placing a step -/

theorem placeBy_of_crosses (h : d.Crosses radius) (method : Crossing.Method α) (out : Vec α) :
    placeBy method d d.gaussNewton.norm? radius out = d.betweenBy method radius out := by
  obtain ⟨norm, hnorm, hfar, hpast⟩ := h
  unfold placeBy
  simp only [hnorm, if_neg hfar, if_neg hpast]

/-- Otherwise the way to find the share has no influence. -/
theorem placeBy_of_not_crosses (h : ¬d.Crosses radius) (method : Crossing.Method α) (out : Vec α) :
    placeBy method d d.gaussNewton.norm? radius out = d.place d.gaussNewton.norm? radius out := by
  unfold place placeBy
  cases hnorm : d.gaussNewton.norm? with
  | none => rfl
  | some norm =>
      by_cases hnear : norm ≤ radius
      · simp only [if_pos hnear]
      by_cases hreach : d.cauchy.norm.reaches radius = true
      · simp only [if_pos hreach]
      · exact absurd ⟨norm, hnorm, hnear, hreach⟩ h

theorem exists_place_of_not_crosses (hd : d.Sized n m kind tolerance) (h : ¬d.Crosses radius)
    (hout : out.size = n) :
    ∃ placed, d.place d.gaussNewton.norm? radius out = some placed ∧ placed.path = d ∧
      placed.regime ≠ .combined := by
  have htoCauchy := toCauchy_of_sized hd radius hout
  unfold place placeBy
  cases hnorm : d.gaussNewton.norm? with
  | none => exact ⟨_, htoCauchy, rfl, by simp⟩
  | some norm =>
      by_cases hnear : norm ≤ radius
      · simp only [if_pos hnear]
        exact ⟨_, toGaussNewton_of_sized hd norm radius hout, rfl, by simp⟩
      by_cases hreach : d.cauchy.norm.reaches radius = true
      · simp only [if_neg hnear, if_pos hreach]
        exact ⟨_, htoCauchy, rfl, by simp⟩
      · exact absurd ⟨norm, hnorm, hnear, hreach⟩ h

/-- Where a step is placed: between the two points exactly if the path crosses the sphere there. -/
theorem exists_place (hd : d.Sized n m kind tolerance) (radius : α) (hout : out.size = n) :
    ∃ placed, d.place d.gaussNewton.norm? radius out = some placed ∧
      placed.path.gaussNewton = d.gaussNewton ∧ (placed.regime = .combined ↔ d.Crosses radius) ∧
      (d.Crosses radius →
        placed.path.corner = (d.cauchy.stepWithin d.model.gradient radius).1) := by
  by_cases hcross : d.Crosses radius
  · have hplace : d.place d.gaussNewton.norm? radius out = d.betweenBy Crossing.known radius out :=
      placeBy_of_crosses hcross Crossing.known out
    exact ⟨_, hplace.trans (between_of_sized hd radius hout), rfl, iff_of_true rfl hcross,
      fun _ => rfl⟩
  · obtain ⟨placed, hplace, hpath, hregime⟩ := exists_place_of_not_crosses hd hcross hout
    exact ⟨placed, hplace, by rw [hpath], iff_of_false hregime hcross, fun h => absurd h hcross⟩

/-- The step between the two points has no outcome exactly if the share is unknown. -/
theorem betweenBy_eq_none_iff (hd : d.Sized n m kind tolerance) (method : Crossing.Method α)
    (radius : α) (hout : out.size = n) :
    d.betweenBy method radius out = none ↔
      method (d.cauchy.stepWithin d.model.gradient radius).1 d.gaussNewton.point radius = none := by
  have hg : d.model.gradient.size = n := hd.model.gradient.trans hd.params
  have hcorner : (d.cauchy.stepWithin d.model.gradient radius).1.size = n := by simpa using hg
  unfold betweenBy
  rw [CauchyPoint.writeStep_of_size radius (hd.corner.trans hg.symm)]
  simp only [Option.bind_eq_bind, Option.bind_some,
    Vec.towards_of_size _ (hcorner.trans hd.point.symm),
    Vec.copyFrom_of_size (hout.trans (hcorner.symm.trans (Vec.size_tabulate _ _).symm))]
  cases method (d.cauchy.stepWithin d.model.gradient radius).1 d.gaussNewton.point radius <;> simp

/-- A single unknown share matters exactly if the path crosses the sphere there. -/
theorem placeBy_knownBut_eq_none_iff [DecidableEq α] (hd : d.Sized n m kind tolerance)
    (hout : out.size = n) :
    placeBy (Crossing.knownBut p q bound) d d.gaussNewton.norm? radius out = none ↔
      d.Crosses radius ∧ (d.cauchy.stepWithin d.model.gradient radius).1 = p ∧
        d.gaussNewton.point = q ∧ radius = bound := by
  by_cases hcross : d.Crosses radius
  · rw [placeBy_of_crosses hcross, betweenBy_eq_none_iff hd _ radius hout,
      Crossing.knownBut_eq_none_iff]
    exact (and_iff_right hcross).symm
  · obtain ⟨placed, hplace, -⟩ := exists_place_of_not_crosses hd hcross hout
    rw [placeBy_of_not_crosses hcross, hplace]
    exact iff_of_false (by simp) fun h => hcross h.1

/-! ### Taking a step -/

section Step

variable {u : Turn α (GaussNewton α) (SolveError α) α}
  {t : Turn α (DoglegPath α × Vec α) (StepError α) (Regime × Bool)}

/-- A step asks for the share of the segment between the two points, if the path crosses the sphere there, and
for no other. -/
theorem asks_iff_crosses [DecidableEq α] (hd : d.Sized n m kind tolerance) (hstaged : d.staged = true)
    (hout : out.size = n) (hu : d.gaussNewton.compute d.model = some u)
    (hsized : (d.asked u).Sized n m kind tolerance) :
    d.Asks radius out p q bound ↔ (d.asked u).Crosses radius ∧
      (d.cauchy.stepWithin d.model.gradient radius).1 = p ∧ u.state.point = q ∧ radius = bound := by
  unfold Asks
  rw [stepBy_eq hd hstaged hout hu]
  refine Iff.trans ?_ (placeBy_knownBut_eq_none_iff (d := d.asked u) hsized hout)
  cases placeBy (Crossing.knownBut p q bound) (d.asked u)
    (d.asked u).gaussNewton.norm? radius out <;> simp

/-- What a step leaves behind, and when it ends between the two points. -/
theorem exists_step (hd : d.Sized n m kind tolerance) (hstaged : d.staged = true) (radius : α)
    (hout : out.size = n) (hu : d.gaussNewton.compute d.model = some u)
    (hsized : (d.asked u).Sized n m kind tolerance) :
    ∃ t, d.step radius out = some t ∧
      ((∃ flag, t.result = .ok (.combined, flag)) ↔ (d.asked u).Crosses radius) ∧
      t.state.1.gaussNewton = u.state ∧
      ((d.asked u).Crosses radius →
        t.state.1.corner = (d.cauchy.stepWithin d.model.gradient radius).1) := by
  obtain ⟨placed, hplace, hkept, hregime, hcorner⟩ := exists_place hsized radius hout
  rw [step, stepBy_eq hd hstaged hout hu, hplace, Option.bind_some]
  refine ⟨_, rfl, ?_, hkept, hcorner⟩
  rw [← hregime]
  constructor
  · rintro ⟨flag, hresult⟩
    exact congrArg Prod.fst (Except.ok.inj hresult)
  · intro hcombined
    exact ⟨placed.onBoundary, by rw [← hcombined]⟩

/-- A step for a path that holds a problem asks for a share exactly if it ends between the two points. -/
theorem asks_iff_of_holds [DecidableEq α] (hd : d.Sized n m kind tolerance) (hl : d.Holds n m l)
    (hstaged : d.staged = true) (hout : out.size = n) (ht : d.step radius out = some t) :
    d.Asks radius out p q bound ↔ EndsBetween t p q ∧ bound = radius := by
  obtain ⟨u, hu, hsized, -⟩ := exists_asked hd hl
  obtain ⟨t', ht', hresult, hkept, hcorner⟩ := exists_step hd hstaged radius hout hu hsized
  obtain rfl : t = t' := Option.some.inj (ht.symm.trans ht')
  have hstep : (d.asked u).Crosses radius → t.state.1.gaussNewton.step? = some u.state.point := by
    rintro ⟨norm, hnorm, -⟩
    rw [hkept]
    exact GaussNewton.step?_of_norm? hnorm
  rw [asks_iff_crosses hd hstaged hout hu hsized]
  constructor
  · rintro ⟨hcross, rfl, rfl, rfl⟩
    exact ⟨⟨hresult.2 hcross, hcorner hcross, hstep hcross⟩, rfl⟩
  · rintro ⟨⟨hcombined, rfl, hpoint⟩, rfl⟩
    have hcross := hresult.1 hcombined
    exact ⟨hcross, (hcorner hcross).symm, Option.some.inj ((hstep hcross).symm.trans hpoint), rfl⟩

/-- A step that is refused asks for nothing. -/
theorem not_asks_of_refused [DecidableEq α] {e : StepError α}
    (h : ∀ place, d.stepBy GaussNewton.compute place radius out = some (.refuse (d, out) e)) :
    ¬d.Asks radius out p q bound := by
  unfold Asks
  rw [h]
  exact Option.some_ne_none _

end Step

/-! ### Histories -/

/-- The paths for `n` parameters and `m` residuals that a history of problems and steps leads to, whatever the
radii. -/
inductive Reachable (n m : Nat) (kind : SolverKind) (tolerance : α) : DoglegPath α → Prop
  | ofSize {d : DoglegPath α} (hd : DoglegPath.ofSize n m kind tolerance = .ok d) :
      Reachable n m kind tolerance d
  /-- One that was given another problem, whether it took it or not. -/
  | stage {d : DoglegPath α} {l : Linearization α} {t : Turn α (DoglegPath α) (StepError α) Unit}
      (before : Reachable n m kind tolerance d) (ht : d.stage l = some t) :
      Reachable n m kind tolerance t.state
  /-- One that was asked for another step, whether it took it or not. -/
  | step {d : DoglegPath α} {radius : α} {out : Vec α}
      {t : Turn α (DoglegPath α × Vec α) (StepError α) (Regime × Bool)}
      (before : Reachable n m kind tolerance d) (ht : d.step radius out = some t) :
      Reachable n m kind tolerance t.state.1

/-- Has the path room for problems of its size, and does it hold one if it is staged? -/
structure Sound (d : DoglegPath α) (n m : Nat) (kind : SolverKind) (tolerance : α) : Prop where
  sized : d.Sized n m kind tolerance
  holds : d.staged = true → ∃ l, d.Holds n m l

namespace Sound

variable (h : d.Sound n m kind tolerance)

include h

/-- Either a step is refused, however it would be placed, or there is a problem and room for the step. -/
theorem refused_or_ready (radius : α) (out : Vec α) :
    (∃ e, ∀ place, d.stepBy GaussNewton.compute place radius out = some (.refuse (d, out) e)) ∨
      d.staged = true ∧ out.size = n ∧ ∃ l, d.Holds n m l := by
  cases hstaged : d.staged with
  | false => exact Or.inl ⟨_, fun place => stepBy_of_not_staged GaussNewton.compute place radius hstaged out⟩
  | true =>
      by_cases hout : out.size = n
      · exact Or.inr ⟨rfl, hout, h.holds hstaged⟩
      · exact Or.inl ⟨_, fun place => stepBy_of_size_ne GaussNewton.compute place radius h.sized hstaged hout⟩

theorem stage {t : Turn α (DoglegPath α) (StepError α) Unit} (ht : d.stage l = some t) :
    t.state.Sound n m kind tolerance := by
  obtain ⟨t', ht', hsized, -, hholds, -⟩ := stage_holds h.sized l
  obtain rfl : t = t' := Option.some.inj (ht.symm.trans ht')
  exact ⟨hsized, fun hstaged => ⟨l, hholds hstaged⟩⟩

theorem step {t : Turn α (DoglegPath α × Vec α) (StepError α) (Regime × Bool)}
    (ht : d.step radius out = some t) : t.state.1.Sound n m kind tolerance := by
  rcases h.refused_or_ready radius out with ⟨e, hrefused⟩ | ⟨hstaged, hout, l, hholds⟩
  · obtain rfl : t = .refuse (d, out) e := Option.some.inj (ht.symm.trans (hrefused place))
    exact h
  · obtain ⟨d', events, hstep, hsized', hholds', -⟩ :=
      step_landing h.sized hholds hstaged radius hout
    obtain rfl := Option.some.inj (ht.symm.trans hstep)
    exact ⟨hsized', fun _ => ⟨l, hholds'⟩⟩

/-- Every step answers, and asks for a share exactly if it ends between the two points. -/
theorem asks_iff [DecidableEq α] (radius : α) (out : Vec α) :
    ∃ t, d.step radius out = some t ∧
      ∀ p q bound, d.Asks radius out p q bound ↔ EndsBetween t p q ∧ bound = radius := by
  rcases h.refused_or_ready radius out with ⟨e, hrefused⟩ | ⟨hstaged, hout, l, hholds⟩
  · refine ⟨_, hrefused place, fun p q bound => iff_of_false (not_asks_of_refused hrefused) ?_⟩
    rintro ⟨⟨⟨flag, hresult⟩, -⟩, -⟩
    cases hresult
  · obtain ⟨d', events, hstep, -⟩ := step_landing h.sized hholds hstaged radius hout
    exact ⟨_, hstep, fun p q bound => asks_iff_of_holds h.sized hholds hstaged hout hstep⟩

end Sound

/-- Whatever the history, the path is sound. -/
theorem Reachable.sound (h : d.Reachable n m kind tolerance) : d.Sound n m kind tolerance := by
  induction h with
  | ofSize hd =>
      obtain ⟨hsized, hstaged⟩ := sized_ofSize hd
      exact ⟨hsized, fun h => by rw [hstaged] at h; cases h⟩
  | stage before ht ih => exact ih.stage ht
  | step before ht ih => exact ih.step ht

end DoglegPath

end Asking

/-! ## Steps ask for segments that leave the ball -/

namespace DoglegPath

variable {n m : ℕ} {kind : SolverKind} {tolerance radius bound : ℝ} {d : DoglegPath ℝ}
  {l : Linearization ℝ} {out p q : Vec ℝ}

/-- Where the path crosses the sphere between the two points, the first is inside and the second outside. -/
theorem leaves_of_crosses (hd : d.Sized n m kind tolerance) (hl : d.Holds n m l)
    (hcross : d.Crosses radius) :
    Crossing.Leaves n (d.cauchy.stepWithin d.model.gradient radius).1 d.gaussNewton.point radius := by
  obtain ⟨norm, hnorm, hfar, hpast⟩ := hcross
  have hpoint : norm = ‖d.gaussNewton.point.toSpace n‖ := by
    have hknown := GaussNewton.norm?_of_knows (hl.model ▸ hl.gaussNewton)
    rw [hnorm, GaussNewton.step?_of_norm? hnorm, Option.map_some, Vec.norm_eq hd.point] at hknown
    exact Option.some.inj hknown
  rw [hl.cauchy, Extended.reaches_iff, CauchyPoint.norm_along hl.check, not_le] at hpast
  have hgradient : d.model.gradient = l.gradient := by rw [hl.model]; rfl
  refine ⟨?_, hd.point, ?_, hpoint ▸ not_le.1 hfar⟩
  · rw [hgradient]
    exact CauchyPoint.size_stepWithin_of_check hl.check _ _
  · rw [hgradient, hl.cauchy, CauchyPoint.toSpace_stepWithin hl.check]
    exact norm_clippedPoint_lt (Linearization.curvature_nonneg hl.check) hpast

/-- Whatever the radius is, a step asks for shares of segments that leave the ball. -/
theorem Sound.leaves_of_asks (h : d.Sound n m kind tolerance) (hasks : d.Asks radius out p q bound) :
    Crossing.Leaves n p q bound := by
  rcases h.refused_or_ready radius out with ⟨e, hrefused⟩ | ⟨hstaged, hout, l, hholds⟩
  · exact absurd hasks (not_asks_of_refused hrefused)
  · obtain ⟨u, hu, hsized, hholds', -⟩ := exists_asked h.sized hholds
    obtain ⟨hcross, rfl, rfl, rfl⟩ := (asks_iff_crosses h.sized hstaged hout hu hsized).1 hasks
    exact leaves_of_crosses hsized hholds' hcross

/-! ### A problem without a gradient -/

/-- One residual, one, with the derivative one; and yet the gradient that is stated is zero. -/
noncomputable def idle : Linearization ℝ where
  point := Vec.zeros 1
  residuals := Vec.tabulate 1 fun _ => 1
  jacobian := Matrix.tabulate 1 1 fun _ _ => 1
  gradient := Vec.zeros 1
  cost := 0

theorem check_idle : idle.check 1 1 = .ok () :=
  Linearization.check_eq_ok_iff.2 ⟨Vec.size_zeros _, Vec.size_tabulate _ _,
    Matrix.hasShape_tabulate _ _ _, Vec.size_zeros _⟩

theorem nonsingular_idle : Nonsingular 1 idle.jacobian.gram.entry := by
  refine Matrix.nonsingular_gram_of_upper (Matrix.hasShape_tabulate _ _ _) le_rfl
    (fun i hi j hj hji => by omega) fun i hi => ?_
  rw [idle, Matrix.entry_tabulate _ hi hi]
  exact one_ne_zero

/-- Orthogonal triangularisation does not read the gradient: the point solves the equation of the residuals, so
it is at the distance one. -/
theorem one_le_norm_of_idle {point : Vec ℝ} (h : gaussNewtonPoint? .qr 0 idle = some point) :
    1 ≤ point.norm := by
  have hfits : idle.system.Fits 1 := GaussNewton.fits_system (Model.sized_holding check_idle) rfl
  have hrow : ∑ j ∈ Finset.range 1, idle.jacobian.gram.entry 0 j * point.entry j =
      -(idle.jacobian.column 0).inner (Vec.tabulate 1 fun _ => 1) :=
    (QrSolver.solves_of_answer hfits (gaussNewtonPoint?_eq_some_iff.1 h)).1 0 one_pos
  have hcolumn : idle.jacobian.column 0 = Vec.tabulate 1 fun _ => 1 :=
    Matrix.column_tabulate _ one_pos
  have hone : (Vec.tabulate 1 fun _ => (1 : ℝ)).inner (Vec.tabulate 1 fun _ => 1) = 1 := by
    simp [Vec.inner_eq_sum, Vec.entry_tabulate]
  have hentry : point.entry 0 = -1 := by
    rwa [Finset.sum_range_one, Matrix.entry_gram one_pos one_pos, hcolumn, hone, one_mul] at hrow
  simpa [hentry] using Vec.abs_entry_le_norm point 0

/-- The path goes from the origin to this point. -/
theorem exists_landing_idle : ∃ point, gaussNewtonPoint? .qr 0 idle = some point ∧
    (landing (CauchyPoint.along (Model.holding 1 1 idle)) idle.gradient
      (gaussNewtonPoint? .qr 0 idle) (1 / 2)).regime = .combined := by
  obtain ⟨point, hpoint⟩ := exists_gaussNewtonPoint check_idle nonsingular_idle .qr
  have hfar : ¬point.norm ≤ 1 / 2 := by
    linarith [one_le_norm_of_idle hpoint]
  have hpast : ¬(CauchyPoint.origin : CauchyPoint ℝ).norm.reaches (1 / 2) = true := by
    rw [CauchyPoint.origin, Extended.reaches_finite]
    norm_num
  refine ⟨point, hpoint, ?_⟩
  rw [CauchyPoint.along_of_no_gradient check_idle (Vec.toSpace_zeros 1 1), hpoint]
  simp only [landing, if_neg hfar, if_neg hpast]

/-! ### The main result -/

/-- **The only crossing.**  Take any segment that starts inside the ball and ends outside of it.  No division on
the way to its share is by zero, no guard is of any effect, and both formulas agree.  The share is the only one
in the open unit interval after which the segment meets the sphere, and the positive root of the equation
`‖q - p‖² t² + 2 p·(q - p) t + ‖p‖² - radius² = 0`.

A step, for any real number as its radius and after any history, asks for a share exactly if it ends between
the Cauchy point and the Gauss-Newton point; and then it does for the segment between the two, which leaves the
ball. -/
theorem only_crossing :
    (∀ (n : ℕ) (p q : Vec ℝ) (radius : ℝ), Crossing.Leaves n p q radius →
      radius ≠ 0 ∧
      Crossing.Exact (Crossing.coefficients p q radius) (Crossing.share p q radius) ∧
      ∀ t : ℝ,
        (t ∈ Set.Ioo 0 1 ∧ ‖p.toSpace n + t • (q.toSpace n - p.toSpace n)‖ = radius ↔
          t = Crossing.share p q radius) ∧
        (0 < t ∧ ‖q.toSpace n - p.toSpace n‖ ^ 2 * t ^ 2 +
            2 * ⟪p.toSpace n, q.toSpace n - p.toSpace n⟫ * t + (‖p.toSpace n‖ ^ 2 - radius ^ 2) = 0 ↔
          t = Crossing.share p q radius)) ∧
    ∀ (n m : ℕ) (kind : SolverKind) (tolerance : ℝ) (d : DoglegPath ℝ),
      d.Reachable n m kind tolerance → ∀ (radius : ℝ) (out : Vec ℝ),
        ∃ t, d.step radius out = some t ∧ ∀ (p q : Vec ℝ) (bound : ℝ),
          (d.Asks radius out p q bound ↔ EndsBetween t p q ∧ bound = radius) ∧
          (d.Asks radius out p q bound → Crossing.Leaves n p q bound) := by
  constructor
  · intro n p q radius h
    exact ⟨h.radius_pos.ne', h.exact_share, fun t => ⟨h.mem_Ioo_iff, h.equation_iff⟩⟩
  · intro n m kind tolerance d h radius out
    obtain ⟨t, ht, hasks⟩ := h.sound.asks_iff radius out
    exact ⟨t, ht, fun p q bound => ⟨hasks p q bound, h.sound.leaves_of_asks⟩⟩

/-- A segment that sets out towards the origin and yet leaves the ball.  And a problem without a gradient, to
which orthogonal triangularisation finds a Gauss-Newton point all the same: the step within a radius of one half
asks for the share of the segment from the origin to that point, and the one for a negative radius for none. -/
theorem only_crossing_of_obtuse :
    let p : Vec ℝ := Vec.tabulate 2 fun i => if i = 0 then 1 else 0
    let q : Vec ℝ := Vec.tabulate 2 fun i => if i = 0 then -7 else 8
    Crossing.Leaves 2 p q 5 ∧ (Crossing.coefficients p q 5).b < 0 ∧
      Crossing.share p q 5 = 1 / 2 ∧
      ∃ (d : DoglegPath ℝ) (corner point : Vec ℝ), d.Reachable 1 1 .qr 0 ∧
        d.Asks (1 / 2) (Vec.zeros 1) corner point (1 / 2) ∧
        Crossing.Leaves 1 corner point (1 / 2) ∧
        ∀ p q bound, ¬d.Asks (-1) (Vec.zeros 1) p q bound := by
  intro p q
  have hleaves : Crossing.Leaves 2 p q 5 := by
    refine ⟨Vec.size_tabulate _ _, Vec.size_tabulate _ _, ?_, ?_⟩
    · rw [EuclideanSpace.norm_eq, Real.sqrt_lt' (by norm_num)]
      simp [Fin.sum_univ_two, p, Vec.entry_tabulate]
    · rw [EuclideanSpace.norm_eq, Real.lt_sqrt (by norm_num)]
      simp [Fin.sum_univ_two, q, Vec.entry_tabulate]
      norm_num
  have hhalf : ‖p.toSpace 2 + (1 / 2 : ℝ) • (q.toSpace 2 - p.toSpace 2)‖ = 5 := by
    rw [EuclideanSpace.norm_eq, Real.sqrt_eq_iff_mul_self_eq_of_pos (by norm_num)]
    simp [Fin.sum_univ_two, p, q, Vec.entry_tabulate]
    norm_num
  have hobtuse : (Crossing.coefficients p q 5).b < 0 := by
    have hinner : ⟪p.toSpace 2, q.toSpace 2 - p.toSpace 2⟫ = -8 := by
      simp [PiLp.inner_apply, Fin.sum_univ_two, p, q, Vec.entry_tabulate]
      norm_num
    have hb := Crossing.b_coefficients hleaves.size_start hleaves.size_end hleaves.radius_pos.ne'
    rw [hinner] at hb
    linarith
  have hshare := ((only_crossing.1 2 p q 5 hleaves).2.2 (1 / 2)).1.1 ⟨by norm_num, hhalf⟩
  refine ⟨hleaves, hobtuse, hshare.symm, ?_⟩
  obtain ⟨point, hpoint, hlanding⟩ := exists_landing_idle
  obtain ⟨d₀, hd₀⟩ : ∃ d, DoglegPath.ofSize 1 1 .qr (0 : ℝ) = .ok d := ⟨_, rfl⟩
  obtain ⟨t₀, ht₀, hsized, -, hholds, hstaged⟩ := stage_holds (sized_ofSize hd₀).1 idle
  have hreachable : t₀.state.Reachable 1 1 .qr 0 := .stage (.ofSize hd₀) ht₀
  have hsteps := only_crossing.2 1 1 .qr 0 t₀.state hreachable
  obtain ⟨t, ht, hasks⟩ := hsteps (1 / 2) (Vec.zeros 1)
  obtain ⟨t', ht', hrefuses⟩ := hsteps (-1) (Vec.zeros 1)
  obtain ⟨d', events, hstep, -, -, -, hfound, -⟩ :=
    step_landing hsized (hholds (hstaged check_idle)) (hstaged check_idle) (1 / 2) (Vec.size_zeros 1)
  obtain rfl := Option.some.inj (ht.symm.trans hstep)
  have hasked := (hasks d'.corner point (1 / 2)).1.2
    ⟨⟨⟨_, by rw [← hlanding]⟩, rfl, hfound.trans hpoint⟩, rfl⟩
  refine ⟨t₀.state, d'.corner, point, hreachable, hasked, (hasks _ _ _).2 hasked,
    fun p q bound hasked => ?_⟩
  -- the segment would have to leave a ball with a negative radius
  have hpos := ((hrefuses p q bound).2 hasked).radius_pos
  rw [((hrefuses p q bound).1.1 hasked).2] at hpos
  norm_num at hpos

end DoglegPath

end TrustRegion
