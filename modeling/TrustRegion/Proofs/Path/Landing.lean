import TrustRegion.Path.Dogleg
import TrustRegion.Proofs.Model.Staged
import TrustRegion.Proofs.Solver.Answer

/-!
# Where a step lands

The step along a dogleg path is computed with a cached Gauss-Newton point, with a vector of scratch
space and with a vector that is written over.  This file says what comes out in terms of the staged
model alone.

* `GaussNewton.Knows` — what is cached is the answer of the linear solver to the staged model.  A
  computation never fails to answer and keeps this (`GaussNewton.compute_knows`), and it answers what
  is known afterwards (`GaussNewton.progress_of_compute`).
* `DoglegPath.landing` — the step as a function of the Cauchy point, the gradient, the Gauss-Newton
  point, if there is one, and the radius.
* **`DoglegPath.step_landing`** — a path whose buffers have the right sizes and which holds a problem
  always answers, with the landing of that problem.

No law of the arithmetic is used.
-/

namespace TrustRegion

variable {α : Type} [Scalar α]

/-! ## The Cauchy point -/

namespace CauchyPoint

/-- The Cauchy point of a model whose buffers have its size. -/
def along (q : Model α) : CauchyPoint α :=
  if Scalar.isZero q.gradient.norm then ⟨q.gradient.norm, 0, .finite 0⟩
  else
    ⟨q.gradient.norm, q.curvatureAt q.gradient,
      distance q.gradient.norm (q.curvatureAt q.gradient)⟩

theorem along_gradientNorm (q : Model α) : (along q).gradientNorm = q.gradient.norm := by
  unfold along
  split <;> rfl

theorem along_of_isZero_eq_false {q : Model α} (h : Scalar.isZero q.gradient.norm = false) :
    along q = ⟨q.gradient.norm, q.curvatureAt q.gradient,
      distance q.gradient.norm (q.curvatureAt q.gradient)⟩ := if_neg (by simp [h])

theorem ofModel_of_sized {q : Model α} (hq : q.Sized) :
    ∃ events, ofModel q = some (along q, events) := by
  unfold ofModel along
  by_cases hz : Scalar.isZero q.gradient.norm = true
  · simp only [if_pos hz]
    exact ⟨_, rfl⟩
  · simp only [if_neg hz, Model.curvature_of_size hq hq.gradient, Option.bind_eq_bind,
      Option.bind_some]
    exact ⟨_, rfl⟩

/-- The step to the point, cut off at the radius; and whether it was cut off. -/
def stepWithin (p : CauchyPoint α) (gradient : Vec α) (radius : α) : Vec α × Bool :=
  if p.isZeroGradient then (Vec.zeros gradient.size, false)
  else (gradient.scale (-(p.reach radius).1 / p.gradientNorm), (p.reach radius).2)

@[simp] theorem size_stepWithin (p : CauchyPoint α) (gradient : Vec α) (radius : α) :
    (p.stepWithin gradient radius).1.size = gradient.size := by
  unfold stepWithin
  split <;> simp

/-- For a problem it has an entry for each parameter. -/
theorem size_stepWithin_of_check {l : Linearization α} {n m : Nat} (hl : l.check n m = .ok ())
    (p : CauchyPoint α) (radius : α) : (p.stepWithin l.gradient radius).1.size = n :=
  (size_stepWithin p l.gradient radius).trans (Linearization.size_gradient hl)

/-- Of the vector that is written over only its size matters. -/
theorem writeStep_of_size {p : CauchyPoint α} {gradient out : Vec α} (radius : α)
    (h : out.size = gradient.size) :
    p.writeStep gradient radius out = some (p.stepWithin gradient radius) := by
  unfold writeStep stepWithin
  split
  · rw [← h]; rfl
  · simp only [Vec.copyFrom_of_size h, Option.bind_eq_bind, Option.bind_some]

end CauchyPoint

/-! ## The Gauss-Newton point -/

namespace GaussNewton

/-- What is known about the Gauss-Newton point is true of the model `q`. -/
def Knows (g : GaussNewton α) (q : Model α) : Prop :=
  match g.progress with
  | .pending => True
  | .solved norm =>
      Solver.answer g.solver.kind (system q) g.tolerance = .ok g.point ∧ norm = g.point.norm
  | .failed e condition =>
      Solver.answer g.solver.kind (system q) g.tolerance = .error e ∧
        condition = q.hessian.conditionNumber

theorem knows_invalidate (g : GaussNewton α) (q : Model α) : g.invalidate.Knows q := trivial

/-- What a computation answers is what is known afterwards. -/
theorem progress_of_compute {g : GaussNewton α} {q : Model α}
    {t : Turn α (GaussNewton α) (SolveError α) α} (ht : g.compute q = some t) :
    (∃ norm, t.result = .ok norm ∧ t.state.progress = .solved norm) ∨
      ∃ e condition, t.result = .error e ∧ t.state.progress = .failed e condition := by
  unfold compute computeBy at ht
  cases hp : g.progress with
  | solved norm =>
      rw [hp] at ht
      cases ht
      exact Or.inl ⟨norm, rfl, hp⟩
  | failed e condition =>
      rw [hp] at ht
      cases ht
      exact Or.inr ⟨e, condition, rfl, hp⟩
  | pending =>
      simp only [hp, solve, Option.bind_eq_bind] at ht
      obtain ⟨a, -, ht⟩ := Option.bind_eq_some_iff.1 ht
      cases hv : a.verdict with
      | ok u =>
          rw [hv] at ht
          cases ht
          exact Or.inl ⟨_, rfl, rfl⟩
      | error e =>
          rw [hv] at ht
          cases ht
          exact Or.inr ⟨e, _, rfl, rfl⟩

/-- The linear solver is asked once, and what it answers is known afterwards. -/
theorem solve_knows {g : GaussNewton α} {q : Model α} (hf : (system q).Fits g.point.size) :
    ∃ t, g.solve q = some t ∧ t.state.Knows q ∧ t.state.solver.kind = g.solver.kind ∧
      t.state.tolerance = g.tolerance ∧ t.state.point.size = g.point.size ∧
      (g.solver.Sized (system q).unknowns (system q).jacobian.rows →
        t.state.solver.Sized (system q).unknowns (system q).jacobian.rows) := by
  obtain ⟨a, ha, hanswer, hkind, hsize, hsized, -⟩ := g.solver.solve_answer g.tolerance hf
  have hsize' : a.step.size = g.point.size := hsize.trans hf.2.2.1.symm
  simp only [solve, ha, Option.bind_eq_bind, Option.bind_some]
  cases hv : a.verdict with
  | ok u =>
      have hok := hanswer ▸ Attempt.answer_eq_ok_iff.2 ⟨hv, rfl⟩
      exact ⟨_, rfl, ⟨by simpa [hkind] using hok, rfl⟩, hkind, rfl, hsize', hsized⟩
  | error e =>
      have herror := hanswer ▸ Attempt.answer_eq_error_iff.2 hv
      exact ⟨_, rfl, ⟨by simpa [hkind] using herror, rfl⟩, hkind, rfl, by simpa using hsize', hsized⟩

/-- A computation always answers; what is known afterwards is true. -/
theorem compute_knows {g : GaussNewton α} {q : Model α} (hk : g.Knows q)
    (hf : (system q).Fits g.point.size) :
    ∃ t, g.compute q = some t ∧ t.state.Knows q ∧ t.state.solver.kind = g.solver.kind ∧
      t.state.tolerance = g.tolerance ∧ t.state.point.size = g.point.size := by
  unfold compute computeBy
  cases g.progress with
  | solved norm => exact ⟨_, rfl, hk, rfl, rfl, rfl⟩
  | failed e condition => exact ⟨_, rfl, hk, rfl, rfl, rfl⟩
  | pending =>
      obtain ⟨t, ht, hknows, hkind, htolerance, hsize, -⟩ := solve_knows hf
      exact ⟨t, ht, hknows, hkind, htolerance, hsize⟩

variable {g : GaussNewton α} {q : Model α}

/-- The distance that is answered is the one that is known afterwards. -/
theorem norm?_of_compute {t : Turn α (GaussNewton α) (SolveError α) α} (ht : g.compute q = some t) :
    t.result.toOption = t.state.norm? := by
  unfold norm?
  rcases progress_of_compute ht with ⟨norm, hresult, hp⟩ | ⟨e, condition, hresult, hp⟩ <;>
    rw [hresult, hp] <;> rfl

/-- The point that is shown after a computation is the one that the linear solver finds. -/
theorem step?_of_compute {t : Turn α (GaussNewton α) (SolveError α) α} (ht : g.compute q = some t)
    (hk : t.state.Knows q) :
    t.state.step? =
      (Solver.answer t.state.solver.kind (system q) t.state.tolerance).toOption := by
  unfold Knows at hk
  unfold step?
  rcases progress_of_compute ht with ⟨norm, -, hp⟩ | ⟨e, condition, -, hp⟩ <;>
    rw [hp] at hk ⊢ <;> simp [hk.1, Except.toOption]

omit [Scalar α] in
/-- The point that is shown is the one that is kept. -/
theorem point_of_step? {p : Vec α} (h : g.step? = some p) : g.point = p := by
  unfold step? at h
  split at h
  · exact Option.some.inj h
  · cases h

theorem norm?_of_knows (hk : g.Knows q) : g.norm? = g.step?.map Vec.norm := by
  unfold Knows at hk
  unfold norm? step?
  cases h : g.progress with
  | pending => rfl
  | solved norm => rw [h] at hk; simp [hk.2]
  | failed e condition => rfl

end GaussNewton

/-! ## The path -/

/-- A step, its regime, and whether it ends on the boundary. -/
structure Landing (α : Type) where
  regime : Regime
  step : Vec α
  onBoundary : Bool

namespace DoglegPath

/-- The point of the segment from `x` to `y` that lies on the sphere of the given radius. -/
def crossingPoint (x y : Vec α) (radius : α) : Vec α :=
  Vec.tabulate x.size fun i =>
    x.entry i + Crossing.share x y radius * (y.entry i - x.entry i)

/-- The step along the path for a radius, with the Gauss-Newton point if there is one. -/
def landing (c : CauchyPoint α) (gradient : Vec α) (p? : Option (Vec α)) (radius : α) :
    Landing α :=
  let towardsCauchy := c.stepWithin gradient radius
  match p? with
  | none => ⟨.cauchy, towardsCauchy.1, towardsCauchy.2⟩
  | some p =>
    if p.norm ≤ radius then ⟨.gaussNewton, p, false⟩
    else if c.norm.reaches radius then ⟨.cauchy, towardsCauchy.1, towardsCauchy.2⟩
    else ⟨.combined, crossingPoint towardsCauchy.1 p radius, true⟩

/-- Have all parts of the path room for `n` parameters and `m` residuals, and is its solver the one
asked for? -/
structure Sized (d : DoglegPath α) (n m : Nat) (kind : SolverKind) (tolerance : α) : Prop where
  params_pos : 0 < n
  residuals_pos : 0 < m
  model : d.model.Sized
  params : d.model.n = n
  residuals : d.model.m = m
  point : d.gaussNewton.point.size = n
  corner : d.corner.size = n
  kind : d.gaussNewton.solver.kind = kind
  tolerance : d.gaussNewton.tolerance = tolerance

/-- Has the path taken in the problem `l`, so that all it caches belongs to that problem? -/
structure Holds (d : DoglegPath α) (n m : Nat) (l : Linearization α) : Prop where
  check : l.check n m = .ok ()
  model : d.model = Model.holding n m l
  cauchy : d.cauchy = CauchyPoint.along (Model.holding n m l)
  gaussNewton : d.gaussNewton.Knows (Model.holding n m l)

variable {n m : Nat} {kind : SolverKind} {tolerance : α} {d : DoglegPath α}

theorem sized_ofSize (h : ofSize n m kind tolerance = .ok d) :
    d.Sized n m kind tolerance ∧ d.staged = false := by
  unfold ofSize at h
  cases hq : Model.ofSize (α := α) n m with
  | error e => rw [hq] at h; cases h
  | ok q =>
      rw [hq] at h
      cases h
      obtain ⟨hs, h1, h2, h3, h4⟩ := Model.sized_ofSize hq
      exact ⟨⟨h3, h4, hs, h1, h2, by simp [GaussNewton.ofSize], by simp, by simp [GaussNewton.ofSize],
        rfl⟩, rfl⟩

/-- The path after it has refused a problem: the one at hand is given up, with its Gauss-Newton point,
and all else is as it was. -/
def unstaged (d : DoglegPath α) : DoglegPath α :=
  { d with staged := false, gaussNewton := d.gaussNewton.invalidate }

theorem stage_of_check_error (hd : d.Sized n m kind tolerance) {l : Linearization α}
    {e : StepError α} (hl : l.check n m = .error e) : d.stage l = some (.refuse d.unstaged e) := by
  unfold stage
  simp only [Option.bind_eq_bind]
  rw [Model.stage_of_check_error (by rw [hd.params, hd.residuals]; exact hl)]
  rfl

/-- Taking a problem always answers.  The path keeps its size; it is staged afterwards exactly if the
problem was accepted, and then it holds that problem and nothing of an earlier one. -/
theorem stage_holds (hd : d.Sized n m kind tolerance) (l : Linearization α) :
    ∃ t, d.stage l = some t ∧ t.state.Sized n m kind tolerance ∧ t.result = l.check n m ∧
      (t.state.staged = true → t.state.Holds n m l) ∧
      (l.check n m = .ok () → t.state.staged = true) := by
  have hn := hd.params
  have hm := hd.residuals
  cases hc : l.check n m with
  | error e =>
      rw [stage_of_check_error hd hc]
      exact ⟨_, rfl, ⟨hd.params_pos, hd.residuals_pos, hd.model, hn, hm, hd.point, hd.corner,
        hd.kind, hd.tolerance⟩, rfl, by simp [Turn.refuse, unstaged], by simp⟩
  | ok u =>
      unfold stage
      simp only [Option.bind_eq_bind]
      obtain ⟨events, hstage⟩ := Model.stage_of_check_ok hd.model (by rw [hn, hm]; exact hc)
      rw [hstage, hn, hm]
      have hsized := Model.sized_holding hc
      obtain ⟨events', hcauchy⟩ := CauchyPoint.ofModel_of_sized hsized
      simp only [Option.bind_some, hcauchy]
      exact ⟨_, rfl, ⟨hd.params_pos, hd.residuals_pos, hsized, rfl, rfl, hd.point, hd.corner,
        hd.kind, hd.tolerance⟩, rfl, fun _ => ⟨hc, rfl, rfl, GaussNewton.knows_invalidate _ _⟩,
        fun _ => rfl⟩

/-! ### Where the step is placed -/

theorem toCauchy_of_sized (hd : d.Sized n m kind tolerance) (radius : α) {out : Vec α}
    (hout : out.size = n) :
    let (step, clipped) := d.cauchy.stepWithin d.model.gradient radius
    d.toCauchy radius out =
      some ⟨d, step, .cauchy, clipped, [.cauchyStep d.cauchy.norm radius clipped]⟩ := by
  have hg : d.model.gradient.size = n := hd.model.gradient.trans hd.params
  unfold toCauchy
  rw [CauchyPoint.writeStep_of_size radius (hout.trans hg.symm)]
  rfl

omit [Scalar α] in
theorem toGaussNewton_of_sized (hd : d.Sized n m kind tolerance) (norm radius : α) {out : Vec α}
    (hout : out.size = n) :
    d.toGaussNewton norm radius out =
      some ⟨d, d.gaussNewton.point, .gaussNewton, false, [.gaussNewtonInside norm radius]⟩ := by
  unfold toGaussNewton
  rw [Vec.copyFrom_of_size (hout.trans hd.point.symm)]
  rfl

theorem between_of_sized (hd : d.Sized n m kind tolerance) (radius : α) {out : Vec α}
    (hout : out.size = n) :
    let corner := (d.cauchy.stepWithin d.model.gradient radius).1
    let share := Crossing.share corner d.gaussNewton.point radius
    d.betweenBy Crossing.known radius out =
      some ⟨{ d with corner }, crossingPoint corner d.gaussNewton.point radius, .combined, true,
        [.crossing share, .combinedStep share radius]⟩ := by
  have hg : d.model.gradient.size = n := hd.model.gradient.trans hd.params
  have hcorner : (d.cauchy.stepWithin d.model.gradient radius).1.size = n := by simpa using hg
  unfold betweenBy Crossing.known
  rw [CauchyPoint.writeStep_of_size radius (hd.corner.trans hg.symm)]
  simp only [Option.bind_eq_bind, Option.bind_some,
    Vec.towards_of_size _ (hcorner.trans hd.point.symm),
    Vec.copyFrom_of_size (hout.trans (hcorner.symm.trans (Vec.size_tabulate _ _).symm))]
  rfl

/-- What placing a step can do: the scratch vector changes at most, and the events tell which of the three
cases it was. -/
theorem place_cases {norm? : Option α} {radius : α} {out : Vec α} {placed : Placed α}
    (h : d.place norm? radius out = some placed) :
    ∃ corner, placed.path = { d with corner } ∧
      ((∃ norm, placed.events = [.gaussNewtonInside norm radius]) ∨
        (∃ clipped, placed.events = [.cauchyStep d.cauchy.norm radius clipped]) ∨
        ∃ share, placed.events = [.crossing share, .combinedStep share radius]) := by
  unfold place placeBy toGaussNewton toCauchy betweenBy Crossing.known at h
  simp only [Option.bind_eq_bind] at h
  split at h
  · obtain ⟨step, -, h⟩ := Option.bind_eq_some_iff.1 h
    cases h
    exact ⟨_, rfl, .inr (.inl ⟨_, rfl⟩)⟩
  split at h
  · obtain ⟨step, -, h⟩ := Option.bind_eq_some_iff.1 h
    cases h
    exact ⟨_, rfl, .inl ⟨_, rfl⟩⟩
  split at h
  · obtain ⟨step, -, h⟩ := Option.bind_eq_some_iff.1 h
    cases h
    exact ⟨_, rfl, .inr (.inl ⟨_, rfl⟩)⟩
  · simp only [Option.bind_eq_some_iff] at h
    obtain ⟨corner, -, share, -, point, -, step, -, h⟩ := h
    cases h
    exact ⟨_, rfl, .inr (.inr ⟨_, rfl⟩)⟩

/-- The step is placed where the landing says; only the scratch vector changes. -/
theorem place_landing (hd : d.Sized n m kind tolerance)
    (hk : d.gaussNewton.Knows d.model) (radius : α) {out : Vec α} (hout : out.size = n) :
    ∃ corner events, corner.size = n ∧
      d.place d.gaussNewton.norm? radius out =
        some (
          let l := landing d.cauchy d.model.gradient d.gaussNewton.step? radius
          ⟨{ d with corner }, l.step, l.regime, l.onBoundary, events⟩) := by
  rw [GaussNewton.norm?_of_knows hk]
  unfold place placeBy landing
  cases hp : d.gaussNewton.step? with
  | none => exact ⟨d.corner, _, hd.corner, toCauchy_of_sized hd radius hout⟩
  | some p =>
      obtain rfl := GaussNewton.point_of_step? hp
      simp only [Option.map_some]
      by_cases hin : d.gaussNewton.point.norm ≤ radius
      · simp only [if_pos hin]
        exact ⟨d.corner, _, hd.corner, toGaussNewton_of_sized hd _ radius hout⟩
      simp only [if_neg hin]
      by_cases hreach : d.cauchy.norm.reaches radius = true
      · simp only [if_pos hreach]
        exact ⟨d.corner, _, hd.corner, toCauchy_of_sized hd radius hout⟩
      · simp only [if_neg hreach]
        refine ⟨_, _, ?_, between_of_sized hd radius hout⟩
        rw [CauchyPoint.size_stepWithin, hd.model.gradient, hd.params]

/-- The Gauss-Newton point of a problem, if the linear solver finds one. -/
def gaussNewtonPoint? (kind : SolverKind) (tolerance : α) (l : Linearization α) : Option (Vec α) :=
  (Solver.answer kind l.system tolerance).toOption

theorem gaussNewtonPoint?_eq_some_iff {l : Linearization α} {p : Vec α} :
    gaussNewtonPoint? kind tolerance l = some p ↔
      Solver.answer kind l.system tolerance = .ok p := by
  unfold gaussNewtonPoint?
  cases Solver.answer kind l.system tolerance <;> simp [Except.toOption]

theorem size_gaussNewtonPoint? {l : Linearization α} {p : Vec α} (hl : l.check n m = .ok ())
    (hp : gaussNewtonPoint? kind tolerance l = some p) : p.size = n := by
  have hfits : l.system.Fits n := GaussNewton.fits_system (Model.sized_holding hl) rfl
  rw [Solver.size_of_answer hfits (gaussNewtonPoint?_eq_some_iff.1 hp)]
  exact (Linearization.hasShape_jacobian hl).2

/-- It is what a fresh linear solver finds. -/
theorem exists_solve {l : Linearization α} (hl : l.check n m = .ok ()) (kind : SolverKind)
    (tolerance : α) :
    ∃ a, (Solver.ofKind kind n m).solve l.system tolerance (Vec.zeros n) = some a ∧
      gaussNewtonPoint? kind tolerance l = a.answer.toOption := by
  have hfits : l.system.Fits (Vec.zeros n : Vec α).size :=
    GaussNewton.fits_system (Model.sized_holding hl) (Vec.size_zeros n)
  obtain ⟨a, ha, hanswer, -⟩ := (Solver.ofKind kind n m).solve_answer tolerance hfits
  refine ⟨a, ha, ?_⟩
  rw [hanswer, Solver.kind_ofKind]
  rfl

/-- What there is to report about the subproblem of a problem. -/
def report (n m : Nat) (kind : SolverKind) (tolerance : α) (l : Linearization α) :
    Diagnostics α :=
  { gaussNewtonFailed := (gaussNewtonPoint? kind tolerance l).isNone
    nonPositiveCurvature := (CauchyPoint.along (Model.holding n m l)).isUnbounded
    zeroGradient := (CauchyPoint.along (Model.holding n m l)).isZeroGradient
    conditionNumber :=
      match gaussNewtonPoint? kind tolerance l with
      | some _ => none
      | none => some l.jacobian.gram.conditionNumber }

section Refused

variable (compute : GaussNewton.Method α) (place : Placing α) (radius : α)

/-- Before a problem is taken there is no step. -/
theorem stepBy_of_not_staged (h : d.staged = false) (out : Vec α) :
    d.stepBy compute place radius out = some (.refuse (d, out) .inputsNotSet) := by
  unfold stepBy
  simp [h]

/-- A vector of another size is refused. -/
theorem stepBy_of_size_ne (hd : d.Sized n m kind tolerance) (hstaged : d.staged = true)
    {out : Vec α} (hout : out.size ≠ n) :
    d.stepBy compute place radius out = some (.refuse (d, out) (.dimension .step n out.size)) := by
  unfold stepBy checkSize
  simp [hstaged, hd.params, Ne.symm hout]

end Refused

/-- What a step can do: it is refused before anything is asked, or the Gauss-Newton point is asked for and
the step is placed. -/
theorem stepBy_cases {compute : GaussNewton.Method α} {place : Placing α} {radius : α} {out : Vec α}
    {t : Turn α (DoglegPath α × Vec α) (StepError α) (Regime × Bool)}
    (h : d.stepBy compute place radius out = some t) :
    (∃ e, t = .refuse (d, out) e ∧ ∀ compute place, d.stepBy compute place radius out = some t) ∨
      ∃ solving placed, d.staged = true ∧
        (checkSize .step d.model.n out.size : Except (StepError α) Unit) = .ok () ∧
        compute d.gaussNewton d.model = some solving ∧
        place (d.asked solving) solving.result.toOption radius out = some placed ∧
        t = ⟨(placed.path, placed.step), .ok (placed.regime, placed.onBoundary),
          solving.events ++ placed.events⟩ := by
  have hrefused : ∀ e : StepError α,
      (∀ compute place, d.stepBy compute place radius out = some (.refuse (d, out) e)) →
        ∃ e, t = .refuse (d, out) e ∧ ∀ compute place, d.stepBy compute place radius out = some t :=
    fun e hall => by
      obtain rfl := Option.some.inj (h.symm.trans (hall compute place))
      exact ⟨e, rfl, hall⟩
  by_cases hstaged : d.staged = true
  · cases hsize : (checkSize .step d.model.n out.size : Except (StepError α) Unit) with
    | error e =>
        refine .inl (hrefused e fun compute place => ?_)
        unfold stepBy
        rw [if_pos hstaged, hsize]
    | ok u =>
        unfold stepBy at h
        simp only [if_pos hstaged, hsize, Option.bind_eq_bind, Option.bind_eq_some_iff] at h
        obtain ⟨solving, hsolving, placed, hplaced, h⟩ := h
        cases h
        exact .inr ⟨solving, placed, hstaged, rfl, hsolving, hplaced, rfl⟩
  · exact .inl (hrefused .inputsNotSet fun compute place =>
      stepBy_of_not_staged compute place radius (by simpa using hstaged) out)

/-- A step asks for the Gauss-Newton point and is then placed. -/
theorem stepBy_eq {place : Placing α} (hd : d.Sized n m kind tolerance) (hstaged : d.staged = true)
    {radius : α} {out : Vec α} (hout : out.size = n) {t : Turn α (GaussNewton α) (SolveError α) α}
    (ht : d.gaussNewton.compute d.model = some t) :
    d.stepBy GaussNewton.compute place radius out =
      (place (d.asked t) (d.asked t).gaussNewton.norm? radius out).bind fun placed =>
        some ⟨(placed.path, placed.step), .ok (placed.regime, placed.onBoundary),
          t.events ++ placed.events⟩ := by
  unfold stepBy
  rw [if_pos hstaged, hd.params, hout]
  simp only [checkSize_self, ht, GaussNewton.norm?_of_compute ht, asked, Option.bind_eq_bind,
    Option.bind_some]

/-- What the path notes is what there is to report: that there is no point if the computation failed, and
then the condition number that is kept of it. -/
theorem diagnostics_asked {l : Linearization α} (hl : d.Holds n m l)
    {t : Turn α (GaussNewton α) (SolveError α) α} (ht : d.gaussNewton.compute d.model = some t)
    (hk : t.state.Knows (Model.holding n m l))
    (hstep : t.state.step? = gaussNewtonPoint? kind tolerance l) :
    (d.asked t).diagnostics = report n m kind tolerance l := by
  unfold GaussNewton.Knows at hk
  unfold GaussNewton.step? at hstep
  unfold asked report
  rcases GaussNewton.progress_of_compute ht with ⟨norm, hresult, hp⟩ | ⟨e, condition, hresult, hp⟩
  · rw [hp] at hstep
    simp only [hresult, ← hstep, hl.cauchy, Option.isNone_some]
  · rw [hp] at hstep hk
    simp only [hresult, ← hstep, hl.cauchy, GaussNewton.condition?, hp, hk.2, Option.isNone_none]
    rfl

/-- The path always gets its answer.  It holds the problem as before, and the Gauss-Newton point that it
shows is the one the linear solver finds. -/
theorem exists_asked {l : Linearization α} (hd : d.Sized n m kind tolerance) (hl : d.Holds n m l) :
    ∃ t, d.gaussNewton.compute d.model = some t ∧ (d.asked t).Sized n m kind tolerance ∧
      (d.asked t).Holds n m l ∧
      (d.asked t).gaussNewton.step? = gaussNewtonPoint? kind tolerance l ∧
      (d.asked t).diagnostics = report n m kind tolerance l := by
  have hfits : (GaussNewton.system d.model).Fits d.gaussNewton.point.size :=
    GaussNewton.fits_system hd.model (hd.point.trans hd.params.symm)
  obtain ⟨t, ht, hk, hkind, htol, hsize⟩ :=
    GaussNewton.compute_knows (hl.model ▸ hl.gaussNewton) hfits
  have hstep : t.state.step? = gaussNewtonPoint? kind tolerance l := by
    rw [GaussNewton.step?_of_compute ht hk, hkind, htol, hd.kind, hd.tolerance, hl.model]
    rfl
  have hknows : t.state.Knows (Model.holding n m l) := hl.model ▸ hk
  exact ⟨t, ht, ⟨hd.params_pos, hd.residuals_pos, hd.model, hd.params, hd.residuals,
    hsize.trans hd.point, hd.corner, hkind.trans hd.kind, htol.trans hd.tolerance⟩,
    ⟨hl.check, hl.model, hl.cauchy, hknows⟩, hstep, diagnostics_asked hl ht hknows hstep⟩

/-- **The step of a path that holds a problem.**  It always answers; the vector, the regime and the
flag are those of the landing, the path holds the problem as before, and the Gauss-Newton point that
it shows is the one the linear solver finds. -/
theorem step_landing {l : Linearization α} (hd : d.Sized n m kind tolerance)
    (hl : d.Holds n m l) (hstaged : d.staged = true) (radius : α) {out : Vec α}
    (hout : out.size = n) :
    ∃ d' events,
      d.step radius out =
        some (
          let l := landing (CauchyPoint.along (Model.holding n m l)) l.gradient
            (gaussNewtonPoint? kind tolerance l) radius
          ⟨(d', l.step), .ok (l.regime, l.onBoundary), events⟩) ∧
      d'.Sized n m kind tolerance ∧ d'.Holds n m l ∧ d'.staged = true ∧
      d'.gaussNewton.step? = gaussNewtonPoint? kind tolerance l ∧
      d'.diagnostics = report n m kind tolerance l := by
  obtain ⟨t, ht, hsized, hholds, hstep, hreport⟩ := exists_asked hd hl
  obtain ⟨corner, events, hcorner, hplace⟩ :=
    place_landing hsized (hholds.model ▸ hholds.gaussNewton) radius hout
  have hlanding : landing (d.asked t).cauchy (d.asked t).model.gradient
      (d.asked t).gaussNewton.step? radius =
      landing (CauchyPoint.along (Model.holding n m l)) l.gradient
        (gaussNewtonPoint? kind tolerance l) radius := by
    rw [hholds.cauchy, hholds.model, hstep]
    rfl
  rw [hlanding] at hplace
  refine ⟨{ d.asked t with corner }, t.events ++ events, ?_, ?_,
    ⟨hholds.check, hholds.model, hholds.cauchy, hholds.gaussNewton⟩, hstaged, hstep, hreport⟩
  · rw [step, stepBy_eq hd hstaged hout ht, hplace]
    rfl
  · exact ⟨hsized.params_pos, hsized.residuals_pos, hsized.model, hsized.params,
      hsized.residuals, hsized.point, hcorner, hsized.kind, hsized.tolerance⟩

/-- The step for a problem has an entry for each parameter. -/
theorem size_landing {l : Linearization α} {c : CauchyPoint α} {radius : α}
    (hl : l.check n m = .ok ()) :
    (landing c l.gradient (gaussNewtonPoint? kind tolerance l) radius).step.size = n := by
  have hg : l.gradient.size = n := Linearization.size_gradient hl
  unfold landing
  cases hp : gaussNewtonPoint? kind tolerance l with
  | none => simpa using hg
  | some p =>
      simp only
      split
      · exact size_gaussNewtonPoint? hl hp
      · split
        · simpa using hg
        · simpa [crossingPoint] using hg

theorem step_of_not_staged (h : d.staged = false) (radius : α) (out : Vec α) :
    d.step radius out = some (.refuse (d, out) .inputsNotSet) :=
  stepBy_of_not_staged GaussNewton.compute place radius h out

theorem step_of_size_ne (hd : d.Sized n m kind tolerance) (hstaged : d.staged = true) (radius : α)
    {out : Vec α} (hout : out.size ≠ n) :
    d.step radius out = some (.refuse (d, out) (.dimension .step n out.size)) :=
  stepBy_of_size_ne GaussNewton.compute place radius hd hstaged hout

end DoglegPath

end TrustRegion
