import TrustRegion.Path.CauchyPoint
import TrustRegion.Path.GaussNewton

/-!
# What a staged model holds

A model has buffers for problems of one size.  Staging either refuses a problem of another size and
changes nothing, or writes over every part of the model; afterwards nothing of an earlier problem is
left (`Model.stage_of_check_ok`), and the model is the function `Model.holding` of its size and of
the problem.

The evaluations of a model are partial, because vectors have sizes.  For vectors of the right size
they are the total functions `Model.curvatureAt` and `Model.reductionAt`.
-/

namespace TrustRegion

variable {α : Type} [Scalar α]

/-- The Gauss-Newton subproblem of a linearised problem. -/
def Linearization.system (l : Linearization α) : NormalEquations α :=
  { jacobian := l.jacobian, residuals := l.residuals, hessian := l.jacobian.gram,
    gradient := l.gradient }

omit [Scalar α] in
/-- A problem passes the check exactly when all its sizes are right. -/
theorem Linearization.check_eq_ok_iff {l : Linearization α} {n m : Nat} :
    l.check n m = .ok () ↔ l.point.size = n ∧ l.residuals.size = m ∧ l.jacobian.HasShape m n ∧
      l.gradient.size = n := by
  unfold Linearization.check checkSize Matrix.HasShape
  simp only [bind, Except.bind]
  constructor
  · intro h
    repeat' split at h
    all_goals simp_all
  · rintro ⟨h1, h2, ⟨h3, h4⟩, h5⟩
    simp [h1, h2, h3, h4, h5]

section Checked

variable {l : Linearization α} {n m : Nat}

omit [Scalar α]

theorem Linearization.size_residuals (hl : l.check n m = .ok ()) : l.residuals.size = m :=
  (check_eq_ok_iff.1 hl).2.1

theorem Linearization.hasShape_jacobian (hl : l.check n m = .ok ()) : l.jacobian.HasShape m n :=
  (check_eq_ok_iff.1 hl).2.2.1

theorem Linearization.size_gradient (hl : l.check n m = .ok ()) : l.gradient.size = n :=
  (check_eq_ok_iff.1 hl).2.2.2

end Checked

omit [Scalar α] in
/-- A problem passes the check for one size only. -/
theorem Linearization.size_eq_of_check {l : Linearization α} {n m n' m' : Nat}
    (h : l.check n m = .ok ()) (h' : l.check n' m' = .ok ()) : n = n' ∧ m = m' := by
  obtain ⟨-, -, ⟨hm, hn⟩, -⟩ := check_eq_ok_iff.1 h
  obtain ⟨-, -, ⟨hm', hn'⟩, -⟩ := check_eq_ok_iff.1 h'
  exact ⟨hn.symm.trans hn', hm.symm.trans hm'⟩

/-- The problem with a given Jacobian and residuals, its gradient and cost being those that belong to
them. -/
def Linearization.ofResiduals (J : Matrix α) (r : Vec α) : Linearization α :=
  { point := Vec.zeros J.cols
    residuals := r
    jacobian := J
    gradient := Vec.tabulate J.cols fun j => (J.column j).inner r
    cost := -1 }

theorem Linearization.check_ofResiduals {J : Matrix α} {r : Vec α} (h : r.size = J.rows) :
    (ofResiduals J r).check J.cols J.rows = .ok () :=
  check_eq_ok_iff.2 ⟨Vec.size_zeros _, h, ⟨rfl, rfl⟩, Vec.size_tabulate _ _⟩

theorem Linearization.transposeMul_ofResiduals {J : Matrix α} {r : Vec α} (h : r.size = J.rows) :
    J.transposeMul r = some (ofResiduals J r).gradient := if_pos h

namespace Model

/-- Have all buffers the size of the model? -/
structure Sized (q : Model α) : Prop where
  residuals : q.residuals.size = q.m
  jacobian : q.jacobian.HasShape q.m q.n
  gradient : q.gradient.size = q.n
  hessian : q.hessian.HasShape q.n q.n

/-- The model for `n` parameters and `m` residuals that holds a problem. -/
def holding (n m : Nat) (l : Linearization α) : Model α :=
  { n, m
    residuals := l.residuals
    jacobian := l.jacobian
    gradient := l.gradient
    hessian := l.jacobian.gram
    cost := (chooseCost l.cost (costOf l.residuals)).1
    staged := true }

theorem sized_ofSize {n m : Nat} {q : Model α} (h : ofSize n m = .ok q) :
    q.Sized ∧ q.n = n ∧ q.m = m ∧ 0 < n ∧ 0 < m := by
  unfold ofSize at h
  split at h
  · cases h
  split at h
  · cases h
  cases h
  exact ⟨⟨by simp, Matrix.hasShape_zeros _ _, by simp, Matrix.hasShape_zeros _ _⟩, rfl, rfl,
    by omega, by omega⟩

theorem exists_ofSize {n m : Nat} (hn : 0 < n) (hm : 0 < m) :
    ∃ q : Model α, ofSize n m = .ok q := by
  unfold ofSize
  rw [if_neg (by omega), if_neg (by omega)]
  exact ⟨_, rfl⟩

/-- A size is refused because there has to be one parameter at least, and one residual. -/
theorem exists_of_ofSize_error {n m : Nat} {e : StepError α} (h : ofSize n m = .error e) :
    ∃ what, e = .dimension what 1 0 := by
  unfold ofSize at h
  split at h
  · cases h
    exact ⟨_, rfl⟩
  split at h
  · cases h
    exact ⟨_, rfl⟩
  · cases h

theorem sized_holding {n m : Nat} {l : Linearization α} (h : l.check n m = .ok ()) :
    (holding n m l).Sized := by
  obtain ⟨-, hr, hJ, hg⟩ := Linearization.check_eq_ok_iff.1 h
  exact ⟨hr, hJ, hg, by rw [← hJ.2]; exact Matrix.hasShape_tabulate _ _ _⟩

/-- A problem of the right size takes the place of all that was there. -/
theorem stage_of_check_ok {q : Model α} {l : Linearization α} (hq : q.Sized)
    (h : l.check q.n q.m = .ok ()) :
    ∃ events, q.stage l = some ⟨holding q.n q.m l, .ok (), events⟩ := by
  obtain ⟨-, hr, hJ, hg⟩ := Linearization.check_eq_ok_iff.1 h
  have hJ' : q.jacobian.SameShape l.jacobian :=
    ⟨hq.jacobian.1.trans hJ.1.symm, hq.jacobian.2.trans hJ.2.symm⟩
  have hB : q.hessian.HasShape l.jacobian.cols l.jacobian.cols := by rw [hJ.2]; exact hq.hessian
  unfold stage
  simp only [h, Vec.copyFrom_of_size (hq.residuals.trans hr.symm),
    Matrix.copyFrom_of_sameShape hJ', Vec.copyFrom_of_size (hq.gradient.trans hg.symm),
    Matrix.gramInto_of_hasShape hB, Option.bind_eq_bind, Option.bind_some]
  exact ⟨_, rfl⟩

/-- A problem of another size changes nothing. -/
theorem stage_of_check_error {q : Model α} {l : Linearization α} {e : StepError α}
    (h : l.check q.n q.m = .error e) : q.stage l = some (.refuse q e) := by
  unfold stage
  simp only [h]

/-- Where staging succeeds, the problem has the right size, and the model holds it. -/
theorem state_of_stage_ok {q : Model α} {l : Linearization α}
    {t : Turn α (Model α) (StepError α) Unit} (hq : q.Sized) (ht : q.stage l = some t)
    (hok : t.result = .ok ()) : l.check q.n q.m = .ok () ∧ t.state = holding q.n q.m l := by
  cases hc : l.check q.n q.m with
  | error e =>
      rw [stage_of_check_error hc] at ht
      cases ht
      cases hok
  | ok u =>
      obtain ⟨events, hstage⟩ := stage_of_check_ok hq hc
      rw [ht] at hstage
      cases hstage
      exact ⟨rfl, rfl⟩

/-! ## Evaluation -/

/-- The quadratic form at a vector of the right size. -/
def curvatureAt (q : Model α) (v : Vec α) : α :=
  Scalar.sumFrom (-0) v.size fun j => (q.hessian.column j).inner v * v.entry j

/-- By how much the model falls up to a step of the right size. -/
def reductionAt (q : Model α) (h : Vec α) : α :=
  -(h.inner q.gradient + Scalar.half * q.curvatureAt h)

theorem curvature_of_size {q : Model α} {v : Vec α} (hq : q.Sized) (hs : v.size = q.n) :
    q.curvature v = some (q.curvatureAt v) := by
  have hB : q.hessian.HasShape v.size v.size := hs ▸ hq.hessian
  exact if_pos (Or.inl hB)

theorem predictedReduction_of_size {q : Model α} {h : Vec α} (hq : q.Sized) (hs : h.size = q.n) :
    q.predictedReduction h = some (q.reductionAt h) := by
  unfold predictedReduction
  rw [Vec.dot_of_size (hs.trans hq.gradient.symm), curvature_of_size hq hs]
  rfl

theorem value_of_size {q : Model α} {h : Vec α} (hq : q.Sized) (hs : h.size = q.n) :
    q.value h = some (q.cost + h.inner q.gradient + Scalar.half * q.curvatureAt h) := by
  unfold value
  rw [Vec.dot_of_size (hs.trans hq.gradient.symm), curvature_of_size hq hs]
  rfl

end Model

namespace GaussNewton

omit [Scalar α] in
/-- The subproblem of a model fits a vector with an entry for each parameter. -/
theorem fits_system {q : Model α} (hq : q.Sized) {size : Nat} (hs : size = q.n) :
    (system q).Fits size := by
  have hn : (system q).unknowns = q.n := hq.jacobian.2
  unfold NormalEquations.Fits
  rw [hn]
  exact ⟨hq.hessian, hq.gradient, hs, hq.residuals.trans hq.jacobian.1.symm⟩

end GaussNewton

end TrustRegion
