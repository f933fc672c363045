import Mathlib
import TrustRegion.Proofs.Exact.OrNaN
import TrustRegion.Proofs.Solver.Rank

/-!
# The model of a least-squares problem

A model has a history: it was made for a size, and problems were put into it, of which some were refused
(`Model.Reachable`).  Nothing of that history can be seen once a problem has been accepted.

In exact arithmetic the model is then the one of linear least squares.  Its curvature is `‖J h‖²`, the
reduction is the difference of two values, and with the gradient `Jᵀ r` it is that of two sums of squares.
The cost may be given as no number; the exact scalars of this file have one (`OrNaN ℝ`).  Main result:
**`Model.stage_least_squares`**.
-/

namespace TrustRegion

open OrNaN
open scoped RealInnerProductSpace

variable {α : Type} [Scalar α] {n m : ℕ}

/-! ## The history of a model -/

/-- Is the model one for `n` parameters and `m` residuals that has gone through any number of stagings,
with problems of any size? -/
inductive Model.Reachable (n m : ℕ) : Model α → Prop
  | ofSize {q : Model α} (hq : Model.ofSize n m = .ok q) : Reachable n m q
  /-- One that was given another problem, whether it took it or not. -/
  | stage {q : Model α} {l : Linearization α} {t : Turn α (Model α) (StepError α) Unit}
      (before : Reachable n m q) (ht : q.stage l = some t) : Reachable n m t.state

/-- Whatever the history, the buffers have the size of the model. -/
theorem Model.Reachable.sized {q : Model α} (hq : q.Reachable n m) : q.Sized ∧ q.n = n ∧ q.m = m := by
  induction hq with
  | ofSize hq =>
      obtain ⟨hsized, hn, hm, -⟩ := sized_ofSize hq
      exact ⟨hsized, hn, hm⟩
  | @stage q l t before ht ih =>
      obtain ⟨hsized, hn, hm⟩ := ih
      cases hc : l.check q.n q.m with
      | error e =>
          rw [stage_of_check_error hc] at ht
          cases ht
          exact ⟨hsized, hn, hm⟩
      | ok u =>
          obtain ⟨events, hstage⟩ := stage_of_check_ok hsized hc
          rw [hstage] at ht
          cases ht
          exact ⟨sized_holding hc, hn, hm⟩

/-! ## Problems in numbers -/

/-- The problem in numbers, with a cost that may be no number. -/
def Linearization.numbers (l : Linearization α) (cost : OrNaN α) : Linearization (OrNaN α) :=
  { point := l.point.numbers
    residuals := l.residuals.numbers
    jacobian := l.jacobian.numbers
    gradient := l.gradient.numbers
    cost }

variable {l : Linearization α} {fx : OrNaN α} {h : Vec α}

omit [Scalar α] in
theorem Linearization.check_numbers : (l.numbers fx).check n m = .ok () ↔ l.check n m = .ok () := by
  rw [check_eq_ok_iff, check_eq_ok_iff]
  simp [numbers, Matrix.HasShape]

namespace Model

theorem curvatureAt_numbers :
    (holding n m (l.numbers fx)).curvatureAt h.numbers = number ((holding n m l).curvatureAt h) := by
  have hcolumn : ∀ j, ((holding n m (l.numbers fx)).hessian.column j).inner h.numbers =
      number (((holding n m l).hessian.column j).inner h) := by
    intro j
    show (l.jacobian.numbers.gram.column j).inner h.numbers = _
    rw [Matrix.gram_numbers, Matrix.column_numbers, Vec.inner_numbers]
    rfl
  unfold curvatureAt
  simp only [hcolumn, Vec.size_numbers, Vec.entry_numbers, number_mul]
  exact sumFrom_number (-0) h.size _

theorem reductionAt_numbers :
    (holding n m (l.numbers fx)).reductionAt h.numbers = number ((holding n m l).reductionAt h) := by
  unfold reductionAt
  rw [curvatureAt_numbers, show (holding n m (l.numbers fx)).gradient = l.gradient.numbers from rfl,
    Vec.inner_numbers, ← number_half, number_mul, number_add, neg_number]
  rfl

theorem costOf_numbers (r : Vec α) : costOf r.numbers = number (costOf r) := by
  unfold costOf
  rw [Vec.normSq_numbers, ← number_half, number_mul]

end Model

/-! ## The least-squares model -/

variable {l : Linearization ℝ} {fx : OrNaN ℝ} {h : Vec ℝ} {c : ℝ}

/-- The gradient of a problem is `Jᵀ r`. -/
theorem Linearization.Consistent.inner_gradient (hc : l.Consistent) (hl : l.check n m = .ok ())
    (v : EuclideanSpace ℝ (Fin n)) :
    ⟪l.gradient.toSpace n, v⟫ = ⟪l.residuals.toSpace m, l.jacobian.toMap m n v⟫ := by
  have hJ : l.jacobian.HasShape m n := Linearization.hasShape_jacobian hl
  rw [Matrix.toMap_eq_sum, inner_sum, PiLp.inner_apply]
  refine Finset.sum_congr rfl fun j _ => ?_
  have hentry : l.gradient.entry j = ⟪l.residuals.toSpace m, (l.jacobian.column j).toSpace m⟫ := by
    rw [real_inner_comm, ← Vec.inner_eq ((Matrix.size_column _ _).trans hJ.1)]
    exact Matrix.entry_of_transposeMul hc (hJ.2.symm ▸ j.isLt)
  rw [inner_smul_right, ← hentry]
  rfl

namespace Model

theorem costOf_eq (hl : l.check n m = .ok ()) :
    costOf l.residuals = ‖l.residuals.toSpace m‖ ^ 2 / 2 := by
  rw [costOf, Vec.normSq_eq (Linearization.size_residuals hl), Scalar.half_eq,
    one_div_mul_eq_div]

/-- With the gradient `Jᵀ r` the model falls as far as half the sum of squares. -/
theorem reductionAt_of_consistent (hl : l.check n m = .ok ()) (hc : l.Consistent) (hh : h.size = n) :
    (holding n m l).reductionAt h = ‖l.residuals.toSpace m‖ ^ 2 / 2 -
      ‖l.residuals.toSpace m + l.jacobian.toMap m n (h.toSpace n)‖ ^ 2 / 2 := by
  rw [reductionAt_holding hl hh, hc.inner_gradient hl, norm_add_sq_real]
  ring

/-- The cost of the model is a number, and it is that of the residuals if none is supplied or the
supplied one is the same. -/
theorem cost_numbers (l : Linearization ℝ) (fx : OrNaN ℝ) :
    ∃ c, (holding n m (l.numbers fx)).cost = number c ∧
      (fx = nan ∨ fx < 0 ∨ fx = number (costOf l.residuals) → c = costOf l.residuals) := by
  show ∃ c, (chooseCost fx (costOf l.residuals.numbers)).1 = number c ∧ _
  rw [costOf_numbers]
  unfold chooseCost
  cases fx with
  | nan =>
      rw [if_pos (Or.inl isNaN_nan)]
      exact ⟨_, rfl, fun _ => rfl⟩
  | number x =>
      rw [isNaN_number, Scalar.isNaN_eq_false]
      by_cases hx : number x < 0
      · rw [if_pos (Or.inr hx)]
        exact ⟨_, rfl, fun _ => rfl⟩
      · have hkept : ¬ (false = true ∨ number x < 0) := by simp [hx]
        rw [if_neg hkept]
        refine ⟨x, rfl, ?_⟩
        rintro (hnan | hneg | hsame)
        · cases hnan
        · exact absurd hneg hx
        · cases hsame
          rfl

theorem curvature_numbers (hl : l.check n m = .ok ()) (hh : h.size = n) :
    (holding n m (l.numbers fx)).curvature h.numbers =
      some (number (‖l.jacobian.toMap m n (h.toSpace n)‖ ^ 2)) := by
  rw [curvature_of_size (sized_holding (Linearization.check_numbers.2 hl))
    ((Vec.size_numbers h).trans hh), curvatureAt_numbers, curvatureAt_holding hl hh]

theorem predictedReduction_numbers (hl : l.check n m = .ok ()) (hh : h.size = n) :
    (holding n m (l.numbers fx)).predictedReduction h.numbers =
      some (number ((holding n m l).reductionAt h)) := by
  rw [predictedReduction_of_size (sized_holding (Linearization.check_numbers.2 hl))
    ((Vec.size_numbers h).trans hh), reductionAt_numbers]

/-- The value is the cost, less what the model falls. -/
theorem value_numbers (hl : l.check n m = .ok ()) (hh : h.size = n)
    (hcost : (holding n m (l.numbers fx)).cost = number c) :
    (holding n m (l.numbers fx)).value h.numbers =
      some (number (c - (holding n m l).reductionAt h)) := by
  rw [value_of_size (sized_holding (Linearization.check_numbers.2 hl))
    ((Vec.size_numbers h).trans hh), hcost, curvatureAt_numbers,
    show (holding n m (l.numbers fx)).gradient = l.gradient.numbers from rfl, Vec.inner_numbers,
    ← number_half, number_mul, number_add, number_add, reductionAt]
  congr 2
  show c + h.inner (holding n m l).gradient + _ = _
  ring

/-- **The least-squares model.**  Whatever a model has gone through, a problem in numbers with any cost is
accepted exactly if its sizes are right, and then, for every step `h`:

* the curvature is `‖J h‖²`, so it is not negative, and zero only where `J h` is;
* the reduction is by how much the value at `h` is below the one at the origin;
* if the gradient is `Jᵀ r`, the reduction is `½ ‖r‖² - ½ ‖r + J h‖²`, and if moreover the cost is no
  number, negative or `½ ‖r‖²`, the value is `½ ‖r + J h‖²`. -/
theorem stage_least_squares {q : Model (OrNaN ℝ)} (hq : q.Reachable n m) (l : Linearization ℝ)
    (fx : OrNaN ℝ) :
    ∃ t, q.stage (l.numbers fx) = some t ∧ (t.result = .ok () ↔ l.check n m = .ok ()) ∧
      (t.result = .ok () → ∀ h : Vec ℝ, h.size = n →
        let r := l.residuals.toSpace m
        let Jh := l.jacobian.toMap m n (h.toSpace n)
        (∃ κ, t.state.curvature h.numbers = some (number κ) ∧ κ = ‖Jh‖ ^ 2 ∧ 0 ≤ κ ∧
          (κ = 0 ↔ Jh = 0)) ∧
        ∃ v₀ v d, t.state.value (Vec.zeros n) = some (number v₀) ∧
          t.state.value h.numbers = some (number v) ∧
          t.state.predictedReduction h.numbers = some (number d) ∧ d = v₀ - v ∧
          (l.Consistent → d = ‖r‖ ^ 2 / 2 - ‖r + Jh‖ ^ 2 / 2 ∧
            (fx = nan ∨ fx < 0 ∨ fx = number (‖r‖ ^ 2 / 2) → v = ‖r + Jh‖ ^ 2 / 2))) := by
  obtain ⟨hsized, rfl, rfl⟩ := hq.sized
  cases hc : (l.numbers fx).check q.n q.m with
  | error e =>
      refine ⟨_, stage_of_check_error hc, iff_of_false (fun h => by cases h) fun hl => ?_,
        fun h => by cases h⟩
      rw [Linearization.check_numbers.2 hl] at hc
      cases hc
  | ok u =>
      have hl : l.check q.n q.m = .ok () := Linearization.check_numbers.1 hc
      obtain ⟨events, hstage⟩ := stage_of_check_ok hsized hc
      obtain ⟨c, hcost, hderived⟩ := cost_numbers (n := q.n) (m := q.m) l fx
      refine ⟨_, hstage, iff_of_true rfl hl, fun _ h hh => ⟨⟨_, curvature_numbers hl hh, rfl,
        sq_nonneg _, by rw [sq_eq_zero_iff, norm_eq_zero]⟩, c, _, _, ?_, value_numbers hl hh hcost,
        predictedReduction_numbers hl hh, (sub_sub_cancel _ _).symm, fun hg => ⟨?_, fun hfx => ?_⟩⟩⟩
      · rw [← Vec.numbers_zeros, value_numbers hl (Vec.size_zeros _) hcost,
          reductionAt_holding hl (Vec.size_zeros _), Vec.toSpace_zeros]
        simp
      · exact reductionAt_of_consistent hl hg hh
      · rw [← costOf_eq hl] at hfx
        rw [hderived hfx, costOf_eq hl, reductionAt_of_consistent hl hg hh, sub_sub_cancel]

/-- A problem whose cost is no number, in a model that has refused a problem and has then held one with
no numbers for its residuals, its Jacobian and its gradient. -/
theorem stage_least_squares_of_history :
    let l : Linearization ℝ :=
      .ofResiduals (Matrix.tabulate 3 2 fun i j => 1 + i - 2 * j) (Vec.tabulate 3 fun i => i - 1)
    let void : Linearization (OrNaN ℝ) :=
      { point := Vec.zeros 2
        residuals := Vec.tabulate 3 fun _ => nan
        jacobian := Matrix.tabulate 3 2 fun _ _ => nan
        gradient := Vec.tabulate 2 fun _ => nan
        cost := nan }
    ∃ new refused held t, ofSize 2 3 = .ok new ∧
      new.stage { void with point := Vec.zeros 5 } = some refused ∧
      refused.state.stage void = some held ∧ held.result = .ok () ∧ Reachable 2 3 held.state ∧
      held.state.stage (l.numbers nan) = some t ∧ t.result = .ok () ∧ l.Consistent ∧
      ∀ h : Vec ℝ, h.size = 2 → t.state.value h.numbers =
        some (number (‖l.residuals.toSpace 3 + l.jacobian.toMap 3 2 (h.toSpace 2)‖ ^ 2 / 2)) := by
  intro l void
  have hl : l.check 2 3 = .ok () := Linearization.check_ofResiduals (J := Matrix.tabulate 3 2 _) (by simp)
  have hg : l.Consistent :=
    Linearization.transposeMul_ofResiduals (J := Matrix.tabulate 3 2 _) (Vec.size_tabulate 3 _)
  have hvoid : void.check 2 3 = .ok () :=
    Linearization.check_eq_ok_iff.2 ⟨Vec.size_zeros _, Vec.size_tabulate _ _,
      Matrix.hasShape_tabulate _ _ _, Vec.size_tabulate _ _⟩
  obtain ⟨new, hnew⟩ := exists_ofSize (α := OrNaN ℝ) two_pos three_pos
  have hreach : new.Reachable 2 3 := .ofSize hnew
  obtain ⟨hsized, hn, hm⟩ := hreach.sized
  have hrefused : new.stage { void with point := Vec.zeros 5 } =
      some (.refuse new (.dimension .parameters 2 5)) := by
    refine stage_of_check_error ?_
    rw [hn, hm]
    simp [Linearization.check, checkSize]
    rfl
  obtain ⟨events, hheld⟩ := stage_of_check_ok hsized (l := void) (by rw [hn, hm]; exact hvoid)
  have hreach' : Reachable 2 3 (holding new.n new.m void) := .stage (.stage hreach hrefused) hheld
  obtain ⟨t, ht, hok, hmodel⟩ := stage_least_squares hreach' l nan
  refine ⟨new, _, _, t, hnew, hrefused, hheld, rfl, hreach', ht, hok.2 hl, hg, fun h hh => ?_⟩
  obtain ⟨-, v₀, v, d, -, hv, -, -, hvalue⟩ := hmodel (hok.2 hl) h hh
  rw [hv, (hvalue hg).2 (Or.inl rfl)]

end Model

end TrustRegion
