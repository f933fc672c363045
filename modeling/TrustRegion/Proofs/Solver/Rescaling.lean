import Mathlib
import TrustRegion.Proofs.Linear.Pivots
import TrustRegion.Proofs.Solver.Rank

/-!
# Unknowns in other units

To measure the unknowns of a subproblem in other units is to scale the columns of the Jacobian, and with
them the gradient and both sides of the Hessian.  In exact arithmetic none of the linear solvers can be
misled by it: with the same tolerance they succeed with the one subproblem exactly if they succeed with
the other, and the steps are the same but for the units.

* `NormalEquations.rescale` — the subproblem in other units; `Vec.per` — a step in other units.
* `LuSolver.answer_rescale`, `QrSolver.answer_rescale` — the matrices that are factored are the same
  (`NormalEquations.scaleBoth_rescale`, `NormalEquations.scaleColumns_rescale`), and so are the
  numbers with which a failure is reported.
* `CholeskySolver.answer_rescale` — the pivots and the thresholds with which they are compared change
  alike.
* **`Solver.solve_rescale`** — for all three kinds.
-/

namespace TrustRegion

open Finset

/-! ## Other units -/

/-- The subproblem with its columns scaled. -/
noncomputable def NormalEquations.rescale (e : NormalEquations ℝ) (S : Vec ℝ) :
    NormalEquations ℝ :=
  { jacobian := e.jacobian.scaleColumns S
    residuals := e.residuals
    hessian := e.hessian.scaleBoth S
    gradient := e.gradient.times S }

/-- A step in other units. -/
noncomputable def Vec.per (p S : Vec ℝ) : Vec ℝ :=
  Vec.tabulate p.size fun i => p.entry i / S.entry i

@[simp] theorem Vec.size_per (p S : Vec ℝ) : (p.per S).size = p.size := Vec.size_tabulate _ _

theorem Vec.entry_per {p : Vec ℝ} {i : ℕ} (S : Vec ℝ) (hi : i < p.size) :
    (p.per S).entry i = p.entry i / S.entry i := Vec.entry_tabulate _ hi

namespace NormalEquations

variable {e : NormalEquations ℝ} {S : Vec ℝ} {size : ℕ}

@[simp] theorem unknowns_rescale (e : NormalEquations ℝ) (S : Vec ℝ) :
    (e.rescale S).unknowns = e.unknowns := (e.jacobian.hasShape_scaleColumns S).2

@[simp] theorem rows_rescale (e : NormalEquations ℝ) (S : Vec ℝ) :
    (e.rescale S).jacobian.rows = e.jacobian.rows := (e.jacobian.hasShape_scaleColumns S).1

theorem fits_rescale (h : e.Fits size) (S : Vec ℝ) : (e.rescale S).Fits size := by
  obtain ⟨hB, hg, hs, hr⟩ := h
  unfold Fits
  rw [unknowns_rescale, rows_rescale]
  have hshape := e.hessian.hasShape_scaleBoth S
  exact ⟨⟨hshape.1.trans hB.1, hshape.2.trans hB.2⟩, (Vec.size_times _ _).trans hg, hs, hr⟩

theorem diagonal_rescale (h : e.Fits size) {i : ℕ} (hi : i < e.unknowns) :
    (e.rescale S).diagonal i = e.diagonal i * S.entry i * S.entry i :=
  Matrix.entry_scaleBoth _ (h.1.1.symm ▸ hi) (h.1.2.symm ▸ hi)

theorem diagonal_nonneg (hB : e.hessian = e.jacobian.gram) {i : ℕ} (hi : i < e.unknowns) :
    0 ≤ e.diagonal i := by
  unfold diagonal
  rw [hB, Matrix.entry_gram hi hi]
  exact Vec.normSq_nonneg _

/-- A diagonal entry that is not positive is zero. -/
theorem eq_zero_of_flatDiagonal? (h : ∀ i < e.unknowns, 0 ≤ e.diagonal i) {b : ℝ}
    (hb : e.flatDiagonal? e.unknowns = some b) : b = 0 := by
  obtain ⟨i, hi, rfl⟩ := List.mem_map.1 (List.mem_of_find?_eq_some hb)
  have hflat : ¬0 < e.diagonal i := by simpa using List.find?_some hb
  exact le_antisymm (not_lt.1 hflat) (h i (List.mem_range.1 hi))

section Scaled

variable (hfits : e.Fits size) (hS : ∀ i < e.unknowns, 0 < S.entry i)

include hfits hS

/-- The diagonal entry that ends the work is the same. -/
theorem flatDiagonal?_rescale (hB : e.hessian = e.jacobian.gram) :
    (e.rescale S).flatDiagonal? e.unknowns = e.flatDiagonal? e.unknowns := by
  have hpos : ∀ i < e.unknowns, (0 < (e.rescale S).diagonal i ↔ 0 < e.diagonal i) := fun i hi => by
    rw [diagonal_rescale hfits hi, mul_assoc, mul_pos_iff_of_pos_right (mul_pos (hS i hi) (hS i hi))]
  have hnonneg : ∀ i < (e.rescale S).unknowns, 0 ≤ (e.rescale S).diagonal i := fun i hi => by
    rw [unknowns_rescale] at hi
    rw [diagonal_rescale hfits hi, mul_assoc]
    exact mul_nonneg (diagonal_nonneg hB hi) (mul_self_nonneg _)
  -- what is found in either units is zero, so it does not matter that it is measured differently
  cases hflat : e.flatDiagonal? e.unknowns with
  | none =>
      rw [flatDiagonal?_eq_none_iff] at hflat ⊢
      exact fun i hi => (hpos i hi).2 (hflat i hi)
  | some b =>
      cases hflat' : (e.rescale S).flatDiagonal? e.unknowns with
      | none =>
          rw [flatDiagonal?_eq_none_iff] at hflat'
          rw [flatDiagonal?_eq_none_iff.2 fun i hi => (hpos i hi).1 (hflat' i hi)] at hflat
          cases hflat
      | some b' =>
          have hb' := eq_zero_of_flatDiagonal? hnonneg (by rw [unknowns_rescale]; exact hflat')
          rw [hb', eq_zero_of_flatDiagonal? (fun i hi => diagonal_nonneg hB hi) hflat]

/-- The scaling takes the units back. -/
theorem entry_scaling_rescale {i : ℕ} (hi : i < e.unknowns) :
    (e.rescale S).scaling.entry i = e.scaling.entry i / S.entry i := by
  have hs := hS i hi
  rw [entry_scaling hi, entry_scaling (by rwa [unknowns_rescale]), diagonal_rescale hfits hi,
    Scalar.sqrt_eq, Scalar.sqrt_eq, mul_assoc, Real.sqrt_mul' _ (mul_self_nonneg _),
    Real.sqrt_mul_self hs.le, div_div]

/-- A vector of numbers that go with the unknowns, scaled. -/
theorem times_scaling_rescale {y : Vec ℝ} (hy : y.size = e.unknowns) :
    y.times (e.rescale S).scaling = (y.times e.scaling).per S := by
  refine Vec.ext_entry (by simp) fun i hi => ?_
  have hi' : i < y.size := by simpa using hi
  rw [Vec.entry_per S (by simpa using hi'), Vec.entry_times _ hi', Vec.entry_times _ hi',
    entry_scaling_rescale hfits hS (hy ▸ hi'), mul_div_assoc]

/-- The scaled gradient is the same. -/
theorem gradient_times_rescale :
    (e.rescale S).gradient.times (e.rescale S).scaling = e.gradient.times e.scaling := by
  have hg := hfits.2.1
  refine Vec.ext_entry (by simp [rescale]) fun i hi => ?_
  have hi' : i < e.gradient.size := by simpa [rescale] using hi
  have hne := (hS i (hg ▸ hi')).ne'
  rw [Vec.entry_times _ (by simpa [rescale] using hi'), Vec.entry_times _ hi',
    entry_scaling_rescale hfits hS (hg ▸ hi'), rescale, Vec.entry_times _ hi']
  field_simp

/-- The scaled Hessian is the same. -/
theorem scaleBoth_rescale :
    (e.rescale S).hessian.scaleBoth (e.rescale S).scaling = e.hessian.scaleBoth e.scaling := by
  have hshape := e.hessian.hasShape_scaleBoth S
  unfold Matrix.scaleBoth
  rw [show (e.rescale S).hessian.rows = e.hessian.rows from hshape.1,
    show (e.rescale S).hessian.cols = e.hessian.cols from hshape.2]
  refine Matrix.tabulate_congr fun i j hi hj => ?_
  have hi' : i < e.unknowns := hfits.1.1 ▸ hi
  have hj' : j < e.unknowns := hfits.1.2 ▸ hj
  have hne := (hS i hi').ne'
  have hne' := (hS j hj').ne'
  rw [entry_scaling_rescale hfits hS hi', entry_scaling_rescale hfits hS hj', rescale,
    Matrix.entry_scaleBoth _ hi hj]
  field_simp

/-- The scaled Jacobian is the same. -/
theorem scaleColumns_rescale :
    (e.rescale S).jacobian.scaleColumns (e.rescale S).scaling =
      e.jacobian.scaleColumns e.scaling := by
  have hshape := e.jacobian.hasShape_scaleColumns S
  unfold Matrix.scaleColumns
  rw [show (e.rescale S).jacobian.rows = e.jacobian.rows from hshape.1,
    show (e.rescale S).jacobian.cols = e.jacobian.cols from hshape.2]
  refine Matrix.tabulate_congr fun i j hi hj => ?_
  have hne := (hS j hj).ne'
  rw [entry_scaling_rescale hfits hS hj, rescale, Matrix.entry_scaleColumns _ hi hj]
  field_simp

end Scaled

end NormalEquations

/-! ## Each kind of solver -/

variable {e : NormalEquations ℝ} {S : Vec ℝ} {size : ℕ} {tolerance : ℝ}

section Answers

variable (hfits : e.Fits size) (hB : e.hessian = e.jacobian.gram)
  (hS : ∀ i < e.unknowns, 0 < S.entry i)

include hfits hB hS

/-- **Factorisation with row exchanges** factors the same matrix, and takes the units back last. -/
theorem LuSolver.answer_rescale :
    answer (e.rescale S) tolerance = (answer e tolerance).map (·.per S) := by
  have hfactors : factors (e.rescale S) = factors e :=
    congrArg PivotedLu.factor (NormalEquations.scaleBoth_rescale hfits hS)
  unfold answer
  simp only [NormalEquations.unknowns_rescale, NormalEquations.flatDiagonal?_rescale hfits hS hB,
    hfactors, NormalEquations.gradient_times_rescale hfits hS]
  cases e.flatDiagonal? e.unknowns with
  | some b => rfl
  | none =>
      dsimp only
      split
      · cases hy : (factors e).solve (e.gradient.times e.scaling).neg with
        | error y => rfl
        | ok y =>
            have hsize : y.size = e.unknowns := by simpa [hfits.2.1] using PivotedLu.size_solve hy
            simp only [Except.map, NormalEquations.times_scaling_rescale hfits hS hsize]
      · rfl

/-- **Orthogonal triangularisation** factors the same matrix, and takes the units back last. -/
theorem QrSolver.answer_rescale :
    answer (e.rescale S) tolerance = (answer e tolerance).map (·.per S) := by
  have hfactors : factors (e.rescale S) = factors e :=
    congrArg Householder.factor (NormalEquations.scaleColumns_rescale hfits hS)
  have hlead : lead (e.rescale S) = lead e := by
    unfold lead
    rw [hfactors, NormalEquations.unknowns_rescale]
    rfl
  unfold answer
  simp only [NormalEquations.unknowns_rescale, NormalEquations.rows_rescale,
    NormalEquations.flatDiagonal?_rescale hfits hS hB, hfactors, hlead]
  split
  · rfl
  cases e.flatDiagonal? e.unknowns with
  | some b => rfl
  | none =>
      dsimp only
      split
      · cases hy : Triangular.backward (factors e).triangle e.unknowns (lead e) with
        | error y => rfl
        | ok y =>
            have hsize : y.size = e.unknowns := by simpa using Triangular.size_backward hy
            simp only [Except.map, NormalEquations.times_scaling_rescale hfits hS hsize]
      · rfl

end Answers

/-- Do two errors differ in their numbers at most? -/
inductive SolveError.Alike : SolveError ℝ → SolveError ℝ → Prop
  /-- Two pivots that are too small. -/
  | singular (pivot pivot' : Extended ℝ) (threshold threshold' : ℝ) :
      Alike (.singular pivot threshold) (.singular pivot' threshold')
  | same (error : SolveError ℝ) : Alike error error

/-- Are two answers the same but for the units of the unknowns, and for the numbers in an error? -/
inductive Solver.Rescaled (S : Vec ℝ) :
    Except (SolveError ℝ) (Vec ℝ) → Except (SolveError ℝ) (Vec ℝ) → Prop
  | solved (p : Vec ℝ) : Rescaled S (.ok p) (.ok (p.per S))
  | failed {error error' : SolveError ℝ} (h : error.Alike error') :
      Rescaled S (.error error) (.error error')

namespace CholeskySolver

section Answer

variable (hfits : e.Fits size) (hS : ∀ i < e.unknowns, 0 < S.entry i)

include hfits

theorem symmetric_rescale : ∀ i < e.unknowns, ∀ j < e.unknowns,
    Cholesky.symmetric (e.rescale S).hessian i j =
      Cholesky.symmetric e.hessian i j * S.entry i * S.entry j := by
  obtain ⟨⟨hr, hc⟩, -⟩ := hfits
  intro i hi j hj
  unfold Cholesky.symmetric
  split
  · exact Matrix.entry_scaleBoth _ (hr.symm ▸ hi) (hc.symm ▸ hj)
  · refine (Matrix.entry_scaleBoth _ (hr.symm ▸ hj) (hc.symm ▸ hi)).trans ?_
    ring

include hS

/-- There is a factor in the one units exactly if there is one in the other. -/
theorem exists_factor_rescale :
    (∃ L, Cholesky.factor (e.rescale S).hessian = some L) ↔
      ∃ L, Cholesky.factor e.hessian = some L := by
  have hfits' := NormalEquations.fits_rescale hfits S
  have hne : ∀ i < e.unknowns, S.entry i ≠ 0 := fun i hi => (hS i hi).ne'
  have hshape' := hfits'.1
  rw [NormalEquations.unknowns_rescale] at hshape'
  constructor
  · rintro ⟨L, hL⟩
    refine Cholesky.exists_factor hfits.1 (Positive.unscale hne ?_)
    exact (Cholesky.factored_of_factor hshape' hL).positive_symmetric.congr (symmetric_rescale hfits)
  · rintro ⟨L, hL⟩
    refine Cholesky.exists_factor hshape' (Positive.congr (Positive.scale hne
      (Cholesky.factored_of_factor hfits.1 hL).positive_symmetric) fun i hi j hj => ?_)
    exact (symmetric_rescale hfits i hi j hj).symm

variable {L L' : Matrix ℝ} (hL : Cholesky.factor e.hessian = some L)
  (hL' : Cholesky.factor (e.rescale S).hessian = some L')

include hL hL'

/-- The pivots change as the diagonal does. -/
theorem sq_pivot_rescale {i : ℕ} (hi : i < e.unknowns) :
    L'.entry i i ^ 2 = L.entry i i ^ 2 * (S.entry i * S.entry i) := by
  have hshape' := (NormalEquations.fits_rescale hfits S).1
  rw [NormalEquations.unknowns_rescale] at hshape'
  have hf' := Cholesky.factored_of_factor hshape' hL'
  have hpivot := (Cholesky.factored_of_factor hfits.1 hL).sq_diagonal_eq_of_scaled
    (N := Cholesky.Factored.left L') (fun i hi => (hS i hi).ne')
    (fun _ _ _ _ hij => Cholesky.Factored.left_of_gt hij)
    (fun i hi => by
      rw [Cholesky.Factored.left_of_le le_rfl]
      exact (hf'.pos i hi).ne')
    (fun i hi j hj => by rw [← symmetric_rescale hfits i hi j hj, hf'.symmetric_eq i hi j hj]) hi
  rw [Cholesky.Factored.left_of_le le_rfl] at hpivot
  rw [← hpivot]
  ring

/-- A pivot is too small in the one units exactly if it is in the other. -/
theorem weakPivot?_rescale (tolerance : ℝ) :
    weakPivot? (e.rescale S) L' tolerance = none ↔ weakPivot? e L tolerance = none := by
  rw [weakPivot?_eq_none_iff, weakPivot?_eq_none_iff, NormalEquations.unknowns_rescale]
  -- pivot and threshold have changed by the same factor, which is positive
  refine forall₂_congr fun i hi => ?_
  rw [pivot, pivot, ← sq, ← sq, sq_pivot_rescale hfits hS hL hL' hi, NormalEquations.diagonal_rescale hfits hi, mul_assoc,
    ← mul_assoc, mul_lt_mul_iff_left₀ (mul_pos (hS i hi) (hS i hi))]

/-- The solutions are the same but for the units. -/
theorem factor_solve_rescale :
    Cholesky.solve L' (e.rescale S).gradient.neg = (Cholesky.solve L e.gradient.neg).per S := by
  have hg : e.gradient.size = e.unknowns := hfits.2.1
  have hfits' := NormalEquations.fits_rescale hfits S
  have hshape' := hfits'.1
  have hg' : (e.rescale S).gradient.size = e.unknowns := hfits'.2.1.trans (e.unknowns_rescale S)
  rw [NormalEquations.unknowns_rescale] at hshape'
  have hne : ∀ i < e.unknowns, S.entry i ≠ 0 := fun i hi => (hS i hi).ne'
  have hf := Cholesky.factored_of_factor hfits.1 hL
  have hf' := Cholesky.factored_of_factor hshape' hL'
  have hsolves := hf.solves_solve (Cholesky.hasShape_factor hfits.1 hL).2
    (b := e.gradient.neg) (by simpa using hg)
  have hsolves' := hf'.solves_solve (Cholesky.hasShape_factor hshape' hL').2
    (b := (e.rescale S).gradient.neg) (by simpa using hg')
  -- the solution of the rescaled system, scaled back, solves the original one
  have hback := Solves.unscale (b := e.gradient.neg.entry) hne
    (hsolves'.congr (fun i hi j hj => (symmetric_rescale hfits i hi j hj).symm) fun i hi => by
      have hi₁ : i < e.gradient.size := hg.symm ▸ hi
      have hi₂ : i < (e.rescale S).gradient.size := hg'.symm ▸ hi
      rw [Vec.entry_neg hi₁, Vec.entry_neg hi₂, neg_mul]
      exact congrArg _ (Vec.entry_times S hi₁).symm)
  refine Vec.ext_entry (by simp [hg, hg']) fun i hi => ?_
  have hi' : i < e.unknowns := by simpa [hg'] using hi
  rw [Vec.entry_per S (by simpa [hg] using hi'), eq_div_iff (hne i hi')]
  exact hf.nonsingular_symmetric.unique hback hsolves i hi'

end Answer

/-- **Cholesky factorisation** factors another matrix, and judges it alike. -/
theorem answer_rescale (hfits : e.Fits size) (hB : e.hessian = e.jacobian.gram)
    (hS : ∀ i < e.unknowns, 0 < S.entry i) :
    Solver.Rescaled S (answer e tolerance) (answer (e.rescale S) tolerance) := by
  unfold answer
  simp only [NormalEquations.unknowns_rescale, NormalEquations.flatDiagonal?_rescale hfits hS hB]
  cases e.flatDiagonal? e.unknowns with
  | some b => exact .failed (.same _)
  | none =>
      dsimp only
      cases hL : Cholesky.factor e.hessian with
      | none =>
          have hL' : Cholesky.factor (e.rescale S).hessian = none := by
            refine Option.eq_none_iff_forall_ne_some.2 fun L' hL' => ?_
            obtain ⟨L, hsome⟩ := (exists_factor_rescale hfits hS).1 ⟨L', hL'⟩
            rw [hL] at hsome
            cases hsome
          rw [hL']
          exact .failed (.same _)
      | some L =>
          obtain ⟨L', hL'⟩ := (exists_factor_rescale hfits hS).2 ⟨L, hL⟩
          have hweak := weakPivot?_rescale hfits hS hL hL' tolerance
          rw [hL']
          dsimp only
          cases hpivot : weakPivot? e L tolerance with
          | none =>
              rw [hweak.2 hpivot, factor_solve_rescale hfits hS hL hL']
              exact .solved _
          | some q =>
              cases hpivot' : weakPivot? (e.rescale S) L' tolerance with
              | none =>
                  rw [hweak.1 hpivot'] at hpivot
                  cases hpivot
              | some q' => exact .failed (.singular _ _ _ _)

end CholeskySolver

/-! ## All kinds -/

namespace Solver

/-- Without Cholesky factorisation the answers are the same but for the units. -/
theorem answer_rescale_eq {kind : SolverKind} (hkind : kind ≠ .cholesky) (hfits : e.Fits size)
    (hB : e.hessian = e.jacobian.gram) (hS : ∀ i < e.unknowns, 0 < S.entry i) :
    answer kind (e.rescale S) tolerance = (answer kind e tolerance).map (·.per S) := by
  cases kind with
  | cholesky => exact absurd rfl hkind
  | lu => exact LuSolver.answer_rescale hfits hB hS
  | qr => exact QrSolver.answer_rescale hfits hB hS

theorem answer_rescale (kind : SolverKind) (hfits : e.Fits size)
    (hB : e.hessian = e.jacobian.gram) (hS : ∀ i < e.unknowns, 0 < S.entry i) :
    Rescaled S (answer kind e tolerance) (answer kind (e.rescale S) tolerance) := by
  by_cases hkind : kind = .cholesky
  · subst hkind
    exact CholeskySolver.answer_rescale hfits hB hS
  · rw [answer_rescale_eq hkind hfits hB hS]
    cases answer kind e tolerance with
    | error error => exact .failed (.same error)
    | ok p => exact .solved p

/-- **A solve does not depend on the units of the unknowns.**  Let the Hessian be `JᵀJ`, and let two
solvers of one kind, whatever their buffers hold, be given the subproblem and the same subproblem with
its columns scaled by positive numbers.  Both answer, and the second one succeeds exactly if the first
one does; then its step is the first one, divided by these numbers.  If they fail, they do so with the
same kind of error, and without Cholesky factorisation with the same pivot and threshold. -/
theorem solve_rescale (hfits : e.Fits e.unknowns) (hB : e.hessian = e.jacobian.gram)
    (hS : ∀ i < e.unknowns, 0 < S.entry i) (s s' : Solver ℝ) (hkind : s'.kind = s.kind)
    {step step' : Vec ℝ} (hs : step.size = e.unknowns) (hs' : step'.size = e.unknowns) :
    ∃ a a', s.solve e tolerance step = some a ∧
      s'.solve (e.rescale S) tolerance step' = some a' ∧
      (a'.verdict = .ok () ↔ a.verdict = .ok ()) ∧
      (a.verdict = .ok () → a'.step.size = e.unknowns ∧
        ∀ i < e.unknowns, a'.step.entry i = a.step.entry i / S.entry i) ∧
      (∀ error, a.verdict = .error error →
        ∃ error', a'.verdict = .error error' ∧ error.Alike error') ∧
      (s.kind ≠ .cholesky → a'.verdict = a.verdict) := by
  rw [← hs] at hfits
  have hfits' := NormalEquations.fits_rescale hfits S
  rw [hs, ← hs'] at hfits'
  obtain ⟨a, ha, hanswer, -, hsize, -⟩ := s.solve_answer tolerance hfits
  obtain ⟨a', ha', hanswer', -, hsize', -⟩ := s'.solve_answer tolerance hfits'
  have hrescaled : Rescaled S (answer s.kind e tolerance) (answer s.kind (e.rescale S) tolerance) :=
    answer_rescale s.kind hfits hB hS
  have hsame : s.kind ≠ .cholesky → a'.verdict = a.verdict := fun hne => by
    rw [Attempt.verdict_eq, Attempt.verdict_eq, hanswer, hanswer', hkind,
      answer_rescale_eq hne hfits hB hS]
    cases answer s.kind e tolerance <;> rfl
  rw [hkind] at hanswer'
  -- what relates the answers relates the attempts, whatever buffers they leave behind
  rw [← hanswer, ← hanswer'] at hrescaled
  refine ⟨a, a', ha, ha', ?_⟩
  generalize hp : a.answer = p at hrescaled
  generalize hp' : a'.answer = p' at hrescaled
  cases hrescaled with
  | solved p =>
      obtain ⟨hv, rfl⟩ := Attempt.answer_eq_ok_iff.1 hp
      obtain ⟨hv', hstep⟩ := Attempt.answer_eq_ok_iff.1 hp'
      refine ⟨by rw [hv, hv'], fun _ => ⟨?_, fun i hi => ?_⟩, fun error herror => ?_, hsame⟩
      · rw [hsize', NormalEquations.unknowns_rescale]
      · rw [hstep, Vec.entry_per S (hsize.symm ▸ hi)]
      · rw [hv] at herror
        cases herror
  | failed h =>
      have hv := Attempt.answer_eq_error_iff.1 hp
      have hv' := Attempt.answer_eq_error_iff.1 hp'
      refine ⟨by simp [hv, hv'], fun hok => ?_, fun error herror => ⟨_, hv', ?_⟩, hsame⟩
      · rw [hv] at hok
        cases hok
      · rw [hv] at herror
        cases herror
        exact h

/-- Three residuals, and units that differ by several orders of magnitude; the second solver has
buffers of other sizes. -/
theorem solve_rescale_of_residuals :
    let J : Matrix ℝ := .tabulate 3 2 fun i j => if i = j then 3 else if j = 0 then 0 else 1000
    let e := (Linearization.ofResiduals J (Vec.tabulate 3 fun i => 1 - i)).system
    let S : Vec ℝ := .tabulate 2 fun i => if i = 0 then 1000 else 1 / 7
    e.Fits e.unknowns ∧ e.hessian = e.jacobian.gram ∧ (∀ i < e.unknowns, 0 < S.entry i) ∧
    ∀ kind, ∃ a a', (ofKind kind 2 3).solve e 0 (Vec.zeros 2) = some a ∧
      (ofKind kind 7 1).solve (e.rescale S) 0 (Vec.zeros 2) = some a' ∧
      a.verdict = .ok () ∧ a'.verdict = .ok () ∧
      ∀ i < 2, a'.step.entry i = a.step.entry i / S.entry i := by
  intro J e S
  have hJ : J.HasShape 3 2 := Matrix.hasShape_tabulate 3 2 _
  have hn : e.unknowns = 2 := hJ.2
  have hl : (Linearization.ofResiduals J (Vec.tabulate 3 fun i => 1 - i)).check 2 3 = .ok () := by
    have hcheck := Linearization.check_ofResiduals (J := J) (Vec.size_tabulate 3 fun i => 1 - (i : ℝ))
    rwa [hJ.1, hJ.2] at hcheck
  have hfits : e.Fits e.unknowns := GaussNewton.fits_system (Model.sized_holding hl) hn
  have hS : ∀ i < e.unknowns, 0 < S.entry i := fun i hi => by
    rw [Vec.entry_tabulate _ (hn ▸ hi)]
    split <;> norm_num
  have hs : (Vec.zeros 2 : Vec ℝ).size = e.unknowns := (Vec.size_zeros 2).trans hn.symm
  have hns : Nonsingular 2 J.gram.entry := by
    refine Matrix.nonsingular_gram_of_upper hJ (by norm_num) (fun i hi j hj hji => ?_) fun i hi => ?_
    · rw [Matrix.entry_tabulate _ (by omega) hj, if_neg (by omega), if_pos (by omega)]
    · rw [Matrix.entry_tabulate _ (by omega) hi, if_pos rfl]
      norm_num
  refine ⟨hfits, rfl, hS, fun kind => ?_⟩
  obtain ⟨b, hb, hv⟩ := DoglegPath.exists_ok_solve hl hns (ofKind kind 2 3) (Vec.size_zeros 2)
  obtain ⟨a, a', ha, ha', hok, hstep, -⟩ := solve_rescale hfits rfl hS (ofKind kind 2 3)
    (ofKind kind 7 1) (by rw [kind_ofKind, kind_ofKind]) hs hs
  obtain rfl : b = a := Option.some.inj (hb.symm.trans ha)
  exact ⟨b, a', ha, ha', hv, hok.2 hv, fun i hi => (hstep hv).2 i (hn.symm ▸ hi)⟩

end Solver

end TrustRegion
