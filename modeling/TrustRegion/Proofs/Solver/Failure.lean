import TrustRegion.Proofs.Model.Staged
import TrustRegion.Proofs.Scalar.Binary64
import TrustRegion.Proofs.Solver.Answer

/-!
# Solves that fail

Two of the linear solvers write over the vector they are given before the last operation that may fail, a
substitution that stops at a zero on the diagonal.  The tests made before anything is written are
`CholeskySolver.Admits`, `LuSolver.Admits` and `QrSolver.Admits`; where they are passed no pivot is zero, so
the substitution ends.  So nothing has been written where a solve fails, and a solve fails only at one of
the tests.

The main result, **`Solver.failure`**, says this of all kinds, and of the numbers in an error: a pivot
that is reported as too small does not exceed the threshold it is reported with.  All that is used of the
arithmetic is that its comparisons are lawful.
-/

namespace TrustRegion

open Scalar (LawfulOrder)

variable {α : Type} [Scalar α] {e : NormalEquations α} {tolerance : α} {step : Vec α} {size : Nat}

/-- What ends the work at the diagonal of the Hessian is not positive. -/
theorem NormalEquations.not_pos_of_flatDiagonal? {n : Nat} {b : α} (h : e.flatDiagonal? n = some b) :
    ¬0 < b := by
  simpa using List.find?_some h

/-! ## Cholesky factorisation -/

namespace CholeskySolver

theorem answer_ok_iff_admits : (∃ p, answer e tolerance = .ok p) ↔ Admits e tolerance := by
  unfold answer Admits
  cases e.flatDiagonal? e.unknowns with
  | some b => simp
  | none =>
      cases Cholesky.factor e.hessian with
      | none => simp
      | some L => cases hweak : weakPivot? e L tolerance <;> simp [hweak]

/-- A weak pivot does not exceed its threshold. -/
theorem not_lt_of_weakPivot? {L : Matrix α} {p : α × α} (h : weakPivot? e L tolerance = some p) :
    ¬p.2 < p.1 := by
  simpa using List.find?_some h

theorem not_exceeds_of_answer {pivot : Extended α} {threshold : α}
    (h : answer e tolerance = .error (.singular pivot threshold)) :
    pivot.exceeds threshold = false := by
  unfold answer at h
  split at h
  · rename_i b hflat
    cases h
    exact decide_eq_false (NormalEquations.not_pos_of_flatDiagonal? hflat)
  split at h
  · cases h
  split at h
  · rename_i hweak
    cases h
    exact decide_eq_false (not_lt_of_weakPivot? hweak)
  · cases h

end CholeskySolver

/-! ## Triangular factorisation with row exchanges -/

namespace LuSolver

/-- After the tests the substitution ends, whatever the right-hand side. -/
theorem exists_solve_of_admits [LawfulOrder α] (hfits : e.Fits size) (ht : ¬tolerance < 0)
    (h : Admits e tolerance) (b : Vec α) : ∃ y, (factors e).solve b = .ok y := by
  have hcols := (hasShape_factors hfits).2
  unfold PivotedLu.solve
  refine Triangular.exists_backward_of_isZero (fun i hi => ?_) _
  -- the diagonal that has been tested is the one of the substitution
  rw [← PivotedLu.entry_upper hi]
  exact Matrix.isZero_eq_false_of_exceeds h.2 ht i (hcols ▸ hi)

theorem answer_ok_iff_admits [LawfulOrder α] (hfits : e.Fits size) (ht : ¬tolerance < 0) :
    (∃ p, answer e tolerance = .ok p) ↔ Admits e tolerance := by
  have hends := exists_solve_of_admits hfits ht
  unfold answer
  unfold Admits at *
  cases hflat : e.flatDiagonal? e.unknowns with
  | some b => simp
  | none =>
      dsimp only
      split
      · rename_i hpivot
        obtain ⟨y, hy⟩ := hends ⟨hflat, hpivot⟩ (e.gradient.times e.scaling).neg
        simp [hy, hpivot]
      · rename_i hpivot
        simp [hpivot]

theorem not_exceeds_of_answer [LawfulOrder α] (hfits : e.Fits size) (ht : ¬tolerance < 0)
    {pivot : Extended α} {threshold : α}
    (h : answer e tolerance = .error (.singular pivot threshold)) :
    pivot.exceeds threshold = false := by
  have hends := exists_solve_of_admits hfits ht
  unfold answer at h
  split at h
  · rename_i b hflat
    cases h
    exact decide_eq_false (NormalEquations.not_pos_of_flatDiagonal? hflat)
  rename_i hflat
  dsimp only at h
  split at h
  · rename_i hpivot
    obtain ⟨y, hy⟩ := hends ⟨hflat, hpivot⟩ (e.gradient.times e.scaling).neg
    rw [hy] at h
    cases h
  · rename_i hpivot
    cases h
    exact Bool.eq_false_iff.2 hpivot

end LuSolver

/-! ## Orthogonal triangularisation -/

namespace QrSolver

/-- If the least pivot exceeds a root, the substitution ends. -/
theorem exists_backward [LawfulOrder α] {U : Matrix α} {n : Nat}
    (h : (U.leastPivot n).exceeds (Scalar.sqrt tolerance) = true) (b : Vec α) :
    ∃ y, Triangular.backward U n b = .ok y :=
  Triangular.exists_backward_of_isZero
    (Matrix.isZero_eq_false_of_exceeds h (LawfulOrder.not_sqrt_neg tolerance)) b

theorem answer_ok_iff_admits [LawfulOrder α] :
    (∃ p, answer e tolerance = .ok p) ↔ Admits e tolerance := by
  unfold answer Admits
  by_cases hm : e.jacobian.rows < e.unknowns
  · simp [hm, Nat.not_le.2 hm]
  simp only [if_neg hm, Nat.not_lt.1 hm, true_and]
  cases hflat : e.flatDiagonal? e.unknowns with
  | some b => simp
  | none =>
      dsimp only
      split
      · rename_i hpivot
        obtain ⟨y, hy⟩ := exists_backward hpivot (lead e)
        simp [hy, hpivot]
      · rename_i hpivot
        simp [hpivot]

theorem not_exceeds_of_answer [LawfulOrder α] {pivot : Extended α} {threshold : α}
    (h : answer e tolerance = .error (.singular pivot threshold)) :
    pivot.exceeds threshold = false := by
  unfold answer at h
  dsimp only at h
  split at h
  · cases h
    exact decide_eq_false (LawfulOrder.not_sqrt_neg tolerance)
  split at h
  · rename_i b hflat
    cases h
    exact decide_eq_false (NormalEquations.not_pos_of_flatDiagonal? hflat)
  split at h
  · rename_i hpivot
    obtain ⟨y, hy⟩ := exists_backward hpivot (lead e)
    rw [hy] at h
    cases h
  · rename_i hpivot
    cases h
    exact Bool.eq_false_iff.2 hpivot

end QrSolver

/-! ## All kinds -/

namespace Solver

/-- Does the substitution that follows the tests end, whatever the right-hand side?  By Cholesky
factorisation there is none that could stop. -/
def SubstitutionEnds (kind : SolverKind) (e : NormalEquations α) : Prop :=
  match kind with
  | .cholesky => True
  | .lu => ∀ b, ∃ y, (LuSolver.factors e).solve b = .ok y
  | .qr => ∀ b, ∃ y, Triangular.backward (QrSolver.factors e).triangle e.unknowns b = .ok y

variable [LawfulOrder α]

theorem answer_ok_iff_admits {kind : SolverKind} (hfits : e.Fits size)
    (ht : kind = .lu → ¬tolerance < 0) :
    (∃ p, answer kind e tolerance = .ok p) ↔ Admits kind e tolerance := by
  cases kind with
  | cholesky => exact CholeskySolver.answer_ok_iff_admits
  | lu => exact LuSolver.answer_ok_iff_admits hfits (ht rfl)
  | qr => exact QrSolver.answer_ok_iff_admits

theorem not_exceeds_of_answer {kind : SolverKind} (hfits : e.Fits size)
    (ht : kind = .lu → ¬tolerance < 0) {pivot : Extended α} {threshold : α}
    (h : answer kind e tolerance = .error (.singular pivot threshold)) :
    pivot.exceeds threshold = false := by
  cases kind with
  | cholesky => exact CholeskySolver.not_exceeds_of_answer h
  | lu => exact LuSolver.not_exceeds_of_answer hfits (ht rfl) h
  | qr => exact QrSolver.not_exceeds_of_answer h

theorem substitutionEnds_of_admits {kind : SolverKind} (hfits : e.Fits size)
    (ht : kind = .lu → ¬tolerance < 0) (h : Admits kind e tolerance) : SubstitutionEnds kind e := by
  cases kind with
  | cholesky => trivial
  | lu => exact LuSolver.exists_solve_of_admits hfits (ht rfl) h
  | qr => exact QrSolver.exists_backward h.2.2

/-- **A failed solve changes nothing and tells the truth.**  Let the comparisons of the arithmetic be lawful,
and let the tolerance not be negative if the solver factors with row exchanges.  Whatever the shapes and the
entries of the parts and whatever the solver did before, a solve answers.

If it fails, the vector it was given is as it was.  It succeeds exactly if the parts fit and pass the tests
that are made before anything is written, for then the substitution ends.  A pivot that is reported does
not exceed the threshold it is reported with. -/
theorem failure (s : Solver α) (e : NormalEquations α) (tolerance : α) (step : Vec α)
    (ht : s.kind = .lu → ¬tolerance < 0) :
    ∃ a, s.solve e tolerance step = some a ∧
      (∀ error, a.verdict = .error error → a.step = step) ∧
      (a.verdict = .ok () ↔ e.Fits step.size ∧ Admits s.kind e tolerance) ∧
      (e.Fits step.size → Admits s.kind e tolerance → SubstitutionEnds s.kind e) ∧
      ∀ pivot threshold, a.verdict = .error (.singular pivot threshold) →
        pivot.exceeds threshold = false := by
  by_cases hfits : e.Fits step.size
  · obtain ⟨a, ha, hanswer, -, -, -, hunwritten⟩ := s.solve_answer tolerance hfits
    have hok : a.verdict = .ok () ↔ Admits s.kind e tolerance := by
      rw [← answer_ok_iff_admits hfits ht, ← hanswer]
      exact Attempt.verdict_eq_ok_iff
    refine ⟨a, ha, fun error herror => hunwritten fun hadmits => ?_, by rwa [and_iff_right hfits],
      fun _ => substitutionEnds_of_admits hfits ht, fun pivot threshold hv => ?_⟩
    · rw [hok.2 hadmits] at herror
      cases herror
    · exact not_exceeds_of_answer hfits ht (hanswer.symm.trans (Attempt.answer_eq_error_iff.2 hv))
  · exact ⟨_, s.solve_of_not_fits tolerance hfits, fun _ _ => rfl, by simp [hfits],
      fun h => absurd h hfits, fun _ _ h => by cases h⟩

/-- Two equal columns, a residual and an entry of the vector that are no numbers, and buffers of another
size. -/
theorem failure_of_equal_columns :
    let J : Matrix Float := .tabulate 3 2 fun i _ => Float.ofNat i + 1
    let e := (Linearization.ofResiduals J (Vec.tabulate 3 fun i => Float.ofNat i / 0)).system
    let step : Vec Float := Vec.tabulate 2 fun i => Float.ofNat i / 0
    ∀ kind, ∃ a error, (ofKind kind 7 1).solve e (Scalar.tenth 12) step = some a ∧
      a.verdict = .error error ∧ a.step = step ∧
      ∀ pivot threshold, error = .singular pivot threshold → pivot.exceeds threshold = false := by
  intro J e step kind
  have ht : ¬(Scalar.tenth 12 : Float) < 0 := by decide +kernel
  have hfails : (((ofKind kind 7 1).solve e (Scalar.tenth 12) step).any fun a => a.verdict.isOk) =
      false := by
    cases kind <;> decide +kernel
  obtain ⟨a, ha, hstep, -, -, htrue⟩ :=
    failure (ofKind kind 7 1) e (Scalar.tenth 12) step fun _ => ht
  rw [ha] at hfails
  cases hv : a.verdict with
  | ok u => simp [hv, Except.isOk, Except.toBool] at hfails
  | error error =>
      refine ⟨a, error, ha, hv, hstep error hv, ?_⟩
      rintro pivot threshold rfl
      exact htrue pivot threshold hv

end Solver

end TrustRegion
