import TrustRegion.Proofs.Solver.Failure

/-!
# Which pivots are accepted

A solve succeeds or fails by its pivots.  By Cholesky factorisation every pivot has to exceed its
threshold.  The other two kinds of solver look at the least pivot alone, and a pivot that is no number has
been passed over by then: they succeed exactly if the pivots that are numbers exceed the threshold, which
for a finite threshold is so if there are none (**`Solver.ok_iff_pivotsPass`**).

A Jacobian with entries so large that their squares are infinite leads to such pivots in binary
floating-point numbers, and to a step that is no number; see `Solver.accepts_pivots_that_are_no_numbers`.
-/

namespace TrustRegion

open Scalar (LawfulOrder isNaN)

variable {α : Type} [Scalar α] {e : NormalEquations α} {tolerance : α} {step : Vec α} {size : Nat}

namespace Matrix

/-- Do the first `n` pivots that are numbers exceed the bound?  If there are none, the bound has to be
finite. -/
def PivotsExceed (A : Matrix α) (n : Nat) (bound : α) : Prop :=
  (∀ i < n, isNaN (Scalar.abs (A.entry i i)) = true ∨ bound < Scalar.abs (A.entry i i)) ∧
    (Scalar.isFinite bound = true ∨ ∃ i < n, bound < Scalar.abs (A.entry i i))

instance decidablePivotsExceed (A : Matrix α) (n : Nat) (bound : α) :
    Decidable (A.PivotsExceed n bound) := inferInstanceAs (Decidable (_ ∧ _))

theorem exceeds_iff_pivotsExceed [LawfulOrder α] {A : Matrix α} {n : Nat} {bound : α}
    (hb : ¬bound < 0) : (A.leastPivot n).exceeds bound = true ↔ A.PivotsExceed n bound := by
  rw [exceeds_leastPivot_iff]
  simp [Extended.exceeds, hb, PivotsExceed]

end Matrix

/-- Do the pivots of a solver of this kind pass its test? -/
def Solver.PivotsPass (kind : SolverKind) (e : NormalEquations α) (tolerance : α) : Prop :=
  match kind with
  | .cholesky => ∃ L ∈ Cholesky.factor e.hessian,
      ∀ i < e.unknowns, tolerance * e.diagonal i < L.entry i i * L.entry i i
  | .lu => (LuSolver.factors e).upper.PivotsExceed e.unknowns tolerance
  | .qr => e.unknowns ≤ e.jacobian.rows ∧
      (QrSolver.factors e).triangle.PivotsExceed e.unknowns (Scalar.sqrt tolerance)

instance Solver.decidablePivotsPass (kind : SolverKind) (e : NormalEquations α) (tolerance : α) :
    Decidable (PivotsPass kind e tolerance) :=
  match kind with
  | .cholesky => inferInstanceAs (Decidable (∃ L ∈ Cholesky.factor e.hessian, _))
  | .lu => inferInstanceAs (Decidable (Matrix.PivotsExceed _ _ _))
  | .qr => inferInstanceAs (Decidable (_ ∧ _))

namespace Solver

theorem admits_iff_pivotsPass [LawfulOrder α] {kind : SolverKind}
    (ht : kind = .lu → ¬tolerance < 0) :
    Admits kind e tolerance ↔
      (∀ i < e.unknowns, 0 < e.diagonal i) ∧ PivotsPass kind e tolerance := by
  rw [← NormalEquations.flatDiagonal?_eq_none_iff]
  cases kind with
  | cholesky =>
      simp only [Admits, CholeskySolver.Admits, PivotsPass, CholeskySolver.weakPivot?_eq_none_iff,
        CholeskySolver.pivot, Option.mem_def]
  | lu => simp only [Admits, LuSolver.Admits, PivotsPass, Matrix.exceeds_iff_pivotsExceed (ht rfl)]
  | qr =>
      simp only [Admits, QrSolver.Admits, PivotsPass,
        Matrix.exceeds_iff_pivotsExceed (LawfulOrder.not_sqrt_neg tolerance)]
      exact and_left_comm

/-- **Which solves succeed.**  Let the comparisons of the arithmetic be lawful, and let the tolerance not be
negative if the solver factors with row exchanges.  A solve of a subproblem whose parts fit succeeds exactly
if the diagonal of the Hessian is positive and the pivots pass the test of the solver: by Cholesky
factorisation all of them, and else those that are numbers. -/
theorem ok_iff_pivotsPass [LawfulOrder α] (s : Solver α) (hfits : e.Fits step.size)
    (ht : s.kind = .lu → ¬tolerance < 0) :
    ∃ a, s.solve e tolerance step = some a ∧
      (a.verdict = .ok () ↔
        (∀ i < e.unknowns, 0 < e.diagonal i) ∧ PivotsPass s.kind e tolerance) := by
  obtain ⟨a, ha, hanswer, -⟩ := s.solve_answer tolerance hfits
  refine ⟨a, ha, ?_⟩
  rw [← admits_iff_pivotsPass ht, ← answer_ok_iff_admits hfits ht, ← hanswer]
  exact Attempt.verdict_eq_ok_iff

/-- Three residuals of two unknowns, of which the second is a thousand times as large. -/
theorem ok_iff_pivotsPass_of_columns :
    let J : Matrix Float := .tabulate 3 2 fun i j => Float.ofNat (if i = j then 1000 * j + 1 else i)
    let e := (Linearization.ofResiduals J (Vec.tabulate 3 Float.ofNat)).system
    ∀ kind, ∃ a, (ofKind kind 2 3).solve e (Scalar.tenth 12) (Vec.zeros 2) = some a ∧
      a.verdict = .ok () := by
  intro J e kind
  have hfits : e.Fits (Vec.zeros 2 : Vec Float).size := by decide +kernel
  have ht : ¬(Scalar.tenth 12 : Float) < 0 := by decide +kernel
  obtain ⟨a, ha, hok⟩ := ok_iff_pivotsPass (ofKind kind 2 3) hfits fun _ => ht
  rw [kind_ofKind] at hok
  refine ⟨a, ha, hok.2 ⟨by decide +kernel, ?_⟩⟩
  cases kind <;> decide +kernel

/-- **Pivots that are no numbers are accepted.**  The square of `10²⁰⁰` is infinite, and so is that of an
infinite entry.  The scaling is then zero, the only pivot of the scaled matrix is no number, and two kinds of
solver report a step that is no number as a success.  Cholesky factorisation meets the same infinite
diagonal and gives up. -/
theorem accepts_pivots_that_are_no_numbers :
    let e (x : Float) :=
      (Linearization.ofResiduals (Matrix.tabulate 1 1 fun _ _ => x) (Vec.tabulate 1 fun _ => 1)).system
    let found (kind : SolverKind) (x : Float) :=
      ((ofKind kind 1 1).solve (e x) (Scalar.tenth 12) (Vec.zeros 1)).map fun a =>
        (a.verdict.toOption, a.step.toList)
    (e 1e200).Fits 1 ∧ (0 : Float) ≤ Scalar.tenth 12 ∧
      found .lu 1e200 = some (some (), [0 / 0]) ∧
      isNaN ((LuSolver.factors (e 1e200)).upper.entry 0 0) = true ∧
      ¬Scalar.tenth 12 < Scalar.abs ((LuSolver.factors (e 1e200)).upper.entry 0 0) ∧
      found .qr (1 / 0) = some (some (), [0 / 0]) ∧
      isNaN ((QrSolver.factors (e (1 / 0))).triangle.entry 0 0) = true ∧
      ¬Scalar.sqrt (Scalar.tenth 12) < Scalar.abs ((QrSolver.factors (e (1 / 0))).triangle.entry 0 0) ∧
      found .cholesky (1 / 0) = some (none, [0]) := by
  decide +kernel

end Solver

end TrustRegion
