import Mathlib
import TrustRegion.Proofs.Exact.Vec
import TrustRegion.Proofs.Solver.Answer

/-!
# Multiples of a subproblem

Residuals and gradient are the right-hand sides of a Gauss-Newton subproblem.  In exact arithmetic what
is done to a right-hand side is linear: every substitution, every rearrangement and every reflection
takes a multiple of a vector to the same multiple of its image.  The matrices, and with them all tests
for singularity, are not touched, so a multiple of a subproblem has the same multiple of the step as its
solution, or fails with the same error (**`Solver.answer_multiple`**).
-/

namespace TrustRegion

/-! ## Vectors -/

namespace Vec

/-- A table of multiples is a multiple of the table. -/
theorem tabulate_mul (n : ℕ) (f : ℕ → ℝ) (c : ℝ) :
    tabulate n (fun i => f i * c) = (tabulate n f).scale c := by
  refine ext_entry (by simp) fun i hi => ?_
  have hi' : i < n := by simpa using hi
  rw [entry_tabulate _ hi', entry_scale_eq, entry_tabulate _ hi']

theorem neg_scale (x : Vec ℝ) (c : ℝ) : (x.scale c).neg = x.neg.scale c := by
  rw [neg, size_scale, neg, ← tabulate_mul]
  exact tabulate_congr fun i _ => by rw [entry_scale_eq, neg_mul]

theorem times_scale (x y : Vec ℝ) (c : ℝ) : (x.scale c).times y = (x.times y).scale c := by
  rw [times, size_scale, times, ← tabulate_mul]
  exact tabulate_congr fun i _ => by rw [entry_scale_eq]; ring

/-- A sum that is linear in the entries of a vector. -/
theorem sum_entry_scale (x : Vec ℝ) (c : ℝ) (n : ℕ) (f : ℕ → ℝ) (place : ℕ → ℕ) :
    Scalar.sum n (fun t => f t * (x.scale c).entry (place t)) =
      Scalar.sum n (fun t => f t * x.entry (place t)) * c := by
  rw [Scalar.sum_eq, Scalar.sum_eq, Finset.sum_mul]
  exact Finset.sum_congr rfl fun t _ => by rw [entry_scale_eq, mul_assoc]

end Vec

/-! ## Substitution -/

namespace Triangular

variable (L U : Matrix ℝ) (diagonal : ℕ → ℝ) (c : ℝ)

theorem forwardStep_scale (b : Vec ℝ) (k : ℕ) :
    forwardStep L diagonal (b.scale c) k = (forwardStep L diagonal b k).scale c := by
  rw [forwardStep, forwardStep, Vec.size_scale, ← Vec.tabulate_mul]
  refine Vec.tabulate_congr fun i _ => ?_
  rw [Vec.entry_scale_eq, Vec.entry_scale_eq]
  split
  · rfl
  · split <;> ring

theorem forward_scale (k : ℕ) (b : Vec ℝ) :
    forward L diagonal k (b.scale c) = (forward L diagonal k b).scale c := by
  induction k with
  | zero => rfl
  | succ k ih => rw [forward, forward, ih, forwardStep_scale]

theorem backwardStep_scale (b : Vec ℝ) (k : ℕ) :
    backwardStep U (b.scale c) k = (backwardStep U b k).scale c := by
  rw [backwardStep, backwardStep, Vec.size_scale, ← Vec.tabulate_mul]
  refine Vec.tabulate_congr fun i _ => ?_
  rw [Vec.entry_scale_eq, Vec.entry_scale_eq]
  split
  · ring
  · split
    · ring
    · rfl

/-- The work ends at the same zero on the diagonal, if there is one. -/
theorem backward_scale (k : ℕ) (b : Vec ℝ) :
    backward U k (b.scale c) = ((backward U k b).mapError (·.scale c)).map (·.scale c) := by
  induction k generalizing b with
  | zero => rfl
  | succ k ih =>
      rw [backward, backward, backwardStep_scale, ih]
      split <;> rfl

theorem adjointStep_scale (b : Vec ℝ) (k : ℕ) :
    adjointStep L (b.scale c) k = (adjointStep L b k).scale c := by
  rw [adjointStep, adjointStep, Vec.size_scale,
    Vec.sum_entry_scale b c _ (fun t => L.entry (k + 1 + t) k) (k + 1 + ·), ← Vec.tabulate_mul]
  refine Vec.tabulate_congr fun i _ => ?_
  rw [Vec.entry_scale_eq, Vec.entry_scale_eq]
  split
  · ring
  · rfl

theorem adjoint_scale (k : ℕ) (b : Vec ℝ) :
    adjoint L k (b.scale c) = (adjoint L k b).scale c := by
  induction k generalizing b with
  | zero => rfl
  | succ k ih => rw [adjoint, adjoint, adjointStep_scale, ih]

end Triangular

/-! ## Factorisations -/

theorem Cholesky.solve_scale (L : Matrix ℝ) (b : Vec ℝ) (c : ℝ) :
    solve L (b.scale c) = (solve L b).scale c := by
  rw [solve, solve, Triangular.forward_scale, Triangular.adjoint_scale]

namespace PivotedLu

variable (f : PivotedLu ℝ) (b : Vec ℝ) (c : ℝ)

theorem permute_scale : f.permute (b.scale c) = (f.permute b).scale c := by
  rw [permute, permute]
  induction f.swaps generalizing b with
  | nil => rfl
  | cons s ss ih =>
      rw [List.foldl_cons, List.foldl_cons, ← ih, ← Vec.tabulate_mul, Vec.size_scale]
      simp only [Vec.entry_scale_eq]

theorem solve_scale :
    f.solve (b.scale c) = ((f.solve b).mapError (·.scale c)).map (·.scale c) := by
  rw [solve, solve, permute_scale, Triangular.forward_scale, Triangular.backward_scale]

end PivotedLu

theorem Reflection.apply_scale (h : Reflection ℝ) (x : Vec ℝ) (c : ℝ) :
    h.apply (x.scale c) = (h.apply x).scale c := by
  rw [apply, apply, Vec.size_scale, Vec.sum_entry_scale x c _ h.axis.entry (h.start + ·),
    ← Vec.tabulate_mul]
  refine Vec.tabulate_congr fun i _ => ?_
  rw [Vec.entry_scale_eq]
  split
  · rfl
  · ring

theorem Householder.turn_scale (f : Householder ℝ) (b : Vec ℝ) (c : ℝ) :
    f.turn (b.scale c) = (f.turn b).scale c := by
  rw [turn, turn]
  induction f.reflections generalizing b with
  | nil => rfl
  | cons h hs ih => rw [List.foldl_cons, List.foldl_cons, Reflection.apply_scale, ih]

/-! ## Each kind of solver -/

/-- The subproblem with residuals and gradient multiplied by `c`. -/
noncomputable def NormalEquations.multiple (e : NormalEquations ℝ) (c : ℝ) : NormalEquations ℝ :=
  { e with residuals := e.residuals.scale c, gradient := e.gradient.scale c }

section Answers

variable (e : NormalEquations ℝ) (c tolerance : ℝ)

theorem CholeskySolver.answer_multiple :
    answer (e.multiple c) tolerance = (answer e tolerance).map (·.scale c) := by
  have hpivots : ∀ L, weakPivot? (e.multiple c) L tolerance = weakPivot? e L tolerance := fun _ => rfl
  have hrhs : (e.multiple c).gradient.neg = e.gradient.neg.scale c := Vec.neg_scale _ _
  unfold answer
  rw [show (e.multiple c).flatDiagonal? (e.multiple c).unknowns = e.flatDiagonal? e.unknowns from rfl,
    show (e.multiple c).hessian = e.hessian from rfl, hrhs]
  simp only [hpivots, Cholesky.solve_scale]
  cases e.flatDiagonal? e.unknowns with
  | some b => rfl
  | none =>
      dsimp only
      cases Cholesky.factor e.hessian with
      | none => rfl
      | some L =>
          dsimp only
          cases weakPivot? e L tolerance <;> rfl

theorem LuSolver.answer_multiple :
    answer (e.multiple c) tolerance = (answer e tolerance).map (·.scale c) := by
  have hrhs : ((e.multiple c).gradient.times e.scaling).neg =
      (e.gradient.times e.scaling).neg.scale c := by
    rw [← Vec.neg_scale, ← Vec.times_scale]
    rfl
  unfold answer
  rw [show (e.multiple c).flatDiagonal? (e.multiple c).unknowns = e.flatDiagonal? e.unknowns from rfl,
    show factors (e.multiple c) = factors e from rfl,
    show (e.multiple c).scaling = e.scaling from rfl,
    show (e.multiple c).unknowns = e.unknowns from rfl]
  simp only [hrhs, PivotedLu.solve_scale]
  cases e.flatDiagonal? e.unknowns with
  | some b => rfl
  | none =>
      dsimp only
      split
      · cases (factors e).solve (e.gradient.times e.scaling).neg with
        | error y => rfl
        | ok y => exact congrArg Except.ok (Vec.times_scale y _ c)
      · rfl

theorem QrSolver.answer_multiple :
    answer (e.multiple c) tolerance = (answer e tolerance).map (·.scale c) := by
  have hlead : lead (e.multiple c) = (lead e).scale c := by
    unfold lead
    rw [show (e.multiple c).residuals.neg = e.residuals.neg.scale c from Vec.neg_scale _ _,
      Householder.turn_scale, ← Vec.tabulate_mul]
    exact Vec.tabulate_congr fun i _ => Vec.entry_scale_eq _ _ _
  unfold answer
  rw [show (e.multiple c).flatDiagonal? (e.multiple c).unknowns = e.flatDiagonal? e.unknowns from rfl,
    show (e.multiple c).jacobian = e.jacobian from rfl,
    show factors (e.multiple c) = factors e from rfl,
    show (e.multiple c).scaling = e.scaling from rfl,
    show (e.multiple c).unknowns = e.unknowns from rfl]
  simp only [hlead, Triangular.backward_scale]
  split
  · rfl
  cases e.flatDiagonal? e.unknowns with
  | some b => rfl
  | none =>
      dsimp only
      split
      · cases Triangular.backward (factors e).triangle e.unknowns (lead e) with
        | error y => rfl
        | ok y => exact congrArg Except.ok (Vec.times_scale y _ c)
      · rfl

/-- **A multiple of a subproblem** has the same multiple of the step as its solution, or fails alike. -/
theorem Solver.answer_multiple (kind : SolverKind) :
    answer kind (e.multiple c) tolerance = (answer kind e tolerance).map (·.scale c) := by
  cases kind with
  | cholesky => exact CholeskySolver.answer_multiple e c tolerance
  | lu => exact LuSolver.answer_multiple e c tolerance
  | qr => exact QrSolver.answer_multiple e c tolerance

end Answers

end TrustRegion
