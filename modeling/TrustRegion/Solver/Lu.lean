import TrustRegion.Linear.PivotedLu
import TrustRegion.Solver.NormalEquations

/-!
# Solving by triangular factorisation with row exchanges

The scaled Hessian `D B D` is factored; all of it is read, and no symmetry is used.  The least modulus
on the diagonal of `U` has to exceed the tolerance.
-/

namespace TrustRegion

/-- The buffers of the solver by triangular factorisation. -/
structure LuSolver (α : Type) where
  /-- The scaled Hessian, or the factor `U` of the last one. -/
  scaled : Matrix α
  scale : Vec α

namespace LuSolver

variable {α : Type} [Scalar α]

/-- Buffers for `n` unknowns. -/
def ofSize (n : Nat) : LuSolver α := ⟨Matrix.zeros n n, Vec.zeros n⟩

/-- Buffers of the sizes for `n` unknowns: the ones there are, if they have these sizes. -/
def room (w : LuSolver α) (n : Nat) : LuSolver α :=
  if w.scaled.HasShape n n ∧ w.scale.size = n then w else ofSize n

/-- Solves `B p = -g` into `step`.  Where a zero on the diagonal survives the test of the pivots,
which takes a negative tolerance, the step is left half solved. -/
def solve (w : LuSolver α) (e : NormalEquations α) (tolerance : α) (step : Vec α) :
    Checked (Attempt α (LuSolver α)) :=
  let n := e.unknowns
  if e.Fits step.size then do
    let w := w.room n
    let (scale, flat) ← e.scalingOver? w.scale
    match flat with
    | some b => some ⟨.error (.singular (.finite b) 0), { w with scale }, step⟩
    | none =>
      let hessian ← w.scaled.copyFrom e.hessian
      let balanced ← hessian.scaleBoth? scale
      let factors := PivotedLu.factor balanced
      let pivot := factors.upper.leastPivot n
      let after : LuSolver α := ⟨factors.upper, scale⟩
      if pivot.exceeds tolerance then
        let gradient ← step.copyFrom e.gradient
        let scaled ← gradient.hadamard scale
        match ← factors.solve? scaled.neg with
        | .error y => some ⟨.error (.singular pivot tolerance), after, y⟩
        | .ok y => (y.hadamard scale).map fun p => ⟨.ok (), after, p⟩
      else some ⟨.error (.singular pivot tolerance), after, step⟩
  else some ⟨.error .dimensionMismatch, w, step⟩

end LuSolver

end TrustRegion
