import TrustRegion.Linear.Householder
import TrustRegion.Solver.NormalEquations

/-!
# Solving by orthogonal triangularisation

The step that minimises `‖J p + r‖` is computed from the Jacobian with its columns scaled to unit
length, so the condition number is never squared.  Of the Hessian only the diagonal is read, and the
gradient not at all.  The least modulus on the diagonal of `R` has to exceed the square root of the
tolerance: a pivot of `R` is the root of a pivot of the scaled Hessian.
-/

namespace TrustRegion

/-- The buffers of the solver by orthogonal triangularisation. -/
structure QrSolver (α : Type) where
  /-- The scaled Jacobian, or the triangular form of the last one. -/
  scaled : Matrix α
  scale : Vec α
  rhs : Vec α

namespace QrSolver

variable {α : Type} [Scalar α]

/-- Buffers for `n` unknowns and `m` residuals. -/
def ofSize (n m : Nat) : QrSolver α := ⟨Matrix.zeros m n, Vec.zeros n, Vec.zeros m⟩

/-- Buffers of the sizes for `n` unknowns and `m` residuals: the ones there are, if they have these
sizes. -/
def room (w : QrSolver α) (n m : Nat) : QrSolver α :=
  if w.scaled.HasShape m n ∧ w.scale.size = n ∧ w.rhs.size = m then w else ofSize n m

/-- Minimises `‖J p + r‖` into `step`. -/
def solve (w : QrSolver α) (e : NormalEquations α) (tolerance : α) (step : Vec α) :
    Checked (Attempt α (QrSolver α)) :=
  let n := e.unknowns
  let m := e.jacobian.rows
  let threshold := Scalar.sqrt tolerance
  if e.Fits step.size then
    if m < n then some ⟨.error (.singular (.finite 0) threshold), w, step⟩
    else do
      let w := w.room n m
      let (scale, flat) ← e.scalingOver? w.scale
      match flat with
      | some b => some ⟨.error (.singular (.finite b) 0), { w with scale }, step⟩
      | none =>
        let jacobian ← w.scaled.copyFrom e.jacobian
        let residuals ← w.rhs.copyFrom e.residuals
        let balanced ← jacobian.scaleColumns? scale
        let factors := Householder.factor balanced
        let rhs ← factors.turn? residuals.neg
        let pivot := factors.triangle.leastPivot n
        let after : QrSolver α := ⟨factors.triangle, scale, rhs⟩
        if pivot.exceeds threshold then
          let lead ← rhs.first n
          let start ← step.copyFrom lead
          match ← Triangular.backward? factors.triangle start with
          | .error y => some ⟨.error (.singular pivot threshold), after, y⟩
          | .ok y => (y.hadamard scale).map fun p => ⟨.ok (), after, p⟩
        else some ⟨.error (.singular pivot threshold), after, step⟩
  else some ⟨.error .dimensionMismatch, w, step⟩

end QrSolver

end TrustRegion
