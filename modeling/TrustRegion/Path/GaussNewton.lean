import TrustRegion.Linear.SingularValues
import TrustRegion.Model
import TrustRegion.Solver

/-!
# The Gauss-Newton point

The minimiser of the quadratic model, computed when it is first asked for and kept until it is
invalidated.  A failure is kept as well, together with the condition number of the Hessian.
-/

namespace TrustRegion

/-- What is known about the Gauss-Newton point of the staged problem. -/
inductive Progress (α : Type) where
  | pending
  /-- The point has been found, at this distance from the origin. -/
  | solved (norm : α)
  | failed (error : SolveError α) (condition : Extended α)
  deriving DecidableEq, Repr

/-- The Gauss-Newton point and all that is needed to compute it. -/
structure GaussNewton (α : Type) where
  solver : Solver α
  /-- The tolerance of its test for singularity. -/
  tolerance : α
  /-- The vector that holds the point once it is solved. -/
  point : Vec α
  progress : Progress α

namespace GaussNewton

variable {α : Type} [Scalar α]

/-- A solver for problems with `n` parameters and `m` residuals. -/
def ofSize (kind : SolverKind) (tolerance : α) (n m : Nat) : GaussNewton α :=
  { solver := .ofKind kind n m, tolerance, point := Vec.zeros n, progress := .pending }

/-- Forgets what is known. -/
def invalidate (g : GaussNewton α) : GaussNewton α := { g with progress := .pending }

/-- Has the point been asked for? -/
def isComputed (g : GaussNewton α) : Bool :=
  match g.progress with
  | .pending => false
  | _ => true

/-- The point, if it has been found. -/
def step? (g : GaussNewton α) : Option (Vec α) :=
  match g.progress with
  | .solved _ => some g.point
  | _ => none

/-- The distance of the point from the origin, if it has been found. -/
def norm? (g : GaussNewton α) : Option α :=
  match g.progress with
  | .solved norm => some norm
  | _ => none

/-- The condition number of the Hessian, if there is no point. -/
def condition? (g : GaussNewton α) : Option (Extended α) :=
  match g.progress with
  | .failed _ condition => some condition
  | _ => none

/-- The subproblem of a model. -/
def system (q : Model α) : NormalEquations α :=
  { jacobian := q.jacobian, residuals := q.residuals, hessian := q.hessian, gradient := q.gradient }

/-- A way to find the Gauss-Newton point of a model, and how far away it is. -/
abbrev Method (α : Type) := GaussNewton α → Model α → Checked (Turn α (GaussNewton α) (SolveError α) α)

/-- Solves the subproblem of a model, whatever is known already. -/
def solve : Method α := fun g q => do
  let attempt ← g.solver.solve (system q) g.tolerance g.point
  let solver := attempt.workspace
  match attempt.verdict with
  | .ok () =>
    let norm := attempt.step.norm
    some ⟨{ g with solver, point := attempt.step, progress := .solved norm }, .ok norm,
      [.gaussNewtonPoint solver.kind norm]⟩
  | .error e =>
    let condition := q.hessian.conditionNumber
    some ⟨{ g with solver, point := attempt.step.fill 0, progress := .failed e condition },
      .error e, [.gaussNewtonUnavailable solver.kind e condition]⟩

/-- What is known about the Gauss-Newton point of a model, or else what `method` finds now. -/
def computeBy (method : Method α) : Method α := fun g q =>
  match g.progress with
  | .pending => method g q
  | .solved norm => some ⟨g, .ok norm, []⟩
  | .failed e _ => some ⟨g, .error e, []⟩

/-- The distance of the Gauss-Newton point of a model, known already or computed now. -/
def compute : Method α := computeBy solve

end GaussNewton

end TrustRegion
