import TrustRegion.Solver.Cholesky
import TrustRegion.Solver.Lu
import TrustRegion.Solver.Qr
import TrustRegion.Solver.Kind

/-!
# Linear solvers

A solver of one of the three kinds, with the buffers it keeps between solves.  Buffers of the wrong
size are replaced when they are needed, so a solver accepts systems of any size.
-/

namespace TrustRegion

/-- A solver with its buffers. -/
inductive Solver (α : Type) where
  | cholesky (workspace : CholeskySolver α)
  | lu (workspace : LuSolver α)
  | qr (workspace : QrSolver α)

/-- A solve under way in one kind of solver, seen as a solve of any kind. -/
def Attempt.map {α ω ω' : Type} (f : ω → ω') (a : Attempt α ω) : Attempt α ω' :=
  { verdict := a.verdict, workspace := f a.workspace, step := a.step }

namespace Solver

variable {α : Type}

/-- The kind of a solver. -/
def kind : Solver α → SolverKind
  | cholesky _ => .cholesky
  | lu _ => .lu
  | qr _ => .qr

variable [Scalar α]

/-- A solver with fresh buffers for `n` unknowns and `m` residuals. -/
def ofKind (kind : SolverKind) (n m : Nat) : Solver α :=
  match kind with
  | .cholesky => cholesky (.ofSize n)
  | .lu => lu (.ofSize n)
  | .qr => qr (.ofSize n m)

/-- The same kind of solver with fresh buffers of another size. -/
def resize (s : Solver α) (n m : Nat) : Solver α := ofKind s.kind n m

/-- Computes the Gauss-Newton step of a subproblem into `step`. -/
def solve (s : Solver α) (e : NormalEquations α) (tolerance : α) (step : Vec α) :
    Checked (Attempt α (Solver α)) :=
  match s with
  | cholesky w => (w.solve e tolerance step).map (·.map cholesky)
  | lu w => (w.solve e tolerance step).map (·.map lu)
  | qr w => (w.solve e tolerance step).map (·.map qr)

@[simp] theorem kind_ofKind (kind : SolverKind) (n m : Nat) :
    (ofKind kind n m : Solver α).kind = kind := by cases kind <;> rfl

@[simp] theorem kind_resize (s : Solver α) (n m : Nat) : (s.resize n m).kind = s.kind :=
  kind_ofKind _ _ _

end Solver

end TrustRegion
