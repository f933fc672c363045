import TrustRegion.Error
import TrustRegion.Linear.Matrix

/-!
# The Gauss-Newton subproblem

The Gauss-Newton step `p` of a linearised least-squares problem with Jacobian `J` and residuals `r`
solves `B p = -g`, where `B = Jᵀ J` and `g = Jᵀ r`.  The system is handed to a solver with all four
parts, so that each solver takes the ones it needs.

Whether a system is singular is judged after the columns of `J` have been brought to unit length, that
is on `D B D` for the diagonal matrix `D` with entries `1 / √B_ii`.  A column measured in other units
therefore never makes a system look singular.
-/

namespace TrustRegion

/-- The parts of a Gauss-Newton subproblem. -/
structure NormalEquations (α : Type) where
  /-- The Jacobian, one row for each residual and one column for each parameter. -/
  jacobian : Matrix α
  residuals : Vec α
  /-- The matrix of the system. -/
  hessian : Matrix α
  /-- The opposite of the right-hand side. -/
  gradient : Vec α

namespace NormalEquations

variable {α : Type}

/-- The number of unknowns. -/
def unknowns (e : NormalEquations α) : Nat := e.jacobian.cols

/-- Do the parts fit each other, and a step with `size` entries? -/
def Fits (e : NormalEquations α) (size : Nat) : Prop :=
  e.hessian.HasShape e.unknowns e.unknowns ∧ e.gradient.size = e.unknowns ∧ size = e.unknowns ∧
    e.residuals.size = e.jacobian.rows

instance (e : NormalEquations α) (size : Nat) : Decidable (e.Fits size) :=
  inferInstanceAs (Decidable (_ ∧ _))

variable [Scalar α]

/-- The diagonal entry of the Hessian that belongs to unknown `i`. -/
def diagonal (e : NormalEquations α) (i : Nat) : α := e.hessian.entry i i

/-- The first of the `n` leading diagonal entries of the Hessian that is not positive. -/
def flatDiagonal? (e : NormalEquations α) (n : Nat) : Option α :=
  ((List.range n).map e.diagonal).find? fun b => !decide (0 < b)

/-- The scaling `1 / √B_ii`, written over the vector `scale` from the front; at a diagonal entry that
is not positive the work ends and the rest of the vector stays as it was. -/
def scalingOver (e : NormalEquations α) (scale : Vec α) : Vec α × Option α :=
  let settled := (List.range scale.size).findIdx fun i => !decide (0 < e.diagonal i)
  (Vec.tabulate scale.size fun i =>
      if i < settled then 1 / Scalar.sqrt (e.diagonal i) else scale.entry i,
    e.flatDiagonal? scale.size)

/-- The first diagonal entry of the Hessian that is not positive, if there is one for each unknown. -/
def checkDiagonal (e : NormalEquations α) : Checked (Option α) :=
  if e.hessian.HasDiagonal e.unknowns then some (e.flatDiagonal? e.unknowns) else none

/-- The scaling written over a vector, if the Hessian has a diagonal entry for each of its places. -/
def scalingOver? (e : NormalEquations α) (scale : Vec α) : Checked (Vec α × Option α) :=
  if e.hessian.HasDiagonal scale.size then some (e.scalingOver scale) else none

theorem checkDiagonal_of_hasDiagonal {e : NormalEquations α} (h : e.hessian.HasDiagonal e.unknowns) :
    e.checkDiagonal = some (e.flatDiagonal? e.unknowns) := if_pos h

theorem scalingOver?_of_hasDiagonal {e : NormalEquations α} {scale : Vec α}
    (h : e.hessian.HasDiagonal scale.size) : e.scalingOver? scale = some (e.scalingOver scale) :=
  if_pos h

@[simp] theorem size_scalingOver (e : NormalEquations α) (scale : Vec α) :
    (e.scalingOver scale).1.size = scale.size := by simp [scalingOver]

end NormalEquations

/-- What a solver leaves behind. -/
structure Attempt (α ω : Type) where
  verdict : Except (SolveError α) Unit
  workspace : ω
  /-- The vector into which the solution was to be written. -/
  step : Vec α

end TrustRegion
