import TrustRegion.Event
import TrustRegion.Linear.Matrix

/-!
# The quadratic model of a least-squares problem

At a point `x` with residuals `r` and Jacobian `J`, the cost `½‖r(x + h)‖²` is modelled by

  `m(h) = cost + g·h + ½ h·B h`,  `B = Jᵀ J`,

where `g` is the gradient.  The gradient is an input of its own, so that a caller may add to it; it
need not be `Jᵀ r`.

A model has room for problems of one size.  `Model.stage` puts the parts of a problem into it, after
checking every size, and `Model.value`, `Model.curvature` and `Model.predictedReduction` evaluate it.
-/

namespace TrustRegion

/-- A least-squares problem, linearised at a point. -/
structure Linearization (α : Type) where
  /-- The parameters. -/
  point : Vec α
  residuals : Vec α
  jacobian : Matrix α
  gradient : Vec α
  /-- The cost, or a negative number or no number where it is to be computed from the residuals. -/
  cost : α

/-- Refuses a problem that has not `n` parameters and `m` residuals throughout. -/
def Linearization.check {α : Type} (l : Linearization α) (n m : Nat) :
    Except (StepError α) Unit := do
  checkSize .parameters n l.point.size
  checkSize .residuals m l.residuals.size
  checkSize .jacobianRows m l.jacobian.rows
  checkSize .jacobianColumns n l.jacobian.cols
  checkSize .gradient n l.gradient.size

/-- A quadratic model for problems of one size. -/
structure Model (α : Type) where
  /-- The number of parameters. -/
  n : Nat
  /-- The number of residuals. -/
  m : Nat
  residuals : Vec α
  jacobian : Matrix α
  gradient : Vec α
  /-- The inner products of the columns of the Jacobian. -/
  hessian : Matrix α
  cost : α
  /-- Has a problem been put in yet? -/
  staged : Bool

namespace Model

variable {α : Type} [Scalar α]

/-- Room for a problem with `n` parameters and `m` residuals, at least one of each. -/
def ofSize (n m : Nat) : Except (StepError α) (Model α) :=
  if n = 0 then .error (.dimension .parameterCount 1 0)
  else if m = 0 then .error (.dimension .residualCount 1 0)
  else
    .ok
      { n, m
        residuals := Vec.zeros m
        jacobian := Matrix.zeros m n
        gradient := Vec.zeros n
        hessian := Matrix.zeros n n
        cost := 0
        staged := false }

/-! ## Staging a problem -/

/-- Half the sum of the squares of the residuals. -/
def costOf (residuals : Vec α) : α := Scalar.half * residuals.normSq

/-- The least positive number with a full significand. -/
def leastNormal : α := 1 / (Nat.pow 2 1022 : α)

/-- Is a supplied cost too far from the cost of the residuals? -/
def Inconsistent (supplied derived : α) : Prop :=
  Scalar.tenth 8 * Scalar.larger derived leastNormal < Scalar.abs (supplied - derived)

instance (supplied derived : α) : Decidable (Inconsistent supplied derived) :=
  inferInstanceAs (Decidable (_ < _))

/-- The cost to work with, given the supplied one and the one of the residuals: the supplied one, if
it is a number and not negative. -/
def chooseCost (supplied derived : α) : α × List (Event α) :=
  if Scalar.isNaN supplied ∨ supplied < 0 then (derived, [])
  else (supplied, if Inconsistent supplied derived then [.costDiffers supplied derived] else [])

/-- Puts a problem into the model, unless a size is wrong. -/
def stage (q : Model α) (l : Linearization α) :
    Checked (Turn α (Model α) (StepError α) Unit) :=
  match l.check q.n q.m with
  | .error e => some (.refuse q e)
  | .ok () => do
    let residuals ← q.residuals.copyFrom l.residuals
    let jacobian ← q.jacobian.copyFrom l.jacobian
    let gradient ← q.gradient.copyFrom l.gradient
    let hessian ← q.hessian.gramInto jacobian
    let (cost, events) := chooseCost l.cost (costOf residuals)
    some ⟨{ q with residuals, jacobian, gradient, hessian, cost, staged := true }, .ok (), events⟩

/-! ## Evaluation -/

/-- The quadratic form `v·B v`, added up column by column.  The sum starts from the zero that leaves
every other summand as it is. -/
def curvature (q : Model α) (v : Vec α) : Checked α :=
  if q.hessian.HasShape v.size v.size ∨ v.size = 0 then
    some (Scalar.sumFrom (-0) v.size fun j => (q.hessian.column j).inner v * v.entry j)
  else none

/-- The value of the model at the step `h`. -/
def value (q : Model α) (h : Vec α) : Checked α := do
  let slope ← h.dot q.gradient
  let curvature ← q.curvature h
  some (q.cost + slope + Scalar.half * curvature)

/-- By how much the model falls from the point to the step `h`. -/
def predictedReduction (q : Model α) (h : Vec α) : Checked α := do
  let slope ← h.dot q.gradient
  let curvature ← q.curvature h
  some (-(slope + Scalar.half * curvature))

end Model

end TrustRegion
