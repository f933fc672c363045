import TrustRegion.Extended

/-!
# How a step was chosen

A step is one of three kinds, and beside the step there is something to report about the subproblem
it was computed from.
-/

namespace TrustRegion

/-- The part of the dogleg path on which a step lies. -/
inductive Regime where
  /-- On the ray of steepest descent. -/
  | cauchy
  | gaussNewton
  /-- Between the Cauchy point and the Gauss-Newton point. -/
  | combined
  deriving DecidableEq, Repr

/-- The name of a regime. -/
def Regime.name : Regime → String
  | cauchy => "Cauchy"
  | gaussNewton => "GaussNewton"
  | combined => "Combined"

/-- What is worth knowing about the subproblem of the last step. -/
structure Diagnostics (α : Type) where
  gaussNewtonFailed : Bool := false
  /-- The model has no positive curvature along the gradient. -/
  nonPositiveCurvature : Bool := false
  zeroGradient : Bool := false
  /-- The condition number of the Hessian, known only where the Gauss-Newton step failed. -/
  conditionNumber : Option (Extended α) := none
  deriving DecidableEq, Repr, Inhabited

/-- Is the subproblem degenerate in any way? -/
def Diagnostics.isDegenerate {α : Type} (d : Diagnostics α) : Bool :=
  d.gaussNewtonFailed || d.nonPositiveCurvature || d.zeroGradient

end TrustRegion
