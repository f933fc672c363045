import TrustRegion.Model

/-!
# The Cauchy point

The minimiser of the quadratic model along the ray of steepest descent `-t g`, `t ≥ 0`, lies at the
distance `‖g‖³ / g·B g` from the origin.  Where the model has no positive curvature along the gradient
there is no minimiser, and the distance is infinite.

`CauchyPoint.writeStep` shortens the way to the point to a given radius.
-/

namespace TrustRegion

/-- The Cauchy point, as a distance along the ray of steepest descent. -/
structure CauchyPoint (α : Type) where
  gradientNorm : α
  /-- The curvature of the model along the gradient. -/
  curvature : α
  /-- The distance of the point from the origin. -/
  norm : Extended α

namespace CauchyPoint

variable {α : Type} [Scalar α]

/-- The point where there is no gradient. -/
def origin : CauchyPoint α := ⟨0, 0, .finite 0⟩

/-- Does the gradient vanish? -/
def isZeroGradient (p : CauchyPoint α) : Bool := Scalar.isZero p.gradientNorm

/-- Does the model fall without end along the ray? -/
def isUnbounded (p : CauchyPoint α) : Bool := !p.isZeroGradient && !decide (0 < p.curvature)

/-- The distance `‖g‖³ / curvature`, in an order that never forms the cube. -/
def distance (gradientNorm curvature : α) : Extended α :=
  if 0 < curvature then .finite (gradientNorm / curvature * gradientNorm * gradientNorm)
  else .infinite

/-- The Cauchy point of a model. -/
def ofModel (q : Model α) : Checked (CauchyPoint α × List (Event α)) :=
  let gradientNorm := q.gradient.norm
  if Scalar.isZero gradientNorm then some (⟨gradientNorm, 0, .finite 0⟩, [])
  else do
    let curvature ← q.curvature q.gradient
    let norm := distance gradientNorm curvature
    let warning := if 0 < curvature then [] else [.flatCurvature curvature]
    some (⟨gradientNorm, curvature, norm⟩, warning ++ [.cauchyPoint gradientNorm curvature norm])

/-- How far to go along the ray within a radius, and whether the radius ends the way. -/
def reach (p : CauchyPoint α) (radius : α) : α × Bool :=
  if p.norm.reaches radius then (radius, true) else (p.norm.toScalar, false)

/-- The step to the point, cut off at the radius, written over `out`; and whether it was cut off. -/
def writeStep (p : CauchyPoint α) (gradient : Vec α) (radius : α) (out : Vec α) :
    Checked (Vec α × Bool) :=
  if p.isZeroGradient then some (out.fill 0, false)
  else do
    let direction ← out.copyFrom gradient
    let (length, clipped) := p.reach radius
    some (direction.scale (-length / p.gradientNorm), clipped)

end CauchyPoint

end TrustRegion
