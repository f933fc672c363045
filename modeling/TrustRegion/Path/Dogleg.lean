import TrustRegion.Path.CauchyPoint
import TrustRegion.Path.Crossing
import TrustRegion.Path.GaussNewton

/-!
# The dogleg path

The path runs from the origin to the Cauchy point `p_C` and from there to the Gauss-Newton point
`p_GN`.  The step for a radius is the point where the path leaves the trust region, or its end if it
never does.  Three cases are told apart, in this order:

* `‖p_GN‖ ≤ radius`: the step is `p_GN`;
* there is no `p_GN`, or `‖p_C‖ ≥ radius`: the step is `p_C`, cut off at the radius;
* otherwise `‖p_C‖ < radius < ‖p_GN‖`: the step is the point between the two that has the length
  `radius`.
-/

namespace TrustRegion

/-- The dogleg path for problems of one size. -/
structure DoglegPath (α : Type) where
  model : Model α
  cauchy : CauchyPoint α
  gaussNewton : GaussNewton α
  /-- Room for the step to the Cauchy point. -/
  corner : Vec α
  /-- Has the last staging succeeded? -/
  staged : Bool
  diagnostics : Diagnostics α

namespace DoglegPath

variable {α : Type} [Scalar α]

/-- Room for problems with `n` parameters and `m` residuals, at least one of each. -/
def ofSize (n m : Nat) (kind : SolverKind) (tolerance : α) :
    Except (StepError α) (DoglegPath α) :=
  (Model.ofSize n m).map fun model =>
    { model
      cauchy := .origin
      gaussNewton := .ofSize kind tolerance n m
      corner := Vec.zeros n
      staged := false
      diagnostics := {} }

/-- Puts a problem in and finds its Cauchy point.  The Gauss-Newton point is left until a step needs
it. -/
def stage (d : DoglegPath α) (l : Linearization α) :
    Checked (Turn α (DoglegPath α) (StepError α) Unit) := do
  let d := { d with staged := false, gaussNewton := d.gaussNewton.invalidate }
  let staging ← d.model.stage l
  let d := { d with model := staging.state }
  match staging.result with
  | .error e => some ⟨d, .error e, staging.events⟩
  | .ok () => do
    let (cauchy, events) ← CauchyPoint.ofModel d.model
    some ⟨{ d with cauchy, staged := true }, .ok (), staging.events ++ events⟩

/-- A step that has been placed, with the path after it, the regime, whether it ends on the boundary of the
trust region, and what happened. -/
structure Placed (α : Type) where
  path : DoglegPath α
  step : Vec α
  regime : Regime
  onBoundary : Bool
  events : List (Event α)

/-- The step to the Gauss-Newton point. -/
def toGaussNewton (d : DoglegPath α) (norm radius : α) (out : Vec α) : Checked (Placed α) := do
  let step ← out.copyFrom d.gaussNewton.point
  some ⟨d, step, .gaussNewton, false, [.gaussNewtonInside norm radius]⟩

/-- The step towards the Cauchy point. -/
def toCauchy (d : DoglegPath α) (radius : α) (out : Vec α) : Checked (Placed α) := do
  let (step, clipped) ← d.cauchy.writeStep d.model.gradient radius out
  some ⟨d, step, .cauchy, clipped, [.cauchyStep d.cauchy.norm radius clipped]⟩

/-- The step to the point between the Cauchy point and the Gauss-Newton point on the boundary, whose share
of the segment `method` finds. -/
def betweenBy (method : Crossing.Method α) (d : DoglegPath α) (radius : α) (out : Vec α) :
    Checked (Placed α) := do
  let (corner, _) ← d.cauchy.writeStep d.model.gradient radius d.corner
  let share ← method corner d.gaussNewton.point radius
  let point ← corner.towards d.gaussNewton.point share
  let step ← out.copyFrom point
  some ⟨{ d with corner }, step, .combined, true, [.crossing share, .combinedStep share radius]⟩

/-- A way to place the step for a radius, once it is known whether there is a Gauss-Newton point and how far
away it is. -/
abbrev Placing (α : Type) := DoglegPath α → Option α → α → Vec α → Checked (Placed α)

/-- The three cases, with the way to find the share for the last of them. -/
def placeBy (method : Crossing.Method α) : Placing α := fun d norm radius out =>
  match norm with
  | none => d.toCauchy radius out
  | some norm =>
    if norm ≤ radius then d.toGaussNewton norm radius out
    else if d.cauchy.norm.reaches radius then d.toCauchy radius out
    else d.betweenBy method radius out

/-- The three cases, with the computation of the share. -/
def place : Placing α := placeBy Crossing.known

/-- The path once it has been asked for its Gauss-Newton point, and has noted what there is to report. -/
def asked (d : DoglegPath α) (solving : Turn α (GaussNewton α) (SolveError α) α) : DoglegPath α :=
  let diagnostics : Diagnostics α :=
    { nonPositiveCurvature := d.cauchy.isUnbounded, zeroGradient := d.cauchy.isZeroGradient }
  { d with
    gaussNewton := solving.state
    diagnostics :=
      match solving.result with
      | .ok _ => diagnostics
      | .error _ =>
        { diagnostics with
          gaussNewtonFailed := true, conditionNumber := solving.state.condition? } }

/-- A way to write the step for a radius over a vector; with its regime and whether it ends on the boundary. -/
abbrev Stepping (α : Type) :=
  DoglegPath α → α → Vec α → Checked (Turn α (DoglegPath α × Vec α) (StepError α) (Regime × Bool))

/-- The step, with the way to find the Gauss-Newton point and the way to place the step as parameters.  The
radius is taken as it is. -/
def stepBy (compute : GaussNewton.Method α) (place : Placing α) : Stepping α := fun d radius out =>
  if d.staged then
    match checkSize .step d.model.n out.size with
    | .error e => some (.refuse (d, out) e)
    | .ok () => do
      let solving ← compute d.gaussNewton d.model
      let placed ← place (d.asked solving) solving.result.toOption radius out
      some ⟨(placed.path, placed.step), .ok (placed.regime, placed.onBoundary),
        solving.events ++ placed.events⟩
  else some (.refuse (d, out) .inputsNotSet)

/-- The step along the path. -/
def step : Stepping α := stepBy GaussNewton.compute place

end DoglegPath

end TrustRegion
