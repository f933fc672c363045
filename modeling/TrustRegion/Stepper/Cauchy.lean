import TrustRegion.Path.CauchyPoint
import TrustRegion.Stepper

/-!
# Steps along the gradient

The step solver that only ever goes towards the Cauchy point.
-/

namespace TrustRegion

/-- A step solver that goes along the gradient. -/
structure CauchyStepper (α : Type) where
  /-- The model, once a problem size is known. -/
  model : Option (Model α)
  /-- The Cauchy point, once there is a problem. -/
  point : Option (CauchyPoint α)
  /-- Does the last step end on the boundary? -/
  maxStep : Bool
  /-- By how much the model falls with the last step. -/
  reduction : α
  diagnostics : Diagnostics α

namespace CauchyStepper

variable {α : Type} [Scalar α]

/-- A solver that has not been prepared yet. -/
def fresh : CauchyStepper α :=
  { model := none, point := none, maxStep := false, reduction := 0, diagnostics := {} }

/-- Prepares for problems with `n` parameters and `m` residuals. -/
def init (s : CauchyStepper α) (n m : Nat) : Turn α (CauchyStepper α) (StepError α) Unit :=
  match Model.ofSize n m with
  | .error e => .refuse s e
  | .ok model => ⟨{ fresh with model := some model }, .ok (), []⟩

/-- Takes a problem and finds its Cauchy point. -/
def setInputs (s : CauchyStepper α) (inputs : Linearization α) :
    Checked (Turn α (CauchyStepper α) (StepError α) Unit) :=
  match s.model with
  | none => some (.refuse s .notInitialized)
  | some model => do
    let staging ← model.stage inputs
    let s := { s with model := some staging.state, point := none }
    match staging.result with
    | .error e => some ⟨s, .error e, staging.events⟩
    | .ok () => do
      let (point, events) ← CauchyPoint.ofModel staging.state
      some ⟨{ s with point := some point }, .ok (), staging.events ++ events⟩

/-- Does a step for a model whose Cauchy point is known. -/
def stepTo (s : CauchyStepper α) (model : Model α) (point : CauchyPoint α) (radius : α)
    (out : Vec α) : Checked (CauchyStepper α × Vec α) := do
  let (step, clipped) ← point.writeStep model.gradient radius out
  let reduction ← model.predictedReduction step
  let diagnostics : Diagnostics α :=
    { nonPositiveCurvature := point.isUnbounded, zeroGradient := point.isZeroGradient }
  some ({ s with maxStep := clipped, reduction, diagnostics }, step)

/-- Computes a step within a radius. -/
def computeStep (s : CauchyStepper α) (radius : α) (out : Vec α) :
    Checked (Turn α (CauchyStepper α × Vec α) (StepError α) Regime) :=
  match checkRadius radius, s.model, s.point with
  | .error e, _, _ => some (.refuse (s, out) e)
  | .ok (), none, _ => some (.refuse (s, out) .notInitialized)
  | .ok (), some _, none => some (.refuse (s, out) .inputsNotSet)
  | .ok (), some model, some point =>
    match checkSize .step model.n out.size with
    | .error e => some (.refuse (s, out) e)
    | .ok () => (s.stepTo model point radius out).map fun state => ⟨state, .ok .cauchy, []⟩

instance : Stepper α (CauchyStepper α) where
  init s n m := some (s.init n m)
  setInputs := setInputs
  computeStep := computeStep
  isMaxStep s := s.maxStep
  predictedReduction s := s.reduction

end CauchyStepper

end TrustRegion
