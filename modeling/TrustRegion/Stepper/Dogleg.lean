import TrustRegion.Path.Dogleg
import TrustRegion.Settings
import TrustRegion.Stepper

/-!
# Steps along the dogleg path

The step solver that follows the dogleg path, with settings of its own.
-/

namespace TrustRegion

/-- A step solver that follows the dogleg path. -/
structure DoglegStepper (α : Type) where
  settings : Settings α
  /-- The path, once a problem size is known. -/
  path : Option (DoglegPath α)
  /-- Does the last step end on the boundary? -/
  maxStep : Bool
  /-- By how much the model falls with the last step. -/
  reduction : α
  lastRegime : Option Regime

namespace DoglegStepper

variable {α : Type} [Scalar α]

/-- A solver that has not been prepared yet. -/
def fresh (settings : Settings α) : DoglegStepper α :=
  { settings, path := none, maxStep := false, reduction := 0, lastRegime := none }

/-- What is known about the last step. -/
def diagnostics (s : DoglegStepper α) : Diagnostics α := (s.path.map (·.diagnostics)).getD {}

/-- The Gauss-Newton point of the problem, if it has been found. -/
def gaussNewtonStep (s : DoglegStepper α) : Option (Vec α) := s.path.bind (·.gaussNewton.step?)

/-- Prepares for problems with `n` parameters and `m` residuals.  The settings are examined first, and the
log is opened.  What was there before is given up before the new path is made, so a size that is refused
leaves a solver that has to be prepared again, with the answers of its last step. -/
def init (s : DoglegStepper α) (n m : Nat) (opening : Settings.LogOpening) :
    Turn α (DoglegStepper α) (StepError α) Unit :=
  match s.settings.activate opening with
  | .error problem => .refuse s (.invalidSettings problem)
  | .ok () =>
    match DoglegPath.ofSize n m s.settings.solver s.settings.tolerance with
    | .error e => .refuse { s with path := none } e
    | .ok path =>
      ⟨{ fresh s.settings with path := some path }, .ok (), [.initialized n m s.settings.solver]⟩

/-- Takes a problem. -/
def setInputs (s : DoglegStepper α) (inputs : Linearization α) :
    Checked (Turn α (DoglegStepper α) (StepError α) Unit) :=
  match s.path with
  | none => some (.refuse s .notInitialized)
  | some path =>
    (path.stage inputs).map fun t => ⟨{ s with path := some t.state }, t.result, t.events⟩

/-- The warning that belongs to a step for which the model does not fall. -/
def warning (reduction : α) (regime : Regime) : List (Event α) :=
  if reduction < 0 then [.negativeReduction reduction regime] else []

/-- Computes a step within a radius, with the way to take a step on the path as a parameter. -/
def computeStepBy (step : DoglegPath.Stepping α) (s : DoglegStepper α) (radius : α) (out : Vec α) :
    Checked (Turn α (DoglegStepper α × Vec α) (StepError α) Regime) :=
  match checkRadius radius, s.path with
  | .error e, _ => some (.refuse (s, out) e)
  | .ok (), none => some (.refuse (s, out) .notInitialized)
  | .ok (), some path => do
    let stepping ← step path radius out
    let (path, step) := stepping.state
    let s := { s with path := some path }
    match stepping.result with
    | .error e => some ⟨(s, step), .error e, stepping.events⟩
    | .ok (regime, onBoundary) => do
      let reduction ← path.model.predictedReduction step
      some ⟨({ s with maxStep := onBoundary, reduction, lastRegime := some regime }, step),
        .ok regime, stepping.events ++ warning reduction regime⟩

/-- Computes a step within a radius. -/
def computeStep : DoglegStepper α → α → Vec α →
    Checked (Turn α (DoglegStepper α × Vec α) (StepError α) Regime) :=
  computeStepBy DoglegPath.step

/-- The solver, with the way to take a step on its path as a parameter, where every log opens. -/
@[reducible] def stepperBy (step : DoglegPath.Stepping α) : Stepper α (DoglegStepper α) where
  init s n m := some (s.init n m .succeeds)
  setInputs := setInputs
  computeStep := computeStepBy step
  isMaxStep s := s.maxStep
  predictedReduction s := s.reduction

instance : Stepper α (DoglegStepper α) := stepperBy DoglegPath.step

end DoglegStepper

end TrustRegion
