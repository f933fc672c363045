import TrustRegion.Event

/-!
# Wording

The texts of errors and events.  Numbers are written by a `NumberWriter`, so the wording does not
depend on the arithmetic.
-/

namespace TrustRegion

/-- The ways to write a number of type `α`. -/
structure NumberWriter (α : Type) where
  /-- As few digits as tell the number from all others, without an exponent. -/
  plain : α → String
  /-- A given number of digits after the first one, with an exponent. -/
  scientific : Nat → α → String
  /-- A given number of digits after the point, without an exponent. -/
  fixed : Nat → α → String

variable {α : Type}

/-- A text between single quotes. -/
def quoted (text : String) : String := "'" ++ text ++ "'"

/-- The name of a checked size. -/
def Quantity.name : Quantity → String
  | parameterCount => "number of parameters"
  | residualCount => "number of residuals"
  | parameters => "parameters"
  | residuals => "residuals"
  | jacobianRows => "jacobian rows"
  | jacobianColumns => "jacobian columns"
  | gradient => "gradient"
  | step => "step"
  | named name => name

/-- The text of a problem with settings. -/
def SettingsProblem.message (w : NumberWriter α) : SettingsProblem α → String
  | unknownSolver text =>
    "unknown linear solver " ++ quoted text ++ ", choose cholesky, lu or qr"
  | notANumber text => "singular_tolerance must be a number, got " ++ quoted text
  | unknownSetting key => "unknown setting " ++ quoted key
  | toleranceOutOfRange tolerance =>
    "singular_tolerance must be in [0, 1), got " ++ w.plain tolerance
  | unknownLevel text =>
    "loglevel must be trace, debug, info, warn, error or off, got " ++ quoted text
  | described text => text

/-- The text of a refusal. -/
def StepError.message (w : NumberWriter α) : StepError α → String
  | dimension what expected found =>
    "dimension mismatch in " ++ what.name ++ ": expected " ++ toString expected ++ ", found " ++
      toString found
  | invalidRadius radius => "trust region radius must be positive and finite, got " ++ w.plain radius
  | notInitialized => "init must be called before use"
  | inputsNotSet => "set_inputs must be called before compute_step"
  | invalidSettings problem => "invalid configuration: " ++ problem.message w

variable [Scalar α]

/-- The text of a failed solve. -/
def SolveError.message (w : NumberWriter α) : SolveError α → String
  | singular pivot threshold =>
    "matrix is singular: pivot " ++ w.scientific 3 pivot.toScalar ++ " <= threshold " ++
      w.scientific 3 threshold
  | notPositiveDefinite => "matrix is not positive definite"
  | dimensionMismatch => "dimensions of matrix and vectors do not match"

/-- How the events of one caller are worded. -/
structure EventStyle (α : Type) where
  numbers : NumberWriter α
  /-- The share of the second segment of the path. -/
  share : α → String
  condition : Extended α → String

/-- The usual style: shares with as few digits as possible, condition numbers with four. -/
def EventStyle.standard (w : NumberWriter α) : EventStyle α :=
  { numbers := w, share := w.plain, condition := fun c => w.scientific 3 c.toScalar }

/-- The text of an event. -/
def Event.message (style : EventStyle α) : Event α → String
  | costDiffers supplied derived =>
    "supplied cost " ++ sci 6 supplied ++ " differs from 0.5*||r||^2 = " ++ sci 6 derived
  | flatCurvature curvature =>
    "non-positive curvature along the gradient: g^T B g = " ++ sci 3 curvature
  | cauchyPoint gradientNorm curvature norm =>
    "Cauchy point: ||g|| = " ++ sci 4 gradientNorm ++ ", g^T B g = " ++ sci 4 curvature ++
      ", ||p_C|| = " ++ sci 4 norm.toScalar
  | gaussNewtonPoint kind norm =>
    "Gauss-Newton step (" ++ kind.name ++ " solver): ||p_GN|| = " ++ sci 4 norm
  | gaussNewtonUnavailable kind error condition =>
    "Gauss-Newton step unavailable (" ++ kind.name ++ " solver): " ++ error.message style.numbers ++
      ", condition number of J^T J = " ++ style.condition condition
  | gaussNewtonInside norm radius =>
    "Gauss-Newton step inside trust region: ||p_GN|| = " ++ sci 4 norm ++ " <= delta = " ++
      sci 4 radius
  | cauchyStep norm radius clipped =>
    "Cauchy step: ||p_C|| = " ++ sci 4 norm.toScalar ++ ", delta = " ++ sci 4 radius ++
      ", clipped = " ++ toString clipped
  | crossing share => "tau = " ++ style.share share
  | combinedStep share radius =>
    "combined step on the boundary: tau = " ++ style.numbers.fixed 6 share ++ ", delta = " ++
      sci 4 radius
  | initialized parameters residuals kind =>
    "dogleg step initialized: " ++ toString parameters ++ " parameters, " ++ toString residuals ++
      " residuals, " ++ kind.name ++ " solver"
  | negativeReduction reduction regime =>
    "negative predicted reduction " ++ sci 3 reduction ++ " in " ++ regime.name ++
      " regime, the model is badly conditioned"
where
  /-- A number with a given number of digits after the first one. -/
  sci (places : Nat) (x : α) : String := style.numbers.scientific places x

end TrustRegion
