import TrustRegion.Extended

/-!
# Failures and refusals

Why a linear system is not solved, and why a call to a step solver, or a set of settings, is refused.
-/

namespace TrustRegion

/-- Why a linear system was not solved. -/
inductive SolveError (α : Type) where
  /-- A pivot did not exceed the threshold below which the matrix counts as singular. -/
  | singular (pivot : Extended α) (threshold : α)
  /-- The Cholesky factorisation met a pivot that is not positive. -/
  | notPositiveDefinite
  | dimensionMismatch
  deriving DecidableEq, Repr

/-- A size that is checked: a number of things, or the length of a vector. -/
inductive Quantity where
  | parameterCount
  | residualCount
  | parameters
  | residuals
  | jacobianRows
  | jacobianColumns
  | gradient
  | step
  /-- Any other size, by its name. -/
  | named (name : String)
  deriving DecidableEq, Repr

/-- What is wrong with a set of settings. -/
inductive SettingsProblem (α : Type) where
  | unknownSolver (text : String)
  | notANumber (text : String)
  | unknownSetting (key : String)
  | toleranceOutOfRange (tolerance : α)
  /-- No level has this name, given here in lower case. -/
  | unknownLevel (text : String)
  /-- Anything else, in words. -/
  | described (text : String)
  deriving DecidableEq, Repr

/-- Why a step solver refuses a call. -/
inductive StepError (α : Type) where
  /-- A size is not the one the solver was prepared for. -/
  | dimension (what : Quantity) (expected found : Nat)
  /-- The trust-region radius is not a positive finite number. -/
  | invalidRadius (radius : α)
  | notInitialized
  | inputsNotSet
  | invalidSettings (problem : SettingsProblem α)
  deriving DecidableEq, Repr

/-- Refuses a size that is not the expected one. -/
def checkSize {α : Type} (what : Quantity) (expected found : Nat) : Except (StepError α) Unit :=
  if expected = found then .ok () else .error (.dimension what expected found)

/-- Refuses a radius that is not a positive finite number. -/
def checkRadius {α : Type} [Scalar α] (radius : α) : Except (StepError α) Unit :=
  if 0 < radius ∧ Scalar.isFinite radius then .ok () else .error (.invalidRadius radius)

@[simp] theorem checkSize_self {α : Type} (what : Quantity) (n : Nat) :
    (checkSize what n n : Except (StepError α) Unit) = .ok () := if_pos rfl

end TrustRegion
