import TrustRegion.Model
import TrustRegion.Regime

/-!
# Step solvers

A trust-region method works with any solver that answers three calls: it is prepared for problems of
one size, it is given a problem, and it is asked for a step within a radius.  After a step it tells
whether the step ends on the boundary and by how much the model falls.

The three calls are the operations of the class `Stepper`; `Stepper.Call` makes them data, so that
one can speak of a whole history of calls.
-/

namespace TrustRegion

/-- A solver `σ` for trust-region steps with scalars `α`. -/
class Stepper (α : outParam Type) (σ : Type) where
  /-- Prepares for problems with `n` parameters and `m` residuals. -/
  init (s : σ) (n m : Nat) : Checked (Turn α σ (StepError α) Unit)
  setInputs (s : σ) (inputs : Linearization α) : Checked (Turn α σ (StepError α) Unit)
  /-- Computes a step within a radius, and writes it over `out`. -/
  computeStep (s : σ) (radius : α) (out : Vec α) : Checked (Turn α (σ × Vec α) (StepError α) Regime)
  /-- Does the last step end on the boundary? -/
  isMaxStep (s : σ) : Bool
  /-- By how much the model falls with the last step. -/
  predictedReduction (s : σ) : α

namespace Stepper

variable {α σ : Type}

/-- A call to a step solver. -/
inductive Call (α : Type) where
  | init (n m : Nat)
  | setInputs (inputs : Linearization α)
  | computeStep (radius : α) (out : Vec α)

/-- The answer to a call. -/
inductive Reply (α : Type) where
  /-- To the first two kinds of call. -/
  | done (result : Except (StepError α) Unit)
  /-- To the last one, with the vector as it is now. -/
  | stepped (result : Except (StepError α) Regime) (out : Vec α)

/-- The state, the answer and the events of one call. -/
structure Answered (α σ : Type) where
  state : σ
  reply : Reply α
  events : List (Event α)

/-- Makes a call. -/
def call [Stepper α σ] (s : σ) : Call α → Checked (Answered α σ)
  | .init n m => (init s n m).map fun t => ⟨t.state, .done t.result, t.events⟩
  | .setInputs inputs => (setInputs s inputs).map fun t => ⟨t.state, .done t.result, t.events⟩
  | .computeStep radius out =>
    (computeStep s radius out).map fun t => ⟨t.state.1, .stepped t.result t.state.2, t.events⟩

/-- Makes calls one after the other; the result is the state after the last one, with all answers. -/
def run [Stepper α σ] (s : σ) : List (Call α) → Checked (σ × List (Answered α σ))
  | [] => some (s, [])
  | c :: cs => do
    let answered ← call s c
    let (state, rest) ← run answered.state cs
    some (state, answered :: rest)

end Stepper

end TrustRegion
