import TrustRegion.Error
import TrustRegion.Regime
import TrustRegion.Settings.LogLevel
import TrustRegion.Solver.Kind

/-!
# Events and turns

What happens on the way to a step is told in events, each with the numbers that belong to it.  A
computation returns its events in the order in which they happened; what is done with them is up to
the caller.

A call that changes something has three outcomes at once, which make up a `Turn`: the new state, an
answer, and the events on the way.  The state is there also where the answer is an error, because a
refused call may have changed something.
-/

namespace TrustRegion

/-- Something that happened while a step was computed. -/
inductive Event (α : Type) where
  /-- The cost that came with the inputs is not the cost of the residuals. -/
  | costDiffers (supplied derived : α)
  /-- The model has no positive curvature along the gradient. -/
  | flatCurvature (curvature : α)
  | cauchyPoint (gradientNorm curvature : α) (norm : Extended α)
  | gaussNewtonPoint (kind : SolverKind) (norm : α)
  | gaussNewtonUnavailable (kind : SolverKind) (error : SolveError α) (condition : Extended α)
  | gaussNewtonInside (norm radius : α)
  | cauchyStep (norm : Extended α) (radius : α) (clipped : Bool)
  /-- The path leaves the trust region after this share of its second segment. -/
  | crossing (share : α)
  /-- The step ends on the boundary, on the second segment of the path. -/
  | combinedStep (share radius : α)
  | initialized (parameters residuals : Nat) (kind : SolverKind)
  /-- The model predicts that the step makes the cost larger. -/
  | negativeReduction (reduction : α) (regime : Regime)
  deriving Repr

/-- How important an event is. -/
def Event.level {α : Type} : Event α → LogLevel
  | costDiffers .. => .debug
  | flatCurvature .. => .warn
  | cauchyPoint .. => .debug
  | gaussNewtonPoint .. => .debug
  | gaussNewtonUnavailable .. => .warn
  | gaussNewtonInside .. => .info
  | cauchyStep .. => .info
  | crossing .. => .debug
  | combinedStep .. => .info
  | initialized .. => .info
  | negativeReduction .. => .warn

/-- The outcome of a call: the state after it, the answer, and what happened, in order. -/
structure Turn (α σ ε ρ : Type) where
  state : σ
  result : Except ε ρ
  events : List (Event α)

/-- A call that is refused and changes nothing. -/
def Turn.refuse {α σ ε ρ : Type} (state : σ) (error : ε) : Turn α σ ε ρ := ⟨state, .error error, []⟩

end TrustRegion
