import TrustRegion.Linear.Cholesky
import TrustRegion.Solver.NormalEquations

/-!
# Solving by Cholesky factorisation

The Hessian is factored as it stands; only its lower triangle is read.  A pivot `L_ii²` that is not
greater than the tolerance times `B_ii` makes the system singular, which is the test of the scaled
system: scaling divides the pivot and the diagonal entry alike.
-/

namespace TrustRegion

/-- The buffer of the Cholesky solver. -/
structure CholeskySolver (α : Type) where
  /-- The factor of the last Hessian, or what is left of it. -/
  factor : Matrix α

namespace CholeskySolver

variable {α : Type} [Scalar α]

/-- A buffer for `n` unknowns. -/
def ofSize (n : Nat) : CholeskySolver α := ⟨Matrix.zeros n n⟩

/-- A buffer of the size for `n` unknowns: the one there is, if it has this size. -/
def room (w : CholeskySolver α) (n : Nat) : CholeskySolver α :=
  if w.factor.HasShape n n then w else ofSize n

/-- The pivot of the factor that belongs to unknown `i`. -/
def pivot (L : Matrix α) (i : Nat) : α := L.entry i i * L.entry i i

/-- The first pivot that does not exceed its threshold, with the threshold. -/
def weakPivot? (e : NormalEquations α) (L : Matrix α) (tolerance : α) : Option (α × α) :=
  ((List.range e.unknowns).map fun i => (pivot L i, tolerance * e.diagonal i)).find?
    fun p => !decide (p.2 < p.1)

/-- The first pivot that does not exceed its threshold, if the factor and the Hessian have a diagonal
entry for each unknown. -/
def checkPivots (e : NormalEquations α) (L : Matrix α) (tolerance : α) :
    Checked (Option (α × α)) :=
  if L.HasDiagonal e.unknowns ∧ e.hessian.HasDiagonal e.unknowns then
    some (weakPivot? e L tolerance)
  else none

theorem checkPivots_of_hasDiagonal {e : NormalEquations α} {L : Matrix α} (tolerance : α)
    (hL : L.HasDiagonal e.unknowns) (hB : e.hessian.HasDiagonal e.unknowns) :
    checkPivots e L tolerance = some (weakPivot? e L tolerance) := if_pos ⟨hL, hB⟩

/-- Solves `B p = -g` into `step`. -/
def solve (w : CholeskySolver α) (e : NormalEquations α) (tolerance : α) (step : Vec α) :
    Checked (Attempt α (CholeskySolver α)) :=
  let n := e.unknowns
  if e.Fits step.size then do
    match ← e.checkDiagonal with
    | some b => some ⟨.error (.singular (.finite b) 0), w, step⟩
    | none =>
      let work ← (w.room n).factor.copyFrom e.hessian
      match ← Cholesky.factor? work with
      | none => some ⟨.error .notPositiveDefinite, ofSize n, step⟩
      | some L =>
        match ← checkPivots e L tolerance with
        | some (pivot, threshold) =>
          some ⟨.error (.singular (.finite pivot) threshold), ⟨L⟩, step⟩
        | none =>
          let rhs ← step.copyFrom e.gradient
          let p ← Cholesky.solve? L rhs.neg
          some ⟨.ok (), ⟨L⟩, p⟩
  else some ⟨.error .dimensionMismatch, w, step⟩

end CholeskySolver

end TrustRegion
