import TrustRegion.Extended
import TrustRegion.Linear.Matrix

/-!
# Singular values and the condition number

The singular values of a matrix are the norms of its columns once these are orthogonal to each other.
Columns are made orthogonal pair by pair, by plane rotations from the right, which change no singular
value; sweeps over all pairs are repeated until one of them rotates nothing.

The entries are divided by the largest modulus among them first, so that no square overflows.
-/

namespace TrustRegion

namespace SingularValues

variable {α : Type} [Scalar α]

/-- The largest modulus of an entry. -/
def largestModulus (A : Matrix α) : α :=
  A.cols.fold (fun j _ m =>
    A.rows.fold (fun i _ m => Scalar.larger m (Scalar.abs (A.entry i j))) m) 0

/-- Two columns closer to orthogonal than this, relative to their lengths, are left as they are. -/
def negligible : α := Scalar.tenth 15

/-- The columns `x` and `y` after the plane rotation that makes them orthogonal, or nothing if they
are already. -/
def rotated? (x y : Vec α) : Option (Vec α × Vec α) :=
  let a := x.normSq
  let b := y.normSq
  let c := x.inner y
  if Scalar.abs c ≤ negligible * (Scalar.sqrt a * Scalar.sqrt b) then none
  else
    let z := (b - a) / (Scalar.two * c)
    let root := Scalar.abs z + Scalar.sqrt (1 + z * z)
    let tangent := if z < 0 then -(1 / root) else 1 / root
    let cosine := 1 / Scalar.sqrt (1 + tangent * tangent)
    let sine := cosine * tangent
    some
      (Vec.tabulate x.size fun i => cosine * x.entry i - sine * y.entry i,
        Vec.tabulate x.size fun i => sine * x.entry i + cosine * y.entry i)

/-- Columns, and whether any of them has been rotated. -/
structure Sweep (α : Type) where
  columns : Array (Vec α)
  /-- Has any pair been rotated? -/
  rotated : Bool

/-- The columns `p` and `q` made orthogonal. -/
def Sweep.visit (s : Sweep α) (p q : Nat) : Sweep α :=
  let empty := Vec.zeros 0
  match rotated? (s.columns.getD p empty) (s.columns.getD q empty) with
  | none => s
  | some (x, y) => { columns := (s.columns.setIfInBounds p x).setIfInBounds q y, rotated := true }

/-- Every pair of columns visited once. -/
def sweep (columns : Array (Vec α)) : Sweep α :=
  let n := columns.size
  n.fold (fun p _ s => (n - (p + 1)).fold (fun t _ s => s.visit p (p + 1 + t)) s)
    { columns, rotated := false }

/-- Sweeps until nothing is rotated any more, at most `limit` of them. -/
def orthogonalise : Nat → Array (Vec α) → Array (Vec α)
  | 0, columns => columns
  | limit + 1, columns =>
    let s := sweep columns
    if s.rotated then orthogonalise limit s.columns else s.columns

/-- The number of sweeps after which the columns are taken as they are. -/
def sweepLimit : Nat := 60

/-- The singular values, as many as the matrix has rows or columns, whichever are fewer. -/
def singularValues (A : Matrix α) : List α :=
  let scale := largestModulus A
  let B := if A.rows < A.cols then A.transpose else A
  let scaled := if Scalar.isZero scale then B
    else Matrix.tabulate B.rows B.cols fun i j => B.entry i j / scale
  (orthogonalise sweepLimit scaled.columns).toList.map fun c => c.norm * scale

end SingularValues

variable {α : Type} [Scalar α]

/-- The largest singular value divided by the least; infinite for a matrix without entries and
wherever the least singular value is not a positive number. -/
def Matrix.conditionNumber (A : Matrix α) : Extended α :=
  match SingularValues.singularValues A with
  | [] => .infinite
  | s :: ss =>
    let greatest := ss.foldl Scalar.larger s
    let least := ss.foldl Scalar.smaller s
    if least ≤ 0 ∨ Scalar.isFinite least = false then .infinite else .finite (greatest / least)

end TrustRegion
