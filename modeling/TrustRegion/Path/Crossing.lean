import TrustRegion.Linear.Vec

/-!
# Where a segment leaves a ball

The segment from `p` to `q` leaves the ball of radius `δ` about the origin at `p + τ (q - p)`, where
`τ` solves `a τ² + b τ + c = 0` with

  `a = ‖q - p‖²`,  `b = 2 p·(q - p)`,  `c = ‖p‖² - δ²`.

Lengths are measured in units of `δ`, so that nothing overflows that need not, and `c` is written
as a product, so that it keeps its digits when `p` is close to the sphere.  Of the two formulas for
the greater root the one is taken that subtracts nothing.
-/

namespace TrustRegion

namespace Crossing

variable {α : Type} [Scalar α]

/-- The coefficients of the quadratic equation, in units of the radius. -/
structure Coefficients (α : Type) where
  /-- The square of the length of the segment. -/
  a : α
  /-- Twice the inner product of the start with the direction of the segment. -/
  b : α
  /-- The square of the norm of the start, less one. -/
  c : α

/-- The coefficients for the segment from `p` to `q`. -/
def coefficients (p q : Vec α) (radius : α) : Coefficients α :=
  let n := min p.size q.size
  let start (i : Nat) : α := p.entry i / radius
  let direction (i : Nat) : α := q.entry i / radius - start i
  let norm := p.norm / radius
  { a := Scalar.sum n fun i => direction i * direction i
    b := (Scalar.sum n fun i => start i * direction i) * Scalar.two
    c := (norm + 1) * (norm - 1) }

/-- The discriminant, or zero if rounding has made it negative. -/
def discriminant (k : Coefficients α) : α :=
  Scalar.larger (k.b * k.b - ((4 : Nat) : α) * k.a * k.c) 0

/-- The greater root. -/
def root (k : Coefficients α) : α :=
  let width := Scalar.sqrt (discriminant k)
  if 0 < k.b then -Scalar.two * k.c / (k.b + width) else (-k.b + width) / (Scalar.two * k.a)

/-- The share `τ`, between zero and one, of the segment from `p` to `q` that lies inside the ball; one
if the segment has no length. -/
def share (p q : Vec α) (radius : α) : α :=
  let k := coefficients p q radius
  if k.a ≤ 0 then 1 else Scalar.clamp 0 1 (root k)

/-- A way to find the share of the segment between two vectors within a radius; it need not know every share. -/
abbrev Method (α : Type) := Vec α → Vec α → α → Checked α

/-- The computation of the share, which knows them all. -/
def known : Method α := fun p q radius => some (share p q radius)

end Crossing

namespace Vec

variable {α : Type} [Scalar α]

/-- The point after the share `t` of the segment from `x` to `y`. -/
def towards (x y : Vec α) (t : α) : Checked (Vec α) :=
  if x.size = y.size then
    some (tabulate x.size fun i => x.entry i + t * (y.entry i - x.entry i))
  else none

theorem towards_of_size {x y : Vec α} (t : α) (h : x.size = y.size) :
    x.towards y t = some (tabulate x.size fun i => x.entry i + t * (y.entry i - x.entry i)) :=
  if_pos h

end Vec

end TrustRegion
