import TrustRegion.Scalar

/-!
# Lengths that may be infinite

A minimiser along a ray may not exist, a smallest pivot may be asked of no pivots at all, and a
singular matrix has no condition number.  `Extended` adds one value to the scalars for these cases,
so that the arithmetic itself need not have an infinity.
-/

namespace TrustRegion

/-- A scalar, or a length beyond every scalar. -/
inductive Extended (α : Type) where
  | finite (x : α)
  | infinite
  deriving DecidableEq, Repr, Inhabited

namespace Extended

variable {α : Type} [Scalar α]

/-- The scalar that stands for the length where a number has to be written. -/
def toScalar : Extended α → α
  | finite x => x
  | infinite => Scalar.infinity

/-- Is the length at least `bound`?  The infinite one reaches everything that compares at all. -/
def reaches : Extended α → α → Bool
  | finite x, bound => decide (bound ≤ x)
  | infinite, bound => !Scalar.isNaN bound

/-- Is the length greater than `bound`?  The infinite one exceeds every finite and every negative
bound. -/
def exceeds : Extended α → α → Bool
  | finite x, bound => decide (bound < x)
  | infinite, bound => Scalar.isFinite bound || decide (bound < 0)

/-- The lesser of the length and a scalar; a NaN leaves the length as it is. -/
def meet : Extended α → α → Extended α
  | finite x, y => finite (Scalar.smaller x y)
  | infinite, y => if Scalar.isNaN y then infinite else finite y

end Extended

end TrustRegion
