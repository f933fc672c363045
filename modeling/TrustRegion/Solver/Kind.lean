/-!
# The choice of a linear solver

The Gauss-Newton step can be computed in three ways, each with a name.
-/

namespace TrustRegion

/-- A way to compute the Gauss-Newton step. -/
inductive SolverKind where
  /-- Cholesky factorisation of the Hessian. -/
  | cholesky
  /-- Triangular factorisation of the scaled Hessian, with row exchanges. -/
  | lu
  /-- Orthogonal triangularisation of the scaled Jacobian. -/
  | qr
  deriving DecidableEq, Repr

namespace SolverKind

/-- The choice of one who makes none. -/
instance : Inhabited SolverKind := ⟨cholesky⟩

/-- All kinds, in the order in which they are offered. -/
def all : List SolverKind := [cholesky, lu, qr]

/-- The name of a kind. -/
def name : SolverKind → String
  | cholesky => "cholesky"
  | lu => "lu"
  | qr => "qr"

/-- The kind of a given name.  Letters of the basic Latin alphabet may be written in either case, and
nothing may surround the name. -/
def ofName? (text : String) : Option SolverKind :=
  all.find? fun kind => kind.name.toList = text.toList.map Char.toLower

end SolverKind

end TrustRegion
