/-!
# Scalars

The numbers on which every algorithm of this library runs.  An algorithm is written once, over the
class `Scalar`, and means what its arithmetic means: rounded binary numbers when it runs, exact real
numbers when a theorem speaks of it, and anything in between.

The class asks for operations only and for no law.  Comparisons are propositions that can be
decided, so an arithmetic with a value that compares with nothing (a NaN) is welcome; for that
reason the code below never replaces `¬ a < b` by `b ≤ a`.  All special cases are derived from the
comparisons:

* `Scalar.isNaN` — the value is not even `≤` itself;
* `Scalar.isFinite` — subtracting the value from itself leaves zero;
* `Scalar.larger`, `Scalar.smaller` — the greater and the lesser of two values, where a NaN gives
  way to the other operand.
-/

namespace TrustRegion

/-- Arithmetic with a square root, an absolute value and decidable comparisons. -/
class Scalar (α : Type) extends Zero α, One α, NatCast α, Add α, Sub α, Mul α, Div α, Neg α,
    LT α, LE α where
  sqrt : α → α
  abs : α → α
  decideLt : DecidableLT α
  decideLe : DecidableLE α

instance Scalar.decidableLT {α : Type} [Scalar α] : DecidableLT α := Scalar.decideLt

instance Scalar.decidableLE {α : Type} [Scalar α] : DecidableLE α := Scalar.decideLe

namespace Scalar

variable {α : Type} [Scalar α]

/-! ## Constants -/

/-- The number two. -/
def two : α := 1 + 1

/-- The number one half. -/
def half : α := 1 / two

/-- What arithmetic with infinities gives for one divided by zero. -/
def infinity : α := 1 / 0

/-- Ten to the power `-k`. -/
def tenth (k : Nat) : α := 1 / (Nat.pow 10 k : α)

/-! ## Special values -/

/-- Zero, of either sign. -/
def isZero (x : α) : Bool := decide (x ≤ 0) && decide (0 ≤ x)

/-- A value that does not compare with itself. -/
def isNaN (x : α) : Bool := !decide (x ≤ x)

/-- Only a finite value differs from itself by zero. -/
def isFinite (x : α) : Bool := isZero (x - x)

/-! ## Order -/

/-- The greater of two values; a NaN gives way to the other operand. -/
def larger (a b : α) : α :=
  if isNaN a then b else if isNaN b then a else if a < b then b else a

/-- The lesser of two values; a NaN gives way to the other operand. -/
def smaller (a b : α) : α :=
  if isNaN a then b else if isNaN b then a else if b < a then b else a

/-- The value nearest to `x` between `low` and `high`; a NaN stays as it is. -/
def clamp (low high x : α) : α := if x < low then low else if high < x then high else x

/-! ## Sums -/

/-- `start + f 0 + f 1 + … + f (n - 1)`, added from the left. -/
def sumFrom (start : α) (n : Nat) (f : Nat → α) : α := n.fold (fun i _ s => s + f i) start

/-- `f 0 + f 1 + … + f (n - 1)`, added from the left to zero. -/
def sum (n : Nat) (f : Nat → α) : α := sumFrom 0 n f

/-- `start - f 0 - f 1 - … - f (n - 1)`, subtracted from the left. -/
def less (start : α) (n : Nat) (f : Nat → α) : α := n.fold (fun i _ s => s - f i) start

@[simp] theorem sumFrom_zero (start : α) (f : Nat → α) : sumFrom start 0 f = start := rfl

theorem sumFrom_succ (start : α) (n : Nat) (f : Nat → α) :
    sumFrom start (n + 1) f = sumFrom start n f + f n := by
  simp [sumFrom, Nat.fold_succ]

@[simp] theorem sum_zero (f : Nat → α) : sum 0 f = 0 := rfl

theorem sum_succ (n : Nat) (f : Nat → α) : sum (n + 1) f = sum n f + f n := sumFrom_succ 0 n f

@[simp] theorem less_zero (start : α) (f : Nat → α) : less start 0 f = start := rfl

theorem less_succ (start : α) (n : Nat) (f : Nat → α) :
    less start (n + 1) f = less start n f - f n := by
  simp [less, Nat.fold_succ]

end Scalar

/-! ## Binary floating point -/

/-- The arithmetic in which the algorithms run: 64-bit binary floating point, rounded to nearest. -/
instance : Scalar Float where
  natCast n := Float.ofNat n
  sqrt := Float.sqrt
  abs := Float.abs
  decideLt := inferInstance
  decideLe := inferInstance

end TrustRegion
