import TrustRegion.Decimal.Rounding

/-!
# The parts of a binary floating-point number

A finite 64-bit number is a sign, a significand of at most 53 bits and an exponent of two.  Numbers
are taken apart into these, and a quotient of natural numbers is rounded to the nearest of them, both
without intermediate rounding.
-/

namespace TrustRegion

namespace Decimal

/-- A binary floating-point number, taken apart. -/
inductive Parts where
  | nan
  | infinite (negative : Bool)
  /-- The number `significand · 2 ^ exponent`, or its opposite. -/
  | finite (negative : Bool) (significand : Nat) (exponent : Int)
  deriving DecidableEq, Repr

/-- The least exponent of a finite number. -/
def leastExponent : Int := -1074

/-- The number of significands that belong to one exponent. -/
def significandRange : Nat := Nat.pow 2 52

/-- The parts of a number. -/
def Parts.ofFloat (x : Float) : Parts :=
  let bits := x.toBits.toNat
  let negative := Nat.pow 2 63 ≤ bits
  let biased := bits / significandRange % Nat.pow 2 11
  let fraction := bits % significandRange
  if biased = 2047 then (if fraction = 0 then .infinite negative else .nan)
  else if biased = 0 then .finite negative fraction leastExponent
  else .finite negative (significandRange + fraction) (leastExponent + (biased - 1 : Nat))

/-- The magnitude `significand · 2 ^ exponent`. -/
def magnitude (significand : Nat) (exponent : Int) : Quotient :=
  Quotient.shift ⟨significand, 1⟩ 2 exponent

/-- The bits of the number nearest to a quotient; too large a quotient gives infinity. -/
def Quotient.toBits (q : Quotient) : Nat :=
  if q.num = 0 then 0
  else
    let exponent := max leastExponent (q.binaryOrder - 52)
    let significand := (q.shift 2 (-exponent)).round
    let bits := (exponent - leastExponent).toNat * significandRange + significand
    min bits (2047 * significandRange)

/-- The number of the given sign nearest to a quotient. -/
def Quotient.toFloat (q : Quotient) (negative : Bool) : Float :=
  let bits := q.toBits + if negative then Nat.pow 2 63 else 0
  Float.ofBits (UInt64.ofNat bits)

end Decimal

end TrustRegion
