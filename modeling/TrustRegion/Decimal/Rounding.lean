/-!
# Rounding quotients

The arithmetic of natural numbers behind every conversion between binary and decimal numbers: a
positive number is a quotient of two natural numbers, and a quotient is rounded to a natural number
without error.
-/

namespace TrustRegion

namespace Decimal

/-- The natural number nearest to `num / den`; of two equally near ones the even one. -/
def roundDiv (num den : Nat) : Nat :=
  let q := num / den
  let twice := 2 * (num % den)
  if twice < den then q else if den < twice then q + 1 else if q % 2 = 0 then q else q + 1

/-- A rounded quotient is within half a unit of the quotient. -/
theorem roundDiv_near {num den : Nat} (h : 0 < den) :
    2 * (roundDiv num den * den) ≤ 2 * num + den ∧
      2 * num ≤ 2 * (roundDiv num den * den) + den := by
  have hdm : num / den * den + num % den = num := Nat.div_add_mod' num den
  have hlt : num % den < den := Nat.mod_lt num h
  have hsucc : (num / den + 1) * den = num / den * den + den := Nat.succ_mul _ _
  rw [roundDiv]
  split
  · omega
  · split
    · omega
    · split <;> omega

/-- A quotient halfway between two natural numbers goes to the even one. -/
theorem roundDiv_tie {num den : Nat} (h : 2 * (num % den) = den) :
    roundDiv num den % 2 = 0 := by
  rw [roundDiv]
  rw [h, if_neg (Nat.lt_irrefl _), if_neg (Nat.lt_irrefl _)]
  split <;> omega

/-- The number of decimal digits of a natural number. -/
def digitCount (n : Nat) : Nat := (Nat.toDigits 10 n).length

/-- The decimal digits of a natural number. -/
def digits (n : Nat) : String := String.ofList (Nat.toDigits 10 n)

/-- A run of zeros. -/
def zeros (n : Nat) : String := String.ofList (List.replicate n '0')

/-- A quotient of natural numbers. -/
structure Quotient where
  num : Nat
  den : Nat
  deriving DecidableEq, Repr

namespace Quotient

/-- The quotient multiplied by a power of a base. -/
def shift (q : Quotient) (base : Nat) (exponent : Int) : Quotient :=
  match exponent with
  | .ofNat k => { q with num := q.num * Nat.pow base k }
  | .negSucc k => { q with den := q.den * Nat.pow base (k + 1) }

/-- The exponent of the greatest power of ten that is not greater than a positive quotient. -/
def order (q : Quotient) : Int :=
  if q.den ≤ q.num then ((digitCount (q.num / q.den) - 1 : Nat) : Int)
  else -((digitCount ((q.den + q.num - 1) / q.num - 1) : Nat) : Int)

/-- The exponent of the greatest power of two that is not greater than a positive quotient. -/
def binaryOrder (q : Quotient) : Int :=
  let estimate : Int := (q.num.log2 : Int) - (q.den.log2 : Int)
  let scaled := q.shift 2 (-estimate)
  if scaled.den ≤ scaled.num then estimate else estimate - 1

/-- The quotient rounded to a natural number. -/
def round (q : Quotient) : Nat := roundDiv q.num q.den

end Quotient

end Decimal

end TrustRegion
