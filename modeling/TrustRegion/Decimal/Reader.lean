import TrustRegion.Decimal.Binary64

/-!
# Reading numbers in decimal

The grammar of a number is

  `number ::= sign? (digits | digits "." digits? | "." digits) exponent?`,
  `exponent ::= ("e" | "E") sign? digits`,  `sign ::= "+" | "-"`,

with the digits `0` to `9`, or an optional sign and one of the words `inf`, `infinity` and `nan` in
any mixture of cases.  Nothing may surround it.  The value is the binary number nearest to the decimal
one, or infinity if that is too large.
-/

namespace TrustRegion

namespace Decimal

/-- A decimal number as it is written. -/
structure Written where
  /-- All digits, as one natural number. -/
  significand : Nat
  /-- The power of ten that goes with it. -/
  exponent : Int
  deriving DecidableEq, Repr

/-- The value of a row of digits, continuing a row that has been read before. -/
def value (before : Nat) (row : List Char) : Nat :=
  row.foldl (fun n c => 10 * n + (c.toNat - '0'.toNat)) before

/-- A sign, if there is one, and the rest. -/
def splitSign : List Char → Bool × List Char
  | '-' :: rest => (true, rest)
  | '+' :: rest => (false, rest)
  | text => (false, text)

/-- The digits at the front, and the rest. -/
def splitDigits (text : List Char) : List Char × List Char :=
  (text.takeWhile Char.isDigit, text.dropWhile Char.isDigit)

/-- The exponent of a number, which has to be all that is left of the text. -/
def exponent? : List Char → Option Int
  | [] => some 0
  | e :: text =>
    if e = 'e' ∨ e = 'E' then
      let (negative, text) := splitSign text
      let (row, rest) := splitDigits text
      if row.isEmpty ∨ ¬ rest.isEmpty then none
      else
        let n : Int := value 0 row
        some (if negative then -n else n)
    else none

/-- A number without sign. -/
def written? (text : List Char) : Option Written :=
  let (whole, rest) := splitDigits text
  let (fraction, rest) :=
    match rest with
    | '.' :: rest => splitDigits rest
    | _ => ([], rest)
  if whole.isEmpty ∧ fraction.isEmpty then none
  else (exponent? rest).map fun e =>
    { significand := value (value 0 whole) fraction, exponent := e - fraction.length }

/-- The binary number nearest to a decimal one.  A decimal number far outside the range of binary ones
is told by its number of digits and its exponent alone. -/
def Written.toFloat (w : Written) (negative : Bool) : Float :=
  let size := w.exponent + digitCount w.significand
  if w.significand = 0 ∨ size < -400 then Quotient.toFloat ⟨0, 1⟩ negative
  else if 400 < size then Quotient.toFloat ⟨Nat.pow 10 400, 1⟩ negative
  else (Quotient.shift ⟨w.significand, 1⟩ 10 w.exponent).toFloat negative

/-- The number with the given text. -/
def read? (text : String) : Option Float :=
  let (negative, rest) := splitSign text.toList
  let word := String.ofList (rest.map Char.toLower)
  if word = "nan" then some (0 / 0)
  else if word = "inf" ∨ word = "infinity" then some (if negative then -1 / 0 else 1 / 0)
  else (written? rest).map (·.toFloat negative)

end Decimal

end TrustRegion
