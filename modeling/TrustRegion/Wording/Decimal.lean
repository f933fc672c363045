import TrustRegion.Decimal.Binary64
import TrustRegion.Wording

/-!
# Numbers in messages

Three ways to write a number, which are the number formats of messages (`NumberWriter.decimal`).  All of them start from its exact value.

* `Decimal.scientific` writes a given number of digits after the first one, and an exponent of ten
  without padding or plus sign.  A tie goes to the even digit.
* `Decimal.fixed` writes a given number of digits after the point.  A tie goes to the even digit.
* `Decimal.shortest` writes the fewest digits from which the number can be read back, and of those the
  nearest.  It never uses an exponent, and writes integers without a point.

The sign of zero is written.  Values that are not finite are written `NaN`, `inf` and `-inf`.
-/

namespace TrustRegion

namespace Decimal

/-! ## Common parts -/

/-- The text of a number, given the text of each finite magnitude. -/
def withSign (finite : Nat → Int → String) (x : Float) : String :=
  let sign (negative : Bool) := if negative then "-" else ""
  match Parts.ofFloat x with
  | .nan => "NaN"
  | .infinite negative => sign negative ++ "inf"
  | .finite negative significand exponent => sign negative ++ finite significand exponent

/-- A natural number over a power of ten, with that many digits after the point. -/
def pointed (n places : Nat) : String :=
  let text := digits n
  let padded := zeros (places + 1 - text.length) ++ text
  if places = 0 then padded
  else
    let whole := padded.length - places
    String.ofList (padded.toList.take whole) ++ "." ++ String.ofList (padded.toList.drop whole)

/-! ## A given number of digits -/

/-- A positive quotient rounded to `places + 1` digits, and the exponent of the first of them. -/
def leading (q : Quotient) (places : Nat) : Nat × Int :=
  let order := q.order
  let n := (q.shift 10 (places - order)).round
  if n = Nat.pow 10 (places + 1) then (Nat.pow 10 places, order + 1) else (n, order)

/-- Scientific notation with `places` digits after the point. -/
def scientific (places : Nat) : Float → String :=
  withSign fun significand exponent =>
    let (n, order) :=
      if significand = 0 then (0, 0) else leading (magnitude significand exponent) places
    pointed n places ++ "e" ++ toString order

/-- Positional notation with `places` digits after the point. -/
def fixed (places : Nat) : Float → String :=
  withSign fun significand exponent =>
    pointed ((magnitude significand exponent).shift 10 places).round places

/-! ## The fewest digits -/

/-- The numbers that are read back as a given one, as quotients with a common divisor; the ends belong
to them or not. -/
structure Neighbourhood where
  low : Nat
  middle : Nat
  high : Nat
  /-- The common divisor. -/
  den : Nat
  /-- Do the ends belong to it? -/
  closed : Bool

/-- The numbers that are read back as `significand · 2 ^ exponent`.  Below a power of two the distance
to the next number is halved, except at the least exponent. -/
def Neighbourhood.of (significand : Nat) (exponent : Int) : Neighbourhood :=
  let below := if significand = significandRange ∧ leastExponent < exponent then 1 else 2
  let scale := Quotient.shift ⟨1, 1⟩ 2 (exponent - 2)
  { low := (4 * significand - below) * scale.num
    middle := 4 * significand * scale.num
    high := (4 * significand + 2) * scale.num
    den := scale.den
    closed := significand % 2 = 0 }

/-- Does a point lie in the neighbourhood?  It is given as a multiple of one over the divisor. -/
def Neighbourhood.holds (v : Neighbourhood) (point : Nat) : Bool :=
  if v.closed then v.low ≤ point && point ≤ v.high else v.low < point && point < v.high

/-- The same numbers, with every end and the divisor multiplied so that multiples of `10 ^ place` are
natural multiples of the divisor. -/
def Neighbourhood.atPlace (v : Neighbourhood) (place : Int) : Neighbourhood :=
  match place with
  | .ofNat k => { v with den := v.den * Nat.pow 10 k }
  | .negSucc k =>
    let c := Nat.pow 10 (k + 1)
    { v with low := v.low * c, middle := v.middle * c, high := v.high * c }

/-- The multiple of `10 ^ place` in the neighbourhood that is nearest to its middle, if there is one;
of two equally near ones the greater. -/
def Neighbourhood.nearest? (v : Neighbourhood) (place : Int) : Option Nat :=
  let w := v.atPlace place
  let n := w.middle / w.den
  let lower := n * w.den
  let upper := (n + 1) * w.den
  let preferUpper : Bool := upper - w.middle ≤ w.middle - lower
  match w.holds lower, w.holds upper with
  | true, true => some (if preferUpper then n + 1 else n)
  | true, false => some n
  | false, true => some (n + 1)
  | false, false => none

/-- The first grid, from coarse to fine, with a multiple in the neighbourhood. -/
def Neighbourhood.search (v : Neighbourhood) : Nat → Int → Nat × Int
  | 0, place => (v.middle / v.den, place)
  | grids + 1, place =>
    match v.nearest? place with
    | some n => (n, place)
    | none => search v grids (place - 1)

/-- The number `n · 10 ^ place` in positional notation. -/
def positional (n : Nat) : Int → String
  | .ofNat k => digits n ++ zeros k
  | .negSucc k => pointed n (k + 1)

/-- Trailing zeros moved into the power of ten. -/
def trimmed (n : Nat) (place : Int) : Nat × Int :=
  if h : 0 < n ∧ n % 10 = 0 then trimmed (n / 10) (place + 1) else (n, place)
termination_by n
decreasing_by omega

/-- Positional notation with the fewest digits from which the number can be read back. -/
def shortest : Float → String :=
  withSign fun significand exponent =>
    if significand = 0 then "0"
    else
      let order := (magnitude significand exponent).order
      let (n, place) := (Neighbourhood.of significand exponent).search 18 order
      let (n, place) := trimmed n place
      positional n place

end Decimal

/-- The formats of 64-bit binary numbers. -/
def NumberWriter.decimal : NumberWriter Float :=
  { plain := Decimal.shortest, scientific := Decimal.scientific, fixed := Decimal.fixed }

end TrustRegion
