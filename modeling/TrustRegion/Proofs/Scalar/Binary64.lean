import Mathlib
import TrustRegion.Proofs.Scalar.Comparison

/-!
# Comparisons of binary floating-point numbers

The arithmetic in which the algorithms run has lawful comparisons (`Binary64.lawfulOrder`).

A binary floating-point number is taken apart into a sign, an exponent and a significand before it is
compared.  The numbers among them have a place in one total order (`Binary64.place?`), from minus infinity
to infinity with both zeros in the middle, and a comparison is one of places (`Binary64.compare_eq`).  For
the root it is enough that packing keeps the sign (`Binary64.notNegative_unpack_pack`).
-/

namespace TrustRegion

namespace Binary64

open Float.Model
open Float.Model.UnpackedFloat (Sign)

/-! ## The order -/

/-- The place of a number in the order of all numbers. -/
structure Place where
  /-- Minus infinity, negative, zero, positive, or infinity. -/
  band : Int
  /-- The exponent, with the sign of the number. -/
  exponent : Int
  /-- The significand, with the sign of the number. -/
  significand : Int

/-- Places are compared by their bands, then by their exponents, then by their significands. -/
def Place.compare : Place → Place → Ordering :=
  compareLex (compareOn Place.band)
    (compareLex (compareOn Place.exponent) (compareOn Place.significand))

instance transCmp_compare : Std.TransCmp Place.compare :=
  inferInstanceAs (Std.TransCmp (compareLex _ _))

/-- The place of a number; there is none for a value that is not a number. -/
def place? : UnpackedFloat → Option Place
  | .notANumber => none
  | .infinity .negative => some ⟨-2, 0, 0⟩
  | .finite .negative m e _ => some ⟨-1, -e, -m⟩
  | .zero _ => some ⟨0, 0, 0⟩
  | .finite .positive m e _ => some ⟨1, e, m⟩
  | .infinity .positive => some ⟨2, 0, 0⟩

theorem compare_neg (x y : Int) : Ord.compare (-x) (-y) = (Ord.compare x y).swap := by
  rw [Int.compare_swap]
  unfold Ord.compare
  simp only [instOrdInt, compareOfLessAndEq]
  grind

theorem compare_natCast (x y : Nat) : Ord.compare (x : Int) (y : Int) = Ord.compare x y := by
  unfold Ord.compare
  simp only [instOrdInt, instOrdNat, compareOfLessAndEq]
  grind

theorem compare_finite_negative {m m' : Nat} {e e' : Int} (h : 0 < m) (h' : 0 < m') :
    (UnpackedFloat.finite .negative m e h).compare (.finite .negative m' e' h') =
      some (Place.compare ⟨-1, -e, -m⟩ ⟨-1, -e', -m'⟩) := by
  show some ((Ord.compare e e').then (Ord.compare m m')).swap =
    some ((Ord.compare (-e) (-e')).then (Ord.compare (-(m : Int)) (-(m' : Int))))
  rw [compare_neg, compare_neg, compare_natCast, Ordering.swap_then]

theorem compare_finite_positive {m m' : Nat} {e e' : Int} (h : 0 < m) (h' : 0 < m') :
    (UnpackedFloat.finite .positive m e h).compare (.finite .positive m' e' h') =
      some (Place.compare ⟨1, e, m⟩ ⟨1, e', m'⟩) := by
  show some ((Ord.compare e e').then (Ord.compare m m')) =
    some ((Ord.compare e e').then (Ord.compare (m : Int) (m' : Int)))
  rw [compare_natCast]

/-- A comparison is one of places. -/
theorem compare_eq (a b : UnpackedFloat) :
    a.compare b = (place? a).bind fun p => (place? b).map fun q => p.compare q := by
  rcases a with s | _ | s | ⟨s, m, e, h⟩ <;> rcases b with t | _ | t | ⟨t, m', e', h'⟩ <;>
    (try cases s) <;> (try cases t)
  case finite.finite.negative.negative => exact compare_finite_negative h h'
  case finite.finite.positive.positive => exact compare_finite_positive h h'
  all_goals rfl

variable {a b c : Float}

/-- The place of a packed number. -/
def placeOf? (a : Float) : Option Place := place? a.toModel.unpack

theorem le_iff : a ≤ b ↔ ∃ p q, placeOf? a = some p ∧ placeOf? b = some q ∧
    (p.compare q).isLE = true := by
  show decide (a.toModel.unpack.le b.toModel.unpack = true) = true ↔ _
  rw [decide_eq_true_iff]
  unfold UnpackedFloat.le placeOf?
  rw [compare_eq]
  cases place? a.toModel.unpack <;> cases place? b.toModel.unpack <;> simp

theorem lt_iff : a < b ↔ ∃ p q, placeOf? a = some p ∧ placeOf? b = some q ∧
    p.compare q = .lt := by
  show decide (a.toModel.unpack.lt b.toModel.unpack = true) = true ↔ _
  rw [decide_eq_true_iff]
  unfold UnpackedFloat.lt placeOf?
  rw [compare_eq]
  cases place? a.toModel.unpack <;> cases place? b.toModel.unpack <;> simp

/-! ## Zero and the root -/

/-- Is this no number, a zero, or a number with the positive sign? -/
def NotNegative : UnpackedFloat → Prop
  | .notANumber | .zero _ => True
  | .infinity s | .finite s .. => s = .positive

theorem notNegative_dite {c : Prop} [Decidable c] {u : c → UnpackedFloat} {v : ¬c → UnpackedFloat}
    (hu : ∀ h, NotNegative (u h)) (hv : ∀ h, NotNegative (v h)) : NotNegative (dite c u v) := by
  by_cases h : c
  · rw [dif_pos h]
    exact hu h
  · rw [dif_neg h]
    exact hv h

theorem notNegative_unpack_packComponents (exponent : BitVec 11) (mantissa : BitVec 52) :
    NotNegative (UnpackedFloat.unpack .binary64
      (UnpackedFloat.packComponents .binary64 .positive exponent mantissa)) := by
  unfold UnpackedFloat.unpack
  rw [UnpackedFloat.unpackSign_packComponents]
  dsimp only
  refine iteInduction (fun _ => ?_) fun _ => iteInduction (fun _ => ?_) fun _ => rfl
  · exact iteInduction (fun _ => rfl) fun _ => trivial
  · exact notNegative_dite (fun _ => trivial) fun _ => rfl

/-- To pack a number and to take it apart again keeps the positive sign. -/
theorem notNegative_unpack_pack {u : UnpackedFloat} (h : NotNegative u) : NotNegative (pack u).unpack := by
  show NotNegative (UnpackedFloat.unpack .binary64 (UnpackedFloat.pack .binary64 u))
  cases u with
  | notANumber => exact notNegative_unpack_packComponents _ _
  | infinity s => cases h; exact notNegative_unpack_packComponents _ _
  | zero s => cases s <;> trivial
  | finite s m e hm =>
      cases h
      unfold UnpackedFloat.pack
      dsimp only
      split
      · exact notNegative_unpack_packComponents _ _
      · split <;> exact notNegative_unpack_packComponents _ _

theorem notNegative_roundWithAccuracy (m : Nat) (e : Int) (accuracy : UnpackedFloat.Accuracy) :
    NotNegative (UnpackedFloat.roundWithAccuracy .binary64 .positive m e accuracy) := by
  unfold UnpackedFloat.roundWithAccuracy
  exact notNegative_dite (fun _ => trivial) fun _ => rfl

/-- Zero is the place in the middle. -/
theorem placeOf?_zero : placeOf? 0 = some ⟨0, 0, 0⟩ := rfl

/-- A number with the positive sign is not negative. -/
theorem not_lt_zero_of_notNegative (h : NotNegative a.toModel.unpack) : ¬a < 0 := by
  rw [lt_iff]
  rintro ⟨p, q, hp, hq, hlt⟩
  rw [placeOf?_zero] at hq
  cases hq
  unfold placeOf? at hp
  generalize a.toModel.unpack = u at h hp
  cases u with
  | notANumber => cases hp
  | infinity s => cases h; cases hp; cases hlt
  | zero s => cases hp; cases hlt
  | finite s m e hm => cases h; cases hp; cases hlt

theorem not_sqrt_neg (a : Float) : ¬a.sqrt < 0 := by
  refine not_lt_zero_of_notNegative ?_
  show NotNegative (pack (UnpackedFloat.sqrt .binary64 a.toModel.unpack)).unpack
  generalize a.toModel.unpack = u
  cases u with
  | notANumber => exact notNegative_unpack_pack trivial
  | infinity s =>
      cases s with
      | positive => exact notNegative_unpack_pack rfl
      | negative => exact notNegative_unpack_pack trivial
  | zero s => exact notNegative_unpack_pack trivial
  | finite s m e hm =>
      cases s with
      | positive => exact notNegative_unpack_pack (notNegative_roundWithAccuracy _ _ _)
      | negative => exact notNegative_unpack_pack trivial

/-- What is neither above nor below zero is a zero, and so is its modulus. -/
theorem abs_le_zero (h : a ≤ 0) (h' : 0 ≤ a) : a.abs ≤ 0 := by
  obtain ⟨p, q, hp, hq, hle⟩ := le_iff.1 h
  obtain ⟨q', p', hq', hp', hle'⟩ := le_iff.1 h'
  cases hq
  cases hq'
  obtain rfl : p = p' := Option.some.inj (hp.symm.trans hp')
  show Float.ofModel (pack a.toModel.unpack.abs) ≤ 0
  unfold placeOf? at hp
  generalize a.toModel.unpack = u at hp
  cases u with
  | notANumber => cases hp
  | zero s =>
      show Float.ofModel (pack (.zero .positive)) ≤ 0
      decide
  | infinity s =>
      cases s with
      | positive => cases hp; cases hle
      | negative => cases hp; cases hle'
  | finite s m e hm =>
      cases s with
      | positive => cases hp; cases hle
      | negative => cases hp; cases hle'

/-- **Binary floating-point numbers** have lawful comparisons. -/
instance lawfulOrder : Scalar.LawfulOrder Float where
  number_of_le h := by
    obtain ⟨p, q, hp, hq, -⟩ := le_iff.1 h
    exact ⟨le_iff.2 ⟨p, p, hp, hp, Std.ReflCmp.isLE_rfl⟩,
      le_iff.2 ⟨q, q, hq, hq, Std.ReflCmp.isLE_rfl⟩⟩
  le_trans h h' := by
    obtain ⟨p, q, hp, hq, hpq⟩ := le_iff.1 h
    obtain ⟨q', r, hq', hr, hqr⟩ := le_iff.1 h'
    obtain rfl : q = q' := Option.some.inj (hq.symm.trans hq')
    exact le_iff.2 ⟨p, r, hp, hr, Std.TransCmp.isLE_trans hpq hqr⟩
  le_total h h' := by
    obtain ⟨p, -, hp, -⟩ := le_iff.1 h
    obtain ⟨q, -, hq, -⟩ := le_iff.1 h'
    rw [le_iff, le_iff]
    have hswap : q.compare p = (p.compare q).swap := Std.OrientedCmp.eq_swap
    cases hpq : p.compare q with
    | lt => exact .inl ⟨p, q, hp, hq, by rw [hpq]; rfl⟩
    | eq => exact .inl ⟨p, q, hp, hq, by rw [hpq]; rfl⟩
    | gt => exact .inr ⟨q, p, hq, hp, by rw [hswap, hpq]; rfl⟩
  lt_iff {a b} := by
    rw [lt_iff, le_iff, le_iff]
    cases hp : placeOf? a with
    | none => simp
    | some p =>
      cases hq : placeOf? b with
      | none => simp
      | some q =>
        have hswap : q.compare p = (p.compare q).swap := Std.OrientedCmp.eq_swap
        cases hpq : p.compare q <;> simp [hswap, hpq]
  zero_le_zero := by decide
  abs_le_zero := abs_le_zero
  not_sqrt_neg := not_sqrt_neg

end Binary64

end TrustRegion
