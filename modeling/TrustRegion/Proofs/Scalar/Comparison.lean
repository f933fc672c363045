import TrustRegion.Linear.Triangular

/-!
# Comparisons

Most of what a solver does is arithmetic, but what it decides, it decides by comparisons.  The laws of
`Scalar.LawfulOrder` are those that comparisons have in every arithmetic with special values: the numbers
are ordered, zeros of both signs are one number, and a value that is not a number compares with nothing.
Nothing is asked of sums and products.

These laws tell what the least pivot of a triangular matrix says about the others
(`Matrix.exceeds_leastPivot_iff`): a pivot that is not a number is passed over.  In any case a pivot that is
zero is not passed over, unless the bound is negative (`Matrix.isZero_eq_false_of_exceeds`).
-/

namespace TrustRegion

namespace Scalar

/-- The order of an arithmetic that may have values which are no numbers. -/
class LawfulOrder (α : Type) [Scalar α] : Prop where
  /-- Only numbers compare. -/
  number_of_le {a b : α} : a ≤ b → a ≤ a ∧ b ≤ b
  le_trans {a b c : α} : a ≤ b → b ≤ c → a ≤ c
  /-- Any two numbers compare. -/
  le_total {a b : α} : a ≤ a → b ≤ b → a ≤ b ∨ b ≤ a
  /-- A strict comparison is one that does not hold the other way round. -/
  lt_iff {a b : α} : a < b ↔ a ≤ b ∧ ¬b ≤ a
  zero_le_zero : (0 : α) ≤ 0
  /-- The modulus of a zero, of either sign, is zero. -/
  abs_le_zero {a : α} : a ≤ 0 → 0 ≤ a → Scalar.abs a ≤ 0
  not_sqrt_neg (a : α) : ¬Scalar.sqrt a < 0

namespace LawfulOrder

variable {α : Type} [Scalar α] [LawfulOrder α] {a b c : α}

theorem number_of_lt (h : a < b) : a ≤ a ∧ b ≤ b := number_of_le (lt_iff.1 h).1

theorem lt_of_lt_of_le (h : a < b) (h' : b ≤ c) : a < c :=
  lt_iff.2 ⟨le_trans (lt_iff.1 h).1 h', fun hca => (lt_iff.1 h).2 (le_trans h' hca)⟩

theorem lt_of_le_of_lt (h : a ≤ b) (h' : b < c) : a < c :=
  lt_iff.2 ⟨le_trans h (lt_iff.1 h').1, fun hca => (lt_iff.1 h').2 (le_trans hca h)⟩

theorem le_of_not_lt (ha : a ≤ a) (hb : b ≤ b) (h : ¬b < a) : a ≤ b :=
  (le_total ha hb).elim id fun hba => Decidable.byContradiction fun hab => h (lt_iff.2 ⟨hba, hab⟩)

omit [LawfulOrder α] in
theorem isNaN_eq_false_iff : isNaN a = false ↔ a ≤ a := by simp [isNaN]

/-- The lesser of two numbers is one of them and not greater than either. -/
theorem smaller_spec (ha : a ≤ a) (hb : b ≤ b) :
    (smaller a b = a ∨ smaller a b = b) ∧ smaller a b ≤ a ∧ smaller a b ≤ b := by
  unfold smaller
  rw [isNaN_eq_false_iff.2 ha, isNaN_eq_false_iff.2 hb]
  simp only [Bool.false_eq_true, if_false]
  split
  · rename_i h
    exact ⟨.inr rfl, (lt_iff.1 h).1, hb⟩
  · rename_i h
    exact ⟨.inl rfl, ha, le_of_not_lt ha hb h⟩

omit [LawfulOrder α] in
/-- Beside a value that is not a number, a number is the lesser one. -/
theorem smaller_of_isNaN (ha : a ≤ a) (hb : isNaN b = true) : smaller a b = a := by
  unfold smaller
  rw [isNaN_eq_false_iff.2 ha, hb]
  rfl

/-- What is neither negative nor exceeded has a modulus above zero, so it is no zero. -/
theorem isZero_eq_false_of_lt_abs (hb : ¬b < 0) (h : b < Scalar.abs a) : isZero a = false := by
  have hpos : 0 < Scalar.abs a :=
    lt_of_le_of_lt (le_of_not_lt zero_le_zero (number_of_lt h).1 hb) h
  refine Bool.eq_false_iff.2 fun hz => ?_
  simp only [isZero, Bool.and_eq_true, decide_eq_true_eq] at hz
  exact (lt_iff.1 hpos).2 (abs_le_zero hz.1 hz.2)

/-- A zero is a number. -/
theorem isZero_eq_false_of_isNaN_abs (h : isNaN (Scalar.abs a) = true) : isZero a = false := by
  refine Bool.eq_false_iff.2 fun hz => ?_
  simp only [isZero, Bool.and_eq_true, decide_eq_true_eq] at hz
  rw [isNaN_eq_false_iff.2 (number_of_le (abs_le_zero hz.1 hz.2)).1] at h
  cases h

end LawfulOrder

end Scalar

namespace Matrix

open Scalar Scalar.LawfulOrder

variable {α : Type} [Scalar α] [LawfulOrder α] {A : Matrix α} {n : Nat} {bound : α}

/-- Is this the least of the moduli that are numbers, or infinite if there are none? -/
def IsLeastPivot (A : Matrix α) (n : Nat) : Extended α → Prop
  | .infinite => ∀ i < n, isNaN (Scalar.abs (A.entry i i)) = true
  | .finite d => d ≤ d ∧ (∃ i < n, d = Scalar.abs (A.entry i i)) ∧
      ∀ i < n, isNaN (Scalar.abs (A.entry i i)) = true ∨ d ≤ Scalar.abs (A.entry i i)

omit [LawfulOrder α] in
/-- A modulus that is no number changes nothing. -/
theorem IsLeastPivot.succ_of_isNaN {d : Extended α} (h : A.IsLeastPivot n d)
    (hnan : isNaN (Scalar.abs (A.entry n n)) = true) : A.IsLeastPivot (n + 1) d := by
  cases d with
  | infinite =>
      intro i hi
      rcases Nat.lt_succ_iff_lt_or_eq.1 hi with hlt | rfl
      · exact h i hlt
      · exact hnan
  | finite d =>
      obtain ⟨hd, ⟨k, hk, hdk⟩, hall⟩ := h
      refine ⟨hd, ⟨k, by omega, hdk⟩, fun i hi => ?_⟩
      rcases Nat.lt_succ_iff_lt_or_eq.1 hi with hlt | rfl
      · exact hall i hlt
      · exact .inl hnan

/-- A modulus that is a number becomes the least one, or leaves it as it is. -/
theorem IsLeastPivot.succ_of_number {d : Extended α} (h : A.IsLeastPivot n d)
    (hnum : Scalar.abs (A.entry n n) ≤ Scalar.abs (A.entry n n)) :
    A.IsLeastPivot (n + 1) (d.meet (Scalar.abs (A.entry n n))) := by
  cases d with
  | infinite =>
      rw [Extended.meet, isNaN_eq_false_iff.2 hnum]
      refine ⟨hnum, ⟨n, Nat.lt_succ_self n, rfl⟩, fun i hi => ?_⟩
      rcases Nat.lt_succ_iff_lt_or_eq.1 hi with hlt | rfl
      · exact .inl (h i hlt)
      · exact .inr hnum
  | finite d =>
      obtain ⟨hd, ⟨k, hk, hdk⟩, hall⟩ := h
      obtain ⟨hmem, hle, hle'⟩ := smaller_spec hd hnum
      refine ⟨(number_of_le hle).1, ?_, fun i hi => ?_⟩
      · rcases hmem with heq | heq
        · exact ⟨k, by omega, heq.trans hdk⟩
        · exact ⟨n, Nat.lt_succ_self n, heq⟩
      · rcases Nat.lt_succ_iff_lt_or_eq.1 hi with hlt | rfl
        · exact (hall i hlt).imp_right (le_trans hle)
        · exact .inr hle'

theorem isLeastPivot_leastPivot (A : Matrix α) (n : Nat) : A.IsLeastPivot n (A.leastPivot n) := by
  induction n with
  | zero => exact fun i hi => absurd hi (Nat.not_lt_zero i)
  | succ n ih =>
      rw [leastPivot]
      cases hnan : isNaN (Scalar.abs (A.entry n n)) with
      | false => exact ih.succ_of_number (isNaN_eq_false_iff.1 hnan)
      | true =>
          -- beside a modulus that is no number the least one stays
          have hmeet : (A.leastPivot n).meet (Scalar.abs (A.entry n n)) = A.leastPivot n := by
            cases hleast : A.leastPivot n with
            | infinite => rw [Extended.meet, if_pos hnan]
            | finite d =>
                rw [hleast] at ih
                rw [Extended.meet, smaller_of_isNaN ih.1 hnan]
          rw [hmeet]
          exact ih.succ_of_isNaN hnan

/-- **What the least pivot tells.**  It exceeds a bound exactly if all pivots that are numbers do; if there
are none, the bound has to be one that the infinite length exceeds. -/
theorem exceeds_leastPivot_iff :
    (A.leastPivot n).exceeds bound = true ↔
      (∀ i < n, isNaN (Scalar.abs (A.entry i i)) = true ∨ bound < Scalar.abs (A.entry i i)) ∧
        ((Extended.infinite : Extended α).exceeds bound = true ∨
          ∃ i < n, bound < Scalar.abs (A.entry i i)) := by
  have hleast := A.isLeastPivot_leastPivot n
  cases hd : A.leastPivot n with
  | infinite =>
      rw [hd] at hleast
      refine ⟨fun h => ⟨fun i hi => .inl (hleast i hi), .inl h⟩, ?_⟩
      rintro ⟨-, h | ⟨i, hi, h⟩⟩
      · exact h
      · have hnum := isNaN_eq_false_iff.2 (number_of_lt h).2
        rw [hleast i hi] at hnum
        cases hnum
  | finite d =>
      rw [hd] at hleast
      obtain ⟨hnum, ⟨k, hk, rfl⟩, hall⟩ := hleast
      simp only [Extended.exceeds, decide_eq_true_eq]
      refine ⟨fun h => ⟨fun i hi => (hall i hi).imp_right (lt_of_lt_of_le h), .inr ⟨k, hk, h⟩⟩, ?_⟩
      rintro ⟨h, -⟩
      refine (h k hk).resolve_left fun hnan => ?_
      rw [isNaN_eq_false_iff.2 hnum] at hnan
      cases hnan

/-- If the least pivot exceeds a bound that is not negative, there is no zero among the pivots. -/
theorem isZero_eq_false_of_exceeds (h : (A.leastPivot n).exceeds bound = true) (hb : ¬bound < 0) :
    ∀ i < n, isZero (A.entry i i) = false := fun i hi =>
  ((exceeds_leastPivot_iff.1 h).1 i hi).elim isZero_eq_false_of_isNaN_abs
    (isZero_eq_false_of_lt_abs hb)

end Matrix

end TrustRegion
