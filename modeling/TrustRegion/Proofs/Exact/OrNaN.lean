import TrustRegion.Linear.Matrix

/-!
# Numbers, or no number

An arithmetic with one more value, which is no number: every operation on it gives it again, and it
compares with nothing, not even with itself.  What the arithmetic does with numbers is unchanged, so a
computation on numbers alone (`Vec.numbers`, `Matrix.numbers`) gives the number it gave before.

With exact real numbers this is the arithmetic in which one can ask what an algorithm does that is given
something else than a number.  No law of the arithmetic is used.
-/

namespace TrustRegion

/-- A scalar, or no number. -/
inductive OrNaN (α : Type) where
  | number (x : α)
  | nan

namespace OrNaN

/-! ## The arithmetic -/

variable {α : Type}

/-- An operation on one operand. -/
def map (f : α → α) : OrNaN α → OrNaN α
  | number x => number (f x)
  | nan => nan

/-- An operation on two operands. -/
def map₂ (f : α → α → α) : OrNaN α → OrNaN α → OrNaN α
  | number x, number y => number (f x y)
  | _, _ => nan

/-- A comparison, which holds between numbers only. -/
def Both (p : α → α → Prop) : OrNaN α → OrNaN α → Prop
  | number x, number y => p x y
  | _, _ => False

/-- A comparison can be decided if it can be for numbers. -/
def decideBoth {p : α → α → Prop} (decideNumbers : ∀ x y, Decidable (p x y)) :
    ∀ a b, Decidable (Both p a b)
  | number x, number y => decideNumbers x y
  | number _, nan => inferInstanceAs (Decidable False)
  | nan, _ => inferInstanceAs (Decidable False)

variable [Scalar α]

instance scalar : Scalar (OrNaN α) where
  zero := number 0
  one := number 1
  natCast n := number n
  add := map₂ (· + ·)
  sub := map₂ (· - ·)
  mul := map₂ (· * ·)
  div := map₂ (· / ·)
  neg := map (- ·)
  lt := Both (· < ·)
  le := Both (· ≤ ·)
  sqrt := map Scalar.sqrt
  abs := map Scalar.abs
  decideLt := decideBoth Scalar.decideLt
  decideLe := decideBoth Scalar.decideLe

theorem number_zero : number (0 : α) = 0 := rfl

theorem number_half : number (Scalar.half : α) = Scalar.half := rfl

@[simp] theorem number_add (x y : α) : number x + number y = number (x + y) := rfl

@[simp] theorem number_mul (x y : α) : number x * number y = number (x * y) := rfl

@[simp] theorem neg_number (x : α) : -number x = number (-x) := rfl

@[simp] theorem isNaN_nan : Scalar.isNaN (nan : OrNaN α) = true := rfl

@[simp] theorem isNaN_number (x : α) : Scalar.isNaN (number x) = Scalar.isNaN x := rfl

/-- A sum of numbers is the sum they have. -/
theorem sumFrom_number (start : α) (n : Nat) (f : Nat → α) :
    Scalar.sumFrom (number start) n (fun i => number (f i)) = number (Scalar.sumFrom start n f) := by
  induction n with
  | zero => rfl
  | succ n ih => rw [Scalar.sumFrom_succ, Scalar.sumFrom_succ, ih, number_add]

end OrNaN

open OrNaN

variable {α : Type} [Scalar α]

/-! ## Vectors of numbers -/

namespace Vec

/-- A vector, all of whose entries are numbers. -/
def numbers {α : Type} (x : Vec α) : Vec (OrNaN α) := ⟨x.coords.map number⟩

omit [Scalar α] in
@[simp] theorem size_numbers (x : Vec α) : x.numbers.size = x.size := by simp [numbers, size]

@[simp] theorem entry_numbers (x : Vec α) (i : Nat) : x.numbers.entry i = number (x.entry i) := by
  unfold entry numbers
  by_cases h : i < x.coords.size
  · simp [h]
  · simp [h, number_zero]

@[simp] theorem numbers_zeros (n : Nat) : (zeros n : Vec α).numbers = zeros n :=
  ext_entry (by simp) fun i _ => by rw [entry_numbers, entry_zeros, entry_zeros, number_zero]

@[simp] theorem inner_numbers (x y : Vec α) : x.numbers.inner y.numbers = number (x.inner y) := by
  unfold inner Scalar.sum
  simp only [size_numbers, entry_numbers, number_mul]
  exact sumFrom_number 0 x.size fun i => x.entry i * y.entry i

@[simp] theorem normSq_numbers (x : Vec α) : x.numbers.normSq = number x.normSq :=
  inner_numbers x x

end Vec

/-! ## Matrices of numbers -/

namespace Matrix

/-- A matrix, all of whose entries are numbers. -/
def numbers {α : Type} (A : Matrix α) : Matrix (OrNaN α) where
  rows := A.rows
  columns := A.columns.map Vec.numbers
  aligned := by
    intro c hc
    obtain ⟨x, hx, rfl⟩ := Array.mem_map.1 hc
    rw [Vec.size_numbers]
    exact A.aligned x hx

omit [Scalar α] in
@[simp] theorem rows_numbers (A : Matrix α) : A.numbers.rows = A.rows := rfl

omit [Scalar α] in
@[simp] theorem cols_numbers (A : Matrix α) : A.numbers.cols = A.cols := by simp [numbers, cols]

@[simp] theorem column_numbers (A : Matrix α) (j : Nat) :
    A.numbers.column j = (A.column j).numbers := by
  unfold column numbers
  by_cases h : j < A.columns.size
  · simp [h]
  · simp [h]

theorem numbers_tabulate (m n : Nat) (f : Nat → Nat → α) :
    (tabulate m n f).numbers = tabulate m n fun i j => number (f i j) := by
  refine ext_entry ⟨rfl, by simp⟩ fun i j hi hj => ?_
  have hi' : i < m := hi
  have hj' : j < n := by simpa using hj
  rw [entry_tabulate _ hi' hj', entry, column_numbers, Vec.entry_numbers, ← entry,
    entry_tabulate f hi' hj']

@[simp] theorem gram_numbers (A : Matrix α) : A.numbers.gram = A.gram.numbers := by
  unfold gram
  rw [numbers_tabulate]
  simp only [cols_numbers, column_numbers, Vec.inner_numbers]

end Matrix

end TrustRegion
