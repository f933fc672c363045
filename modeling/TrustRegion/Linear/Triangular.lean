import TrustRegion.Extended
import TrustRegion.Linear.Matrix

/-!
# Triangular systems

Substitution in a triangular system `T x = b`, one unknown after the other.  Each sweep is a
recursion on the number of unknowns already settled, and each of its steps is a function of its own:
the vector starts as the right-hand side, and where an unknown is settled its value takes the place
of the entry of the right-hand side that it came from.

* `Triangular.forward` goes down a lower triangular matrix, by columns.
* `Triangular.backward` goes up an upper triangular matrix, by columns.  It is the only sweep that
  looks for zeros on the diagonal; it stops at the first one, with the vector it has reached.
* `Triangular.adjoint` goes up the transpose of a lower triangular matrix, by rows.

Entries on the other side of the diagonal are never read.  How far a triangular matrix is from being
singular is judged by the least modulus on its diagonal, `Matrix.leastPivot`.
-/

namespace TrustRegion

namespace Triangular

variable {α : Type} [Scalar α]

/-! ## Down a lower triangular matrix -/

/-- Settles unknown `k` with the given diagonal and takes its share off the entries below. -/
def forwardStep (L : Matrix α) (diagonal : Nat → α) (b : Vec α) (k : Nat) : Vec α :=
  let x := b.entry k / diagonal k
  Vec.tabulate b.size fun i =>
    if i < k then b.entry i else if i = k then x else b.entry i - x * L.entry i k

/-- The first `k` unknowns settled, from the top. -/
def forward (L : Matrix α) (diagonal : Nat → α) : Nat → Vec α → Vec α
  | 0, b => b
  | k + 1, b => forwardStep L diagonal (forward L diagonal k b) k

/-! ## Up an upper triangular matrix -/

/-- Settles unknown `k` and takes its share off the entries above. -/
def backwardStep (U : Matrix α) (b : Vec α) (k : Nat) : Vec α :=
  let x := b.entry k / U.entry k k
  Vec.tabulate b.size fun i =>
    if i < k then b.entry i - x * U.entry i k else if i = k then x else b.entry i

/-- The first `k` unknowns settled, from the bottom; an error holds the vector reached when the
diagonal showed a zero. -/
def backward (U : Matrix α) : Nat → Vec α → Except (Vec α) (Vec α)
  | 0, b => .ok b
  | k + 1, b =>
    if Scalar.isZero (U.entry k k) then .error b else backward U k (backwardStep U b k)

/-- All unknowns settled, from the bottom, if the matrix has a column for each entry of the vector, and
rows enough. -/
def backward? (U : Matrix α) (b : Vec α) : Checked (Except (Vec α) (Vec α)) :=
  if U.cols = b.size ∧ b.size ≤ U.rows then some (backward U b.size b) else none

theorem backward?_of_size {U : Matrix α} {b : Vec α} (h : U.cols = b.size) (h' : b.size ≤ U.rows) :
    backward? U b = some (backward U b.size b) := if_pos ⟨h, h'⟩

/-! ## Up the transpose of a lower triangular matrix -/

/-- Settles unknown `k` from the ones below it. -/
def adjointStep (L : Matrix α) (b : Vec α) (k : Nat) : Vec α :=
  let below := Scalar.sum (b.size - (k + 1)) fun t => L.entry (k + 1 + t) k * b.entry (k + 1 + t)
  let x := (b.entry k - below) / L.entry k k
  Vec.tabulate b.size fun i => if i = k then x else b.entry i

/-- The first `k` unknowns settled, from the bottom. -/
def adjoint (L : Matrix α) : Nat → Vec α → Vec α
  | 0, b => b
  | k + 1, b => adjoint L k (adjointStep L b k)

/-! ## One step, entry by entry -/

theorem entry_forwardStep (L : Matrix α) (diagonal : Nat → α) {b : Vec α} (k : Nat) {i : Nat}
    (h : i < b.size) :
    (forwardStep L diagonal b k).entry i =
      if i < k then b.entry i
      else if i = k then b.entry k / diagonal k
      else b.entry i - b.entry k / diagonal k * L.entry i k :=
  Vec.entry_tabulate _ h

theorem entry_backwardStep (U : Matrix α) {b : Vec α} (k : Nat) {i : Nat} (h : i < b.size) :
    (backwardStep U b k).entry i =
      if i < k then b.entry i - b.entry k / U.entry k k * U.entry i k
      else if i = k then b.entry k / U.entry k k
      else b.entry i :=
  Vec.entry_tabulate _ h

theorem entry_adjointStep_of_ne (L : Matrix α) {b : Vec α} {k i : Nat} (h : i < b.size)
    (hk : i ≠ k) : (adjointStep L b k).entry i = b.entry i := by
  rw [adjointStep, Vec.entry_tabulate _ h, if_neg hk]

/-! ## Sizes -/

@[simp] theorem size_forward (L : Matrix α) (diagonal : Nat → α) (k : Nat) (b : Vec α) :
    (forward L diagonal k b).size = b.size := by
  induction k with
  | zero => rfl
  | succ k ih => simpa [forward, forwardStep] using ih

theorem size_backward {U : Matrix α} {k : Nat} {b x : Vec α} (h : backward U k b = .ok x) :
    x.size = b.size := by
  induction k generalizing b with
  | zero => cases h; rfl
  | succ k ih =>
    rw [backward] at h
    split at h
    · cases h
    · simpa [backwardStep] using ih h

/-- The vector reached where a zero ended the work has its full size too. -/
theorem size_backward_error {U : Matrix α} {k : Nat} {b x : Vec α}
    (h : backward U k b = .error x) : x.size = b.size := by
  induction k generalizing b with
  | zero => cases h
  | succ k ih =>
    rw [backward] at h
    split at h
    · cases h; rfl
    · simpa [backwardStep] using ih h

/-- A sweep upwards that meets no zero on the diagonal ends. -/
theorem exists_backward_of_isZero {U : Matrix α} {n : Nat}
    (hU : ∀ i < n, Scalar.isZero (U.entry i i) = false) (b : Vec α) : ∃ x, backward U n b = .ok x := by
  induction n generalizing b with
  | zero => exact ⟨b, rfl⟩
  | succ k ih =>
    rw [backward, hU k (Nat.lt_succ_self k), if_neg Bool.false_ne_true]
    exact ih (fun i hi => hU i (by omega)) _

@[simp] theorem size_adjoint (L : Matrix α) (k : Nat) (b : Vec α) :
    (adjoint L k b).size = b.size := by
  induction k generalizing b with
  | zero => rfl
  | succ k ih => rw [adjoint, ih]; simp [adjointStep]

end Triangular

/-- The least modulus among the first `n` diagonal entries; infinite if `n` is zero.  An entry that is
not a number is passed over. -/
def Matrix.leastPivot {α : Type} [Scalar α] (A : Matrix α) : Nat → Extended α
  | 0 => .infinite
  | n + 1 => (A.leastPivot n).meet (Scalar.abs (A.entry n n))

end TrustRegion
