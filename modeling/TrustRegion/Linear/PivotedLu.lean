import TrustRegion.Linear.Triangular

/-!
# Triangular factorisation with row exchanges

A square matrix with its rows rearranged is `L U`, with `L` lower triangular and ones on its
diagonal, and `U` upper triangular.  Both factors share one matrix, and the exchanges are kept in the
order in which they were made.

Step `i` brings the entry of largest modulus in column `i`, on or below the diagonal, to the
diagonal; of several equally large ones the first is taken.  A column without a nonzero entry there
is passed over and leaves a zero on the diagonal of `U`.
-/

namespace TrustRegion

/-- The factors of a matrix: `U` on and above the diagonal, `L` below it. -/
structure PivotedLu (α : Type) where
  /-- Both factors. -/
  combined : Matrix α
  /-- The exchanges of two rows, the first one first. -/
  swaps : List (Nat × Nat)

namespace PivotedLu

variable {α : Type} [Scalar α]

/-- The row that stands at `i` once the rows `p` and `q` have changed places. -/
def exchanged (p q i : Nat) : Nat := if i = p then q else if i = q then p else i

/-- The row, from `i` on, whose entry in column `i` has the largest modulus. -/
def pivotRow (A : Matrix α) (i : Nat) : Nat :=
  (A.rows - (i + 1)).fold
    (fun t _ p =>
      if Scalar.abs (A.entry p i) < Scalar.abs (A.entry (i + 1 + t) i) then i + 1 + t else p) i

/-- The rows below row `i`, less the multiple of row `i` that clears their column `i`.  The
multipliers take the place of the entries they clear. -/
def eliminate (A : Matrix α) (i : Nat) : Matrix α :=
  let inverse := 1 / A.entry i i
  Matrix.tabulate A.rows A.cols fun r c =>
    if r ≤ i ∨ c < i then A.entry r c
    else if c = i then A.entry r i * inverse
    else A.entry r c - A.entry i c * (A.entry r i * inverse)

/-- Column `i` cleared below the diagonal. -/
def step (f : PivotedLu α) (i : Nat) : PivotedLu α :=
  let A := f.combined
  let p := pivotRow A i
  if Scalar.isZero (A.entry p i) then f
  else
    let B := Matrix.tabulate A.rows A.cols fun r c => A.entry (exchanged i p r) c
    { combined := eliminate B i, swaps := f.swaps ++ [(i, p)] }

/-- The first `k` columns cleared below the diagonal. -/
def sweep : Nat → Matrix α → PivotedLu α
  | 0, A => { combined := A, swaps := [] }
  | k + 1, A => (sweep k A).step k

/-- The factors of a square matrix. -/
def factor (A : Matrix α) : PivotedLu α := sweep A.cols A

/-- The factor `U`. -/
def upper (f : PivotedLu α) : Matrix α :=
  Matrix.tabulate f.combined.cols f.combined.cols fun i j =>
    if i ≤ j then f.combined.entry i j else 0

/-- The diagonal of `U` is that of the matrix which holds both factors. -/
theorem entry_upper {f : PivotedLu α} {i : Nat} (hi : i < f.combined.cols) :
    f.upper.entry i i = f.combined.entry i i := by
  rw [upper, Matrix.entry_tabulate _ hi hi, if_pos (Nat.le_refl i)]

/-- A vector rearranged as the rows of the matrix were. -/
def permute (f : PivotedLu α) (b : Vec α) : Vec α :=
  f.swaps.foldl (fun v s => Vec.tabulate v.size fun i => v.entry (exchanged s.1 s.2 i)) b

/-- The solution of the system with right-hand side `b`; an error holds the vector reached when a
zero on the diagonal of `U` ended the work. -/
def solve (f : PivotedLu α) (b : Vec α) : Except (Vec α) (Vec α) :=
  let y := Triangular.forward f.combined (fun _ => 1) f.combined.cols (f.permute b)
  Triangular.backward f.combined f.combined.cols y

/-- The solution of the system with right-hand side `b`, if the factors are square and as large. -/
def solve? (f : PivotedLu α) (b : Vec α) : Checked (Except (Vec α) (Vec α)) :=
  if f.combined.HasShape b.size b.size then some (f.solve b) else none

theorem solve?_of_hasShape {f : PivotedLu α} {b : Vec α} (h : f.combined.HasShape b.size b.size) :
    f.solve? b = some (f.solve b) := if_pos h

/-- A row above the diagonal entry, and a column before it, stay as they are. -/
theorem entry_eliminate_of_settled {A : Matrix α} {i r c : Nat} (hr : r < A.rows)
    (hc : c < A.cols) (h : r ≤ i ∨ c < i) : (eliminate A i).entry r c = A.entry r c := by
  rw [eliminate, Matrix.entry_tabulate _ hr hc, if_pos h]

/-- An exchange undoes itself. -/
theorem exchanged_exchanged (p q i : Nat) : exchanged p q (exchanged p q i) = i := by
  simp only [exchanged]; split <;> split <;> simp_all

/-! ## Sizes -/

theorem sameShape_step (f : PivotedLu α) (i : Nat) : (f.step i).combined.SameShape f.combined := by
  rw [step]
  dsimp only
  split
  · exact ⟨rfl, rfl⟩
  · exact ⟨rfl, by simp [eliminate]⟩

theorem sameShape_sweep (k : Nat) (A : Matrix α) : (sweep k A).combined.SameShape A := by
  induction k with
  | zero => exact ⟨rfl, rfl⟩
  | succ k ih =>
    have h := sameShape_step (sweep k A) k
    exact ⟨h.1.trans ih.1, h.2.trans ih.2⟩

/-- The factors have the shape of the matrix. -/
theorem hasShape_factor {A : Matrix α} {m n : Nat} (hA : A.HasShape m n) :
    (factor A).combined.HasShape m n := (sameShape_sweep A.cols A).hasShape hA

@[simp] theorem size_permute (f : PivotedLu α) (b : Vec α) : (f.permute b).size = b.size := by
  rw [permute]
  induction f.swaps generalizing b with
  | nil => rfl
  | cons s ss ih => rw [List.foldl_cons, ih]; simp

theorem size_solve {f : PivotedLu α} {b x : Vec α} (h : f.solve b = .ok x) : x.size = b.size := by
  simpa using Triangular.size_backward h

theorem size_solve_error {f : PivotedLu α} {b x : Vec α} (h : f.solve b = .error x) :
    x.size = b.size := by
  simpa using Triangular.size_backward_error h

end PivotedLu

end TrustRegion
