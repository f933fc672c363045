import TrustRegion.Linear.Triangular

/-!
# Cholesky factorisation

A positive definite matrix is `L Lᵀ` for a lower triangular `L` with a positive diagonal.  The
factor is computed column by column in a working copy of the matrix: step `j` takes the share of the
columns before it off column `j` and divides by the square root of what remains on the diagonal.

Only the lower triangle is read and written; what stands above the diagonal stays there.  A remainder
on the diagonal that is zero, negative or not a number ends the factorisation: the matrix is not
positive definite.
-/

namespace TrustRegion

namespace Cholesky

variable {α : Type} [Scalar α]

/-- The entry in row `i` of column `j`, less the share of the columns before `j`. -/
def remainder (W : Matrix α) (i j : Nat) : α :=
  Scalar.less (W.entry i j) j fun k => W.entry j k * W.entry i k

/-- May this remainder stand on the diagonal? -/
def Admissible (pivot : α) : Prop := Scalar.isZero pivot = false ∧ 0 ≤ pivot

instance (pivot : α) : Decidable (Admissible pivot) := inferInstanceAs (Decidable (_ ∧ _))

/-- Column `j` of the factor in place of column `j` of the matrix. -/
def step (W : Matrix α) (j : Nat) : Option (Matrix α) :=
  let pivot := remainder W j j
  if Admissible pivot then
    let root := Scalar.sqrt pivot
    some (Matrix.tabulate W.rows W.cols fun i c =>
      if c = j ∧ j ≤ i then (if i = j then root else remainder W i j / root) else W.entry i c)
  else none

/-- The first `k` columns of the factor in place of those of the matrix. -/
def sweep : Nat → Matrix α → Option (Matrix α)
  | 0, W => some W
  | k + 1, W => (sweep k W).bind (step · k)

/-- The factor of a square matrix, on and below the diagonal. -/
def factor (A : Matrix α) : Option (Matrix α) := sweep A.cols A

/-- The solution of `L Lᵀ x = b`. -/
def solve (L : Matrix α) (b : Vec α) : Vec α :=
  let y := Triangular.forward L (fun k => L.entry k k) L.cols b
  Triangular.adjoint L L.cols y

/-- The factor of a matrix, if the matrix is square. -/
def factor? (A : Matrix α) : Checked (Option (Matrix α)) :=
  if A.rows = A.cols then some (factor A) else none

/-- The solution of `L Lᵀ x = b`, if `L` is square and as large as `b`. -/
def solve? (L : Matrix α) (b : Vec α) : Checked (Vec α) :=
  if L.HasShape b.size b.size then some (solve L b) else none

theorem factor?_of_hasShape {A : Matrix α} {n : Nat} (h : A.HasShape n n) :
    factor? A = some (factor A) := if_pos (h.1.trans h.2.symm)

theorem solve?_of_hasShape {L : Matrix α} {b : Vec α} (h : L.HasShape b.size b.size) :
    solve? L b = some (solve L b) := if_pos h

@[simp] theorem size_solve (L : Matrix α) (b : Vec α) : (solve L b).size = b.size := by simp [solve]

/-- A step that succeeds changes column `j` from the diagonal on, and nothing else. -/
theorem entry_step {W W' : Matrix α} {j : Nat} (h : step W j = some W') {i c : Nat}
    (hi : i < W.rows) (hc : c < W.cols) :
    W'.entry i c =
      if c = j ∧ j ≤ i then
        (if i = j then Scalar.sqrt (remainder W j j)
          else remainder W i j / Scalar.sqrt (remainder W j j))
      else W.entry i c := by
  rw [step] at h
  split at h
  · cases h; exact Matrix.entry_tabulate _ hi hc
  · cases h

theorem sameShape_step {W W' : Matrix α} {j : Nat} (h : step W j = some W') : W'.SameShape W := by
  rw [step] at h
  split at h
  · cases h; exact ⟨rfl, by simp⟩
  · cases h

theorem sameShape_sweep {k : Nat} {A W : Matrix α} (h : sweep k A = some W) : W.SameShape A := by
  induction k generalizing W with
  | zero => cases h; exact ⟨rfl, rfl⟩
  | succ k ih =>
    obtain ⟨V, hV, hW⟩ := Option.bind_eq_some_iff.1 h
    have h1 := sameShape_step hW
    have h2 := ih hV
    exact ⟨h1.1.trans h2.1, h1.2.trans h2.2⟩

/-- The factor has the shape of the matrix. -/
theorem hasShape_factor {A L : Matrix α} {m n : Nat} (hA : A.HasShape m n) (h : factor A = some L) :
    L.HasShape m n := (sameShape_sweep h).hasShape hA

end Cholesky

end TrustRegion
