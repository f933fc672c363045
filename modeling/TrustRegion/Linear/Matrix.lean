import TrustRegion.Linear.Vec

/-!
# Matrices

A matrix is stored by columns.  It is read through `Matrix.entry` and `Matrix.column` and written by
`Matrix.tabulate`; two lemmas (`Matrix.entry_tabulate` and `Matrix.ext_entry`) carry most proofs.

The number of rows is kept beside the columns, because a matrix without columns has one too.
-/

namespace TrustRegion

/-- A matrix of scalars. -/
structure Matrix (α : Type) where
  rows : Nat
  columns : Array (Vec α)
  /-- Every column has one entry for each row. -/
  aligned : ∀ c ∈ columns, c.size = rows
  deriving DecidableEq, Repr

namespace Matrix

variable {α : Type}

/-! ## Reading and writing -/

/-- The number of columns. -/
def cols (A : Matrix α) : Nat := A.columns.size

/-- The `m × n` matrix with the given entries. -/
def tabulate (m n : Nat) (f : Nat → Nat → α) : Matrix α where
  rows := m
  columns := Array.ofFn fun j : Fin n => Vec.tabulate m fun i => f i j
  aligned := by simp

@[simp] theorem rows_tabulate (m n : Nat) (f : Nat → Nat → α) : (tabulate m n f).rows = m := rfl

@[simp] theorem cols_tabulate (m n : Nat) (f : Nat → Nat → α) : (tabulate m n f).cols = n := by
  simp [tabulate, cols]

/-- Do two matrices have the same numbers of rows and of columns? -/
def SameShape (A B : Matrix α) : Prop := A.rows = B.rows ∧ A.cols = B.cols

instance (A B : Matrix α) : Decidable (A.SameShape B) := inferInstanceAs (Decidable (_ ∧ _))

/-- Has the matrix `m` rows and `n` columns? -/
def HasShape (A : Matrix α) (m n : Nat) : Prop := A.rows = m ∧ A.cols = n

instance (A : Matrix α) (m n : Nat) : Decidable (A.HasShape m n) :=
  inferInstanceAs (Decidable (_ ∧ _))

/-- Has the matrix `n` entries on its diagonal? -/
def HasDiagonal (A : Matrix α) (n : Nat) : Prop := n ≤ A.rows ∧ n ≤ A.cols

instance (A : Matrix α) (n : Nat) : Decidable (A.HasDiagonal n) :=
  inferInstanceAs (Decidable (_ ∧ _))

theorem HasShape.hasDiagonal {A : Matrix α} {n : Nat} (h : A.HasShape n n) : A.HasDiagonal n :=
  ⟨Nat.le_of_eq h.1.symm, Nat.le_of_eq h.2.symm⟩

theorem HasShape.sameShape {A B : Matrix α} {m n : Nat} (hA : A.HasShape m n) (hB : B.HasShape m n) :
    A.SameShape B := ⟨hA.1.trans hB.1.symm, hA.2.trans hB.2.symm⟩

theorem SameShape.hasShape {A B : Matrix α} {m n : Nat} (h : A.SameShape B) (hB : B.HasShape m n) :
    A.HasShape m n := ⟨h.1.trans hB.1, h.2.trans hB.2⟩

theorem hasShape_tabulate (m n : Nat) (f : Nat → Nat → α) : (tabulate m n f).HasShape m n :=
  ⟨rows_tabulate m n f, cols_tabulate m n f⟩

/-- The content of `source`, if it has the shape of `target`. -/
def copyFrom (target source : Matrix α) : Checked (Matrix α) :=
  if target.SameShape source then some source else none

theorem copyFrom_of_sameShape {A B : Matrix α} (h : A.SameShape B) : A.copyFrom B = some B :=
  if_pos h

variable [Scalar α]

/-- A column; zero beyond the last one. -/
def column (A : Matrix α) (j : Nat) : Vec α := A.columns.getD j (Vec.zeros A.rows)

/-- The entry in row `i` and column `j`; zero outside the matrix. -/
def entry (A : Matrix α) (i j : Nat) : α := (A.column j).entry i

@[simp] theorem size_column (A : Matrix α) (j : Nat) : (A.column j).size = A.rows := by
  by_cases h : j < A.columns.size
  · simpa [column, h] using A.aligned _ (Array.getElem_mem h)
  · simp [column, h]

theorem column_tabulate {m n j : Nat} (f : Nat → Nat → α) (h : j < n) :
    (tabulate m n f).column j = Vec.tabulate m fun i => f i j := by
  simp [column, tabulate, h]

theorem entry_tabulate {m n i j : Nat} (f : Nat → Nat → α) (hi : i < m) (hj : j < n) :
    (tabulate m n f).entry i j = f i j := by
  rw [entry, column_tabulate f hj, Vec.entry_tabulate _ hi]

/-- Two matrices of one shape with the same entries are equal. -/
theorem ext_entry {A B : Matrix α} (hs : A.SameShape B)
    (h : ∀ i j, i < A.rows → j < A.cols → A.entry i j = B.entry i j) : A = B := by
  have hc : A.columns = B.columns := by
    refine Array.ext hs.2 fun j hA hB => Vec.ext_entry ?_ fun i hi => ?_
    · rw [A.aligned _ (Array.getElem_mem hA), B.aligned _ (Array.getElem_mem hB), hs.1]
    · have hi' : i < A.rows := by rwa [A.aligned _ (Array.getElem_mem hA)] at hi
      have := h i j hi' hA
      simpa [entry, column, hA, hB] using this
  obtain ⟨m, cs, ha⟩ := A
  obtain ⟨m', cs', hb⟩ := B
  obtain rfl : m = m' := hs.1
  obtain rfl : cs = cs' := hc
  rfl

/-- A table depends only on the values at its indices. -/
theorem tabulate_congr {m n : Nat} {f g : Nat → Nat → α}
    (h : ∀ i j, i < m → j < n → f i j = g i j) : tabulate m n f = tabulate m n g := by
  refine ext_entry ⟨rfl, by simp⟩ fun i j hi hj => ?_
  have hi' : i < m := hi
  have hj' : j < n := by simpa using hj
  rw [entry_tabulate f hi' hj', entry_tabulate g hi' hj', h i j hi' hj']

/-! ## Operations on one matrix -/

/-- The `m × n` matrix of zeros. -/
def zeros (m n : Nat) : Matrix α := tabulate m n fun _ _ => 0

@[simp] theorem rows_zeros (m n : Nat) : (zeros m n : Matrix α).rows = m := rfl

@[simp] theorem cols_zeros (m n : Nat) : (zeros m n : Matrix α).cols = n := by simp [zeros]

theorem hasShape_zeros (m n : Nat) : (zeros m n : Matrix α).HasShape m n := hasShape_tabulate m n _

/-- The matrix of a list of rows, as wide as the first of them. -/
def ofRows (rs : List (Vec α)) : Matrix α :=
  let rs := rs.toArray
  tabulate rs.size (rs.getD 0 (Vec.zeros 0)).size fun i j => (rs.getD i (Vec.zeros 0)).entry j

/-- A row. -/
def row (A : Matrix α) (i : Nat) : Vec α := Vec.tabulate A.cols fun j => A.entry i j

/-- The rows, in order. -/
def toRows (A : Matrix α) : List (Vec α) := (List.range A.rows).map A.row

/-- Rows and columns exchanged. -/
def transpose (A : Matrix α) : Matrix α := tabulate A.cols A.rows fun i j => A.entry j i

/-- Every column replaced by an image of it, cut or filled up to the old length. -/
def mapColumns (A : Matrix α) (f : Nat → Vec α → Vec α) : Matrix α where
  rows := A.rows
  columns := Array.ofFn fun j : Fin A.cols =>
    let image := f j (A.column j)
    Vec.tabulate A.rows image.entry
  aligned := by simp

@[simp] theorem rows_mapColumns (A : Matrix α) (f : Nat → Vec α → Vec α) :
    (A.mapColumns f).rows = A.rows := rfl

@[simp] theorem cols_mapColumns (A : Matrix α) (f : Nat → Vec α → Vec α) :
    (A.mapColumns f).cols = A.cols := by simp [mapColumns, cols]

theorem entry_mapColumns {A : Matrix α} {i j : Nat} (f : Nat → Vec α → Vec α) (hi : i < A.rows)
    (hj : j < A.cols) : (A.mapColumns f).entry i j = (f j (A.column j)).entry i := by
  rw [entry, column, mapColumns]
  simp [hj, Vec.entry_tabulate _ hi]

/-- Column `j` multiplied by the entry `j` of `d`. -/
def scaleColumns (A : Matrix α) (d : Vec α) : Matrix α :=
  tabulate A.rows A.cols fun i j => A.entry i j * d.entry j

/-- Row `i` multiplied by the entry `i` of `d`, then column `j` by the entry `j`. -/
def scaleBoth (A : Matrix α) (d : Vec α) : Matrix α :=
  tabulate A.rows A.cols fun i j => A.entry i j * d.entry i * d.entry j

theorem hasShape_scaleColumns (A : Matrix α) (d : Vec α) :
    (A.scaleColumns d).HasShape A.rows A.cols := hasShape_tabulate _ _ _

theorem hasShape_scaleBoth (A : Matrix α) (d : Vec α) :
    (A.scaleBoth d).HasShape A.rows A.cols := hasShape_tabulate _ _ _

/-- The inner products of the columns with each other. -/
def gram (A : Matrix α) : Matrix α :=
  tabulate A.cols A.cols fun i j => (A.column i).inner (A.column j)

theorem entry_scaleColumns {A : Matrix α} {i j : Nat} (d : Vec α) (hi : i < A.rows)
    (hj : j < A.cols) : (A.scaleColumns d).entry i j = A.entry i j * d.entry j :=
  entry_tabulate _ hi hj

theorem entry_scaleBoth {A : Matrix α} {i j : Nat} (d : Vec α) (hi : i < A.rows)
    (hj : j < A.cols) : (A.scaleBoth d).entry i j = A.entry i j * d.entry i * d.entry j :=
  entry_tabulate _ hi hj

theorem entry_gram {A : Matrix α} {i j : Nat} (hi : i < A.cols) (hj : j < A.cols) :
    A.gram.entry i j = (A.column i).inner (A.column j) :=
  entry_tabulate _ hi hj

/-! ## Operations on two operands -/

/-- The inner products of the columns of `A` with each other, if `target` has room for exactly
these. -/
def gramInto (target A : Matrix α) : Checked (Matrix α) :=
  if target.HasShape A.cols A.cols then some A.gram else none

theorem gramInto_of_hasShape {A B : Matrix α} (h : A.HasShape B.cols B.cols) :
    A.gramInto B = some B.gram := if_pos h

/-- Every column multiplied by an entry of a vector that has one for each of them. -/
def scaleColumns? (A : Matrix α) (d : Vec α) : Checked (Matrix α) :=
  if A.cols ≤ d.size then some (A.scaleColumns d) else none

/-- Every row and every column multiplied by an entry of a vector that has one for each of them. -/
def scaleBoth? (A : Matrix α) (d : Vec α) : Checked (Matrix α) :=
  if A.rows = d.size ∧ A.cols ≤ d.size then some (A.scaleBoth d) else none

theorem scaleColumns?_of_le {A : Matrix α} {d : Vec α} (h : A.cols ≤ d.size) :
    A.scaleColumns? d = some (A.scaleColumns d) := if_pos h

theorem scaleBoth?_of_hasShape {A : Matrix α} {d : Vec α} (h : A.HasShape d.size d.size) :
    A.scaleBoth? d = some (A.scaleBoth d) :=
  if_pos ⟨h.1, Nat.le_of_eq h.2⟩

/-- The inner products of the columns with a vector that has one entry for each row. -/
def transposeMul (A : Matrix α) (v : Vec α) : Checked (Vec α) :=
  if v.size = A.rows then some (Vec.tabulate A.cols fun j => (A.column j).inner v) else none

end Matrix

end TrustRegion
