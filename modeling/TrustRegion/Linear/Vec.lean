import TrustRegion.Scalar

/-!
# Vectors

A vector is a row of scalars of any length.  It is read through `Vec.entry`, which is zero beyond
the end, and written by `Vec.tabulate`; every other operation is stated through these two, so two
lemmas (`Vec.entry_tabulate` and `Vec.ext_entry`) carry most proofs.

Sizes are data here, as they are to the callers of a numerical library.  An operation on two operands
whose sizes disagree has no value: it is `none`.  What checks its inputs first never meets that case,
and that it does not is a statement one can prove.  Some of these operations come in two forms.  The
total one reads zeros where there is nothing, and serves to say what the values are; the `Checked` one,
with a question mark behind the same name, is the one that runs.
-/

namespace TrustRegion

/-- The outcome of an operation that needs operands of matching sizes; `none` if they disagree. -/
abbrev Checked := Option

/-- A vector of scalars. -/
structure Vec (α : Type) where
  coords : Array α
  deriving DecidableEq, Repr, Inhabited

namespace Vec

variable {α : Type}

/-! ## Reading and writing -/

/-- The number of entries. -/
def size (x : Vec α) : Nat := x.coords.size

/-- The vector of a list of entries. -/
def ofList (xs : List α) : Vec α := ⟨xs.toArray⟩

/-- The entries, in order. -/
def toList (x : Vec α) : List α := x.coords.toList

/-- The vector of `n` entries with the given values. -/
def tabulate (n : Nat) (f : Nat → α) : Vec α := ⟨Array.ofFn fun i : Fin n => f i⟩

@[simp] theorem size_tabulate (n : Nat) (f : Nat → α) : (tabulate n f).size = n := by
  simp [tabulate, size]

/-- Every entry replaced by `c`. -/
def fill (x : Vec α) (c : α) : Vec α := tabulate x.size fun _ => c

@[simp] theorem size_fill (x : Vec α) (c : α) : (x.fill c).size = x.size := by simp [fill]

/-- The content of `source`, if it fits `target` exactly. -/
def copyFrom (target source : Vec α) : Checked (Vec α) :=
  if target.size = source.size then some source else none

theorem copyFrom_of_size {x y : Vec α} (h : x.size = y.size) : x.copyFrom y = some y := if_pos h

variable [Scalar α]

/-- The entry at an index, zero beyond the end. -/
def entry (x : Vec α) (i : Nat) : α := x.coords.getD i 0

theorem entry_tabulate {n i : Nat} (f : Nat → α) (h : i < n) : (tabulate n f).entry i = f i := by
  simp [entry, tabulate, h]

theorem entry_of_size_le {x : Vec α} {i : Nat} (h : x.size ≤ i) : x.entry i = 0 := by
  have h' : ¬ i < x.coords.size := by simpa [size] using h
  simp [entry, h']

/-- Two vectors of one size with the same entries are equal. -/
theorem ext_entry {x y : Vec α} (hs : x.size = y.size)
    (h : ∀ i, i < x.size → x.entry i = y.entry i) : x = y := by
  obtain ⟨x⟩ := x
  obtain ⟨y⟩ := y
  congr 1
  refine Array.ext hs fun i hx hy => ?_
  have := h i hx
  simpa [entry, hx, hy] using this

/-- A table depends only on the values at its indices. -/
theorem tabulate_congr {n : Nat} {f g : Nat → α} (h : ∀ i, i < n → f i = g i) :
    tabulate n f = tabulate n g := by
  refine ext_entry (by simp) fun i hi => ?_
  have hi' : i < n := by simpa using hi
  rw [entry_tabulate f hi', entry_tabulate g hi', h i hi']

/-! ## Operations on one vector -/

/-- The vector of `n` zeros. -/
def zeros (n : Nat) : Vec α := tabulate n fun _ => 0

/-- The opposite vector. -/
def neg (x : Vec α) : Vec α := tabulate x.size fun i => -x.entry i

/-- Every entry multiplied by `c`. -/
def scale (x : Vec α) (c : α) : Vec α := tabulate x.size fun i => x.entry i * c

@[simp] theorem size_zeros (n : Nat) : (zeros n : Vec α).size = n := by simp [zeros]

@[simp] theorem size_neg (x : Vec α) : x.neg.size = x.size := by simp [neg]

@[simp] theorem size_scale (x : Vec α) (c : α) : (x.scale c).size = x.size := by simp [scale]

@[simp] theorem entry_zeros (n i : Nat) : (zeros n : Vec α).entry i = 0 := by
  by_cases h : i < n
  · exact entry_tabulate _ h
  · exact entry_of_size_le (by simpa using h)

theorem entry_neg {x : Vec α} {i : Nat} (h : i < x.size) : x.neg.entry i = -x.entry i :=
  entry_tabulate _ h

theorem entry_scale {x : Vec α} {i : Nat} (c : α) (h : i < x.size) :
    (x.scale c).entry i = x.entry i * c :=
  entry_tabulate _ h

/-- The sum of the products of the entries of `x` with those of `y` at the same places. -/
def inner (x y : Vec α) : α := Scalar.sum x.size fun i => x.entry i * y.entry i

/-- The sum of the squares of the entries. -/
def normSq (x : Vec α) : α := x.inner x

/-- The Euclidean norm, by its defining formula: no rescaling guards the squares. -/
def norm (x : Vec α) : α := Scalar.sqrt x.normSq

/-! ## Operations on two vectors -/

/-- The inner product of two vectors of one size. -/
def dot (x y : Vec α) : Checked α := if x.size = y.size then some (x.inner y) else none

/-- The entrywise product of two vectors of one size. -/
def hadamard (x y : Vec α) : Checked (Vec α) :=
  if x.size = y.size then some (tabulate x.size fun i => x.entry i * y.entry i) else none

/-- The first `n` entries of a vector that has as many. -/
def first (x : Vec α) (n : Nat) : Checked (Vec α) :=
  if n ≤ x.size then some (tabulate n x.entry) else none

theorem dot_of_size {x y : Vec α} (h : x.size = y.size) : x.dot y = some (x.inner y) := if_pos h

theorem hadamard_of_size {x y : Vec α} (h : x.size = y.size) :
    x.hadamard y = some (tabulate x.size fun i => x.entry i * y.entry i) := if_pos h

theorem first_of_le {x : Vec α} {n : Nat} (h : n ≤ x.size) :
    x.first n = some (tabulate n x.entry) := if_pos h

end Vec

end TrustRegion
