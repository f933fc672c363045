import TrustRegion.Linear.Triangular

/-!
# Orthogonal triangularisation by reflections

A matrix with at least as many rows as columns is `Q R`, with orthonormal columns in `Q` and `R` upper
triangular.  Column after column is turned onto its diagonal entry by a reflection, and the same
reflections, in the same order, turn a right-hand side into the coordinates for which `R` is solved.

Each reflection carries a sign that makes the diagonal of `R` nonnegative, so the diagonal entry is
the norm of the column that was turned.  A column whose norm vanishes is left alone.
-/

namespace TrustRegion

/-- A reflection of the coordinates from `start` on, followed by a change of sign if `sign` is `-1`. -/
structure Reflection (α : Type) where
  /-- The first coordinate that is moved. -/
  start : Nat
  /-- `1` or `-1`. -/
  sign : α
  /-- The unit normal of the plane of reflection, in the coordinates from `start` on. -/
  axis : Vec α

namespace Reflection

variable {α : Type} [Scalar α]

/-- The image of a vector. -/
def apply (h : Reflection α) (x : Vec α) : Vec α :=
  let along := Scalar.sum h.axis.size fun t => h.axis.entry t * x.entry (h.start + t)
  let factor := along * (h.sign * -Scalar.two)
  Vec.tabulate x.size fun i =>
    if i < h.start then x.entry i
    else factor * h.axis.entry (i - h.start) + h.sign * x.entry i

@[simp] theorem size_apply (h : Reflection α) (x : Vec α) : (h.apply x).size = x.size := by
  simp [apply]

/-- The reflection that turns `x` onto its first coordinate, if `x` is long enough to have a
direction; of the two images on the line of that coordinate the one is taken for which nothing
cancels. -/
def turning (start : Nat) (x : Vec α) : Option (Reflection α) :=
  let norm := x.norm
  let lead := x.entry 0
  let sign : α := if 0 ≤ lead then 1 else -1
  let modulus := if 0 ≤ lead then lead else -lead
  let factor := (x.normSq + modulus * norm) * Scalar.two
  if Scalar.isZero factor then none
  else
    let root := Scalar.sqrt factor
    let axis := Vec.tabulate x.size fun t =>
      (if t = 0 then lead + sign * norm else x.entry t) / root
    let length := axis.norm
    some
      { start, sign := -sign, axis := Vec.tabulate axis.size fun t => axis.entry t / length }

end Reflection

/-- A matrix on its way to triangular form, and the reflections that brought it there. -/
structure Householder (α : Type) where
  /-- The matrix so far; finished columns are zero below the diagonal. -/
  triangle : Matrix α
  /-- The reflections so far, the first one first. -/
  reflections : List (Reflection α)

namespace Householder

variable {α : Type} [Scalar α]

/-- Column `k` from the diagonal on. -/
def tail (A : Matrix α) (k : Nat) : Vec α :=
  Vec.tabulate (A.rows - k) fun t => A.entry (k + t) k

/-- Column `k` replaced by `d` on the diagonal and zeros below it. -/
def settle (A : Matrix α) (k : Nat) (d : α) : Matrix α :=
  Matrix.tabulate A.rows A.cols fun i c =>
    if c = k ∧ k ≤ i then (if i = k then d else 0) else A.entry i c

theorem entry_settle {A : Matrix α} {i c : Nat} (k : Nat) (d : α) (hi : i < A.rows)
    (hc : c < A.cols) :
    (settle A k d).entry i c =
      if c = k ∧ k ≤ i then (if i = k then d else 0) else A.entry i c :=
  Matrix.entry_tabulate _ hi hc

/-- Column `k` cleared below the diagonal, and the columns after it turned along. -/
def step (f : Householder α) (k : Nat) : Householder α :=
  let x := tail f.triangle k
  match Reflection.turning k x with
  | none => { f with triangle := settle f.triangle k x.norm }
  | some h =>
    let turned := f.triangle.mapColumns fun c v => if k < c then h.apply v else v
    { triangle := settle turned k x.norm, reflections := f.reflections ++ [h] }

/-- The first `k` columns cleared below the diagonal. -/
def sweep : Nat → Matrix α → Householder α
  | 0, A => { triangle := A, reflections := [] }
  | k + 1, A => (sweep k A).step k

/-- The triangular form of a matrix with at least as many rows as columns. -/
def factor (A : Matrix α) : Householder α := sweep A.cols A

/-- All reflections applied to a right-hand side. -/
def turn (f : Householder α) (b : Vec α) : Vec α := f.reflections.foldl (fun v h => h.apply v) b

/-- All reflections applied to a right-hand side that has one entry for each row. -/
def turn? (f : Householder α) (b : Vec α) : Checked (Vec α) :=
  if b.size = f.triangle.rows then some (f.turn b) else none

theorem turn?_of_size {f : Householder α} {b : Vec α} (h : b.size = f.triangle.rows) :
    f.turn? b = some (f.turn b) := if_pos h

/-! ## Sizes -/

@[simp] theorem size_turn (f : Householder α) (b : Vec α) : (f.turn b).size = b.size := by
  rw [turn]
  induction f.reflections generalizing b with
  | nil => rfl
  | cons h hs ih => rw [List.foldl_cons, ih]; simp

theorem sameShape_step (f : Householder α) (k : Nat) :
    (f.step k).triangle.SameShape f.triangle := by
  rw [step]
  dsimp only
  split
  · exact ⟨rfl, by simp [settle]⟩
  · exact ⟨rfl, by simp [settle]⟩

theorem sameShape_sweep (k : Nat) (A : Matrix α) : (sweep k A).triangle.SameShape A := by
  induction k with
  | zero => exact ⟨rfl, rfl⟩
  | succ k ih =>
    have h := sameShape_step (sweep k A) k
    exact ⟨h.1.trans ih.1, h.2.trans ih.2⟩

/-- The triangular form has the shape of the matrix. -/
theorem hasShape_factor {A : Matrix α} {m n : Nat} (hA : A.HasShape m n) :
    (factor A).triangle.HasShape m n := (sameShape_sweep A.cols A).hasShape hA

end Householder

end TrustRegion
