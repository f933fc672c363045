import Mathlib
import TrustRegion.Linear.Householder
import TrustRegion.Proofs.Exact.Vec
import TrustRegion.Proofs.Linear.Triangular

/-!
# Orthogonal triangularisation is exact

In exact arithmetic every reflection preserves inner products (`Reflection.inner_apply`), and the one
computed for a vector turns it onto its first coordinate (`Reflection.apply_turning`).  The invariant of
the sweep, `Householder.Turned`, says that the columns of the triangular form are those of the matrix,
turned, with zeros below the diagonal where the sweep has been.

The inner products of the columns of the matrix are therefore those of the columns of `R`, and a
solution of `R x = Qᵀ b` solves the normal equations: **`Householder.solves_backward`**, with a
nonsingular matrix by **`Householder.nonsingular_of_backward`**.  If that matrix is nonsingular, `R` has
no zero on its diagonal: **`Householder.diagonal_ne_zero`**.
-/

namespace TrustRegion

open Finset

/-! ## Reflections -/

namespace Reflection

/-- Is this an orthogonal map of the vectors with `m` entries? -/
structure Orthogonal (h : Reflection ℝ) (m : ℕ) : Prop where
  /-- The axis reaches to the last entry. -/
  size : h.start + h.axis.size = m
  /-- The axis has unit length. -/
  unit : ∑ t ∈ range h.axis.size, h.axis.entry t * h.axis.entry t = 1
  sign : h.sign * h.sign = 1

variable {h : Reflection ℝ} {m : ℕ} {x y : Vec ℝ}

/-- The inner product of the axis with the entries that are moved. -/
noncomputable def along (h : Reflection ℝ) (x : Vec ℝ) : ℝ :=
  ∑ t ∈ range h.axis.size, h.axis.entry t * x.entry (h.start + t)

theorem entry_apply_of_lt {i : ℕ} (hi : i < h.start) (hx : i < x.size) :
    (h.apply x).entry i = x.entry i := by
  rw [apply, Vec.entry_tabulate _ hx, if_pos hi]

theorem entry_apply_add {t : ℕ} (ht : h.start + t < x.size) :
    (h.apply x).entry (h.start + t) =
      h.sign * (x.entry (h.start + t) - 2 * h.along x * h.axis.entry t) := by
  rw [apply, Vec.entry_tabulate _ ht, if_neg (by omega), Nat.add_sub_cancel_left, Scalar.sum_eq,
    Scalar.two_eq]
  unfold along
  ring

/-- Reflections preserve inner products. -/
theorem inner_apply (hh : h.Orthogonal m) (hx : x.size = m) (hy : y.size = m) :
    (h.apply x).inner (h.apply y) = x.inner y := by
  rw [Vec.inner_eq_sum, Vec.inner_eq_sum, size_apply, hx, ← hh.size, sum_range_add, sum_range_add]
  congr 1
  · refine sum_congr rfl fun i hi => ?_
    have hi' := mem_range.1 hi
    have hm := hh.size
    rw [entry_apply_of_lt hi' (by omega), entry_apply_of_lt hi' (by omega)]
  · have hterm : ∀ t ∈ range h.axis.size,
        (h.apply x).entry (h.start + t) * (h.apply y).entry (h.start + t) =
          x.entry (h.start + t) * y.entry (h.start + t) -
            2 * h.along x * (h.axis.entry t * y.entry (h.start + t)) -
            2 * h.along y * (h.axis.entry t * x.entry (h.start + t)) +
            4 * h.along x * h.along y * (h.axis.entry t * h.axis.entry t) := by
      intro t ht
      have ht' := mem_range.1 ht
      have hm := hh.size
      rw [entry_apply_add (by omega), entry_apply_add (by omega)]
      linear_combination (x.entry (h.start + t) - 2 * h.along x * h.axis.entry t) *
        (y.entry (h.start + t) - 2 * h.along y * h.axis.entry t) * hh.sign
    rw [sum_congr rfl hterm, sum_add_distrib, sum_sub_distrib, sum_sub_distrib, ← mul_sum, ← mul_sum,
      ← mul_sum, hh.unit]
    unfold along
    ring

/-- A vector with nothing to move stays where it is. -/
theorem entry_apply_of_tail (hh : h.Orthogonal m) (hx : x.size = m)
    (hzero : ∀ t < h.axis.size, x.entry (h.start + t) = 0) {i : ℕ} (hi : i < m) :
    (h.apply x).entry i = x.entry i := by
  rcases Nat.lt_or_ge i h.start with hlt | hge
  · exact entry_apply_of_lt hlt (by omega)
  · obtain ⟨t, rfl⟩ := Nat.exists_eq_add_of_le hge
    have hm := hh.size
    have halong : h.along x = 0 :=
      sum_eq_zero fun t ht => by rw [hzero t (mem_range.1 ht), mul_zero]
    rw [entry_apply_add (by omega), hzero t (by omega), halong]
    ring

/-! ### The reflection of one vector onto its first coordinate -/

/-- The sign of the first entry. -/
noncomputable def leadSign (x : Vec ℝ) : ℝ := if 0 ≤ x.entry 0 then 1 else -1

/-- The normal of the plane of reflection, before it is brought to unit length. -/
noncomputable def normal (x : Vec ℝ) (t : ℕ) : ℝ :=
  if t = 0 then x.entry 0 + leadSign x * x.norm else x.entry t

theorem leadSign_mul_self (x : Vec ℝ) : leadSign x * leadSign x = 1 := by
  unfold leadSign
  split <;> ring

theorem leadSign_mul_nonneg (x : Vec ℝ) : 0 ≤ leadSign x * x.entry 0 := by
  unfold leadSign
  split
  · rename_i h
    rwa [one_mul]
  · rename_i h
    linarith [not_le.1 h]

/-- The square of the length of the normal. -/
noncomputable def normalSq (x : Vec ℝ) : ℝ :=
  (x.normSq + leadSign x * x.entry 0 * x.norm) * Scalar.two

theorem sum_normal_mul (hx : 0 < x.size) (f : ℕ → ℝ) :
    ∑ t ∈ range x.size, normal x t * f t =
      ∑ t ∈ range x.size, x.entry t * f t + leadSign x * x.norm * f 0 := by
  have hterm : ∀ t, normal x t * f t =
      x.entry t * f t + if t = 0 then leadSign x * x.norm * f t else 0 := by
    intro t
    unfold normal
    split
    · rename_i h
      rw [h]
      ring
    · ring
  rw [sum_congr rfl fun t _ => hterm t, sum_add_distrib, sum_ite_eq', if_pos (mem_range.2 hx)]

theorem sum_normal_mul_entry (hx : 0 < x.size) :
    ∑ t ∈ range x.size, normal x t * x.entry t = normalSq x / 2 := by
  rw [sum_normal_mul hx, ← Vec.inner_eq_sum, ← Vec.normSq, normalSq, Scalar.two_eq]
  ring

theorem sum_normal_mul_self (hx : 0 < x.size) :
    ∑ t ∈ range x.size, normal x t * normal x t = normalSq x := by
  have hswap : ∑ t ∈ range x.size, x.entry t * normal x t = normalSq x / 2 := by
    rw [← sum_normal_mul_entry hx]
    exact sum_congr rfl fun t _ => mul_comm _ _
  rw [sum_normal_mul hx, hswap]
  unfold normal normalSq
  rw [if_pos rfl, Scalar.two_eq]
  linear_combination x.norm * x.norm * leadSign_mul_self x + Vec.norm_mul_self x

theorem normalSq_nonneg (x : Vec ℝ) : 0 ≤ normalSq x := by
  rw [normalSq, Scalar.two_eq]
  exact mul_nonneg (add_nonneg x.normSq_nonneg (mul_nonneg (leadSign_mul_nonneg x) x.norm_nonneg))
    zero_le_two

/-- The normal has no length only if the vector has none. -/
theorem norm_eq_zero_of_normalSq (h : normalSq x = 0) : x.norm = 0 := by
  have h1 := x.normSq_nonneg
  have h2 := mul_nonneg (leadSign_mul_nonneg x) x.norm_nonneg
  have hsq : x.normSq = 0 := by
    rw [normalSq, Scalar.two_eq] at h
    linarith
  rw [← Vec.norm_mul_self] at hsq
  exact mul_self_eq_zero.1 hsq

theorem factor_eq_normalSq (x : Vec ℝ) :
    (x.normSq + (if 0 ≤ x.entry 0 then x.entry 0 else -x.entry 0) * x.norm) * Scalar.two =
      normalSq x := by
  unfold normalSq leadSign
  split <;> ring

/-- A vector that has no reflection has no length. -/
theorem norm_eq_zero_of_turning {start : ℕ} (h : turning start x = none) : x.norm = 0 := by
  unfold turning at h
  simp only [factor_eq_normalSq] at h
  split at h
  · rename_i hzero
    exact norm_eq_zero_of_normalSq (Scalar.isZero_iff.1 hzero)
  · cases h

/-- The axis is the normal, brought to unit length. -/
theorem turning_eq_some {start : ℕ} (hx : 0 < x.size) (hh : turning start x = some h) :
    0 < normalSq x ∧ h.start = start ∧ h.sign = -leadSign x ∧ h.axis.size = x.size ∧
      ∀ t < x.size, h.axis.entry t = normal x t / √(normalSq x) := by
  unfold turning at hh
  simp only [factor_eq_normalSq] at hh
  split at hh
  · cases hh
  rename_i hne
  have hpos : 0 < normalSq x := lt_of_le_of_ne (normalSq_nonneg x)
    (Scalar.isZero_eq_false_iff.1 (by simpa using hne)).symm
  have hroot : √(normalSq x) * √(normalSq x) = normalSq x := Real.mul_self_sqrt hpos.le
  have hrootpos : 0 < √(normalSq x) := Real.sqrt_pos.2 hpos
  -- dividing by the length once more changes nothing
  have hlength : (Vec.tabulate x.size fun t => normal x t / √(normalSq x)).norm = 1 := by
    rw [Vec.norm, Vec.normSq, Vec.inner_eq_sum, Vec.size_tabulate, Scalar.sqrt_eq]
    have hterm : ∀ t ∈ range x.size,
        (Vec.tabulate x.size fun t => normal x t / √(normalSq x)).entry t *
            (Vec.tabulate x.size fun t => normal x t / √(normalSq x)).entry t =
          normal x t * normal x t / normalSq x := by
      intro t ht
      rw [Vec.entry_tabulate _ (mem_range.1 ht), div_mul_div_comm, hroot]
    rw [sum_congr rfl hterm, ← sum_div, sum_normal_mul_self hx, div_self hpos.ne', Real.sqrt_one]
  cases hh
  refine ⟨hpos, rfl, rfl, by simp, fun t ht => ?_⟩
  show (Vec.tabulate _ _).entry t = _
  rw [Vec.entry_tabulate _ (by simpa using ht), Vec.entry_tabulate _ ht]
  show normal x t / √(normalSq x) / (Vec.tabulate x.size fun t => normal x t / √(normalSq x)).norm = _
  rw [hlength, div_one]

theorem orthogonal_turning {start : ℕ} (hx : 0 < x.size) (hh : turning start x = some h) :
    h.Orthogonal (start + x.size) := by
  obtain ⟨hpos, hstart, hsign, hsize, haxis⟩ := turning_eq_some hx hh
  have hroot : √(normalSq x) * √(normalSq x) = normalSq x := Real.mul_self_sqrt hpos.le
  refine ⟨by rw [hstart, hsize], ?_, ?_⟩
  · have hterm : ∀ t ∈ range h.axis.size,
        h.axis.entry t * h.axis.entry t = normal x t * normal x t / normalSq x := by
      intro t ht
      rw [haxis t (hsize ▸ mem_range.1 ht), div_mul_div_comm, hroot]
    rw [sum_congr rfl hterm, ← sum_div, hsize, sum_normal_mul_self hx, div_self hpos.ne']
  · rw [hsign, neg_mul_neg, leadSign_mul_self]

/-- The vector is turned onto its first coordinate. -/
theorem apply_turning {start : ℕ} (hx : 0 < x.size) (hh : turning start x = some h)
    {y : Vec ℝ} (hy : y.size = start + x.size) (htail : ∀ t < x.size, y.entry (start + t) = x.entry t)
    {t : ℕ} (ht : t < x.size) :
    (h.apply y).entry (start + t) = if t = 0 then x.norm else 0 := by
  obtain ⟨hpos, rfl, hsign, hsize, haxis⟩ := turning_eq_some hx hh
  have hroot : √(normalSq x) * √(normalSq x) = normalSq x := Real.mul_self_sqrt hpos.le
  have hrootpos : √(normalSq x) ≠ 0 := (Real.sqrt_pos.2 hpos).ne'
  have halong : h.along y * √(normalSq x) = normalSq x / 2 := by
    unfold along
    rw [hsize, sum_mul, ← sum_normal_mul_entry hx]
    refine sum_congr rfl fun t ht => ?_
    have ht' := mem_range.1 ht
    rw [haxis t ht', htail t ht']
    field_simp
  have hmirror : 2 * h.along y * h.axis.entry t = normal x t := by
    have hscale : 2 * h.along y = √(normalSq x) :=
      mul_right_cancel₀ hrootpos (by linear_combination 2 * halong - hroot)
    rw [haxis t ht, hscale, mul_div_cancel₀ _ hrootpos]
  rw [entry_apply_add (by omega), hmirror, htail t ht, hsign]
  unfold normal
  split
  · rename_i h0
    rw [h0]
    linear_combination x.norm * leadSign_mul_self x
  · ring

end Reflection

/-! ## The sweep -/

namespace Householder

variable {A : Matrix ℝ} {f : Householder ℝ} {m n k : ℕ}

/-- Turning preserves inner products. -/
theorem inner_turn (hf : ∀ h ∈ f.reflections, h.Orthogonal m) {x y : Vec ℝ} (hx : x.size = m)
    (hy : y.size = m) : (f.turn x).inner (f.turn y) = x.inner y := by
  unfold turn
  induction hs : f.reflections generalizing f x y with
  | nil => rfl
  | cons h hs' ih =>
      rw [List.foldl_cons, List.foldl_cons]
      have hrest : ∀ h' ∈ hs', h'.Orthogonal m := fun h' hh => hf h' (hs ▸ List.mem_cons_of_mem _ hh)
      rw [ih (f := { f with reflections := hs' }) hrest (by simpa using hx) (by simpa using hy) rfl,
        Reflection.inner_apply (hf h (hs ▸ List.mem_cons_self ..)) hx hy]

theorem turn_append (T : Matrix ℝ) (hs : List (Reflection ℝ)) (h : Reflection ℝ) (b : Vec ℝ) :
    turn ⟨T, hs ++ [h]⟩ b = h.apply (turn ⟨T, hs⟩ b) := by
  simp [turn]

/-- Are the columns those of the matrix, turned, and are the first `k` of them cleared below the
diagonal? -/
structure Turned (A : Matrix ℝ) (f : Householder ℝ) (m n k : ℕ) : Prop where
  shape : f.triangle.HasShape m n
  orthogonal : ∀ h ∈ f.reflections, h.Orthogonal m
  /-- The columns are turned. -/
  column : ∀ c < n, ∀ i < m, f.triangle.entry i c = (f.turn (A.column c)).entry i
  /-- The first ones are cleared. -/
  below : ∀ c < k, ∀ i, c < i → i < m → f.triangle.entry i c = 0

theorem turned_zero (hA : A.HasShape m n) : Turned A ⟨A, []⟩ m n 0 :=
  ⟨hA, by simp, fun _ _ _ _ => rfl, by simp⟩

namespace Turned

variable (hf : Turned A f m n k)

include hf

theorem column_eq (hA : A.HasShape m n) {c : ℕ} (hc : c < n) :
    f.triangle.column c = f.turn (A.column c) := by
  refine Vec.ext_entry ?_ fun i hi => ?_
  · rw [size_turn, Matrix.size_column, Matrix.size_column, hf.shape.1, hA.1]
  · rw [Matrix.size_column, hf.shape.1] at hi
    exact hf.column c hc i hi

theorem entry_tail {t : ℕ} (ht : k + t < m) :
    (tail f.triangle k).entry t = f.triangle.entry (k + t) k :=
  Vec.entry_tabulate _ (by have := hf.shape.1; omega)

theorem size_tail : (tail f.triangle k).size = m - k := by
  rw [tail, Vec.size_tabulate, hf.shape.1]

/-- A column that vanishes from the diagonal on is finished as it is. -/
theorem skip (hk : k < n) (hnorm : (tail f.triangle k).norm = 0) :
    Turned A { f with triangle := settle f.triangle k (tail f.triangle k).norm } m n (k + 1) := by
  have hzero : ∀ i, k ≤ i → i < m → f.triangle.entry i k = 0 := by
    intro i hki hi
    obtain ⟨t, rfl⟩ := Nat.exists_eq_add_of_le hki
    rw [← hf.entry_tail hi]
    exact Vec.entry_eq_zero_of_norm hnorm t
  -- what is written is what stands there
  have hsame : ∀ i < m, ∀ c < n,
      (settle f.triangle k (tail f.triangle k).norm).entry i c = f.triangle.entry i c := by
    intro i hi c hc
    rw [entry_settle _ _ (hf.shape.1.symm ▸ hi) (hf.shape.2.symm ▸ hc)]
    split
    · rename_i hcase
      obtain ⟨rfl, hki⟩ := hcase
      rw [hzero i hki hi, hnorm]
      exact ite_self _
    · rfl
  refine ⟨⟨hf.shape.1, (Matrix.cols_tabulate _ _ _).trans hf.shape.2⟩, hf.orthogonal,
    fun c hc i hi => ?_, fun c hc i hci hi => ?_⟩
  · show (settle _ _ _).entry i c = _
    rw [hsame i hi c hc]
    exact hf.column c hc i hi
  · show (settle _ _ _).entry i c = _
    rw [hsame i hi c (by omega)]
    rcases Nat.lt_succ_iff_lt_or_eq.1 hc with hlt | rfl
    · exact hf.below c hlt i hci hi
    · exact hzero i hci.le hi

/-- The reflection for the column from the diagonal on is orthogonal. -/
theorem orthogonal_turning (hkm : k < m) {h : Reflection ℝ}
    (hh : Reflection.turning k (tail f.triangle k) = some h) : h.Orthogonal m ∧ h.start = k := by
  have hsize := hf.size_tail
  have hpos : 0 < (tail f.triangle k).size := by omega
  have horth := Reflection.orthogonal_turning hpos hh
  rw [hsize, Nat.add_sub_cancel' hkm.le] at horth
  exact ⟨horth, (Reflection.turning_eq_some hpos hh).2.1⟩

/-- It moves nothing in a column that is cleared. -/
theorem entry_apply_cleared {h : Reflection ℝ} (horth : h.Orthogonal m) (hstart : h.start = k)
    {c i : ℕ} (hc : c < k) (hi : i < m) :
    (h.apply (f.triangle.column c)).entry i = f.triangle.entry i c := by
  refine Reflection.entry_apply_of_tail horth (by rw [Matrix.size_column, hf.shape.1])
    (fun t ht => ?_) hi
  have hend := horth.size
  exact hf.below c hc _ (by omega) (by omega)

/-- What stands in the matrix after a step are the columns, turned. -/
theorem entry_reflected (hk : k < n) (hkm : k < m) {h : Reflection ℝ}
    (hh : Reflection.turning k (tail f.triangle k) = some h) {i c : ℕ} (hi : i < m) (hc : c < n) :
    (settle (f.triangle.mapColumns fun c v => if k < c then h.apply v else v) k
        (tail f.triangle k).norm).entry i c = (h.apply (f.triangle.column c)).entry i := by
  have hsize := hf.size_tail
  have hcolsize : (f.triangle.column c).size = m := by rw [Matrix.size_column, hf.shape.1]
  obtain ⟨horth, hstart⟩ := hf.orthogonal_turning hkm hh
  rw [entry_settle _ _ (by simpa using hf.shape.1.symm ▸ hi) (by simpa using hf.shape.2.symm ▸ hc),
    Matrix.entry_mapColumns _ (hf.shape.1.symm ▸ hi) (hf.shape.2.symm ▸ hc)]
  rcases lt_trichotomy c k with hck | rfl | hck
  · rw [if_neg (by omega), if_neg (by omega), hf.entry_apply_cleared horth hstart hck hi]
    rfl
  · rcases Nat.lt_or_ge i c with hic | hic
    · rw [if_neg (by omega), if_neg (lt_irrefl c),
        Reflection.entry_apply_of_lt (hstart.symm ▸ hic) (hcolsize.symm ▸ hi)]
    · obtain ⟨t, rfl⟩ := Nat.exists_eq_add_of_le hic
      rw [if_pos ⟨rfl, hic⟩, Reflection.apply_turning (by omega) hh (by omega)
        (fun t ht => (hf.entry_tail (by omega)).symm) (by omega)]
      simp
  · rw [if_neg (by omega), if_pos hck]

/-- A column is cleared, and those after it are turned along. -/
theorem reflect (hA : A.HasShape m n) (hk : k < n) (hkm : k < m) {h : Reflection ℝ}
    (hh : Reflection.turning k (tail f.triangle k) = some h) :
    Turned A
      { triangle := settle (f.triangle.mapColumns fun c v => if k < c then h.apply v else v) k
          (tail f.triangle k).norm
        reflections := f.reflections ++ [h] } m n (k + 1) := by
  obtain ⟨horth, hstart⟩ := hf.orthogonal_turning hkm hh
  refine ⟨⟨hf.shape.1, ?_⟩, fun h' hh' => ?_, fun c hc i hi => ?_, fun c hc i hci hi => ?_⟩
  · exact (Matrix.cols_tabulate _ _ _).trans ((Matrix.cols_mapColumns _ _).trans hf.shape.2)
  · rcases List.mem_append.1 hh' with hold | hnew
    · exact hf.orthogonal h' hold
    · rw [List.mem_singleton.1 hnew]
      exact horth
  · show (settle _ _ _).entry i c = (turn ⟨_, f.reflections ++ [h]⟩ _).entry i
    rw [hf.entry_reflected hk hkm hh hi hc, hf.column_eq hA hc, turn_append]
    rfl
  · show (settle _ _ _).entry i c = 0
    rcases Nat.lt_succ_iff_lt_or_eq.1 hc with hlt | rfl
    · rw [hf.entry_reflected hk hkm hh hi (by omega), hf.entry_apply_cleared horth hstart hlt hi]
      exact hf.below c hlt i hci hi
    · rw [entry_settle _ _ (by simpa using hf.shape.1.symm ▸ hi) (by simpa using hf.shape.2.symm ▸ hk),
        if_pos ⟨rfl, hci.le⟩, if_neg (by omega)]

/-- One step of the sweep. -/
theorem succ (hA : A.HasShape m n) (hk : k < n) (hkm : k < m) : Turned A (f.step k) m n (k + 1) := by
  unfold step
  dsimp only
  split
  · rename_i hnone
    exact hf.skip hk (Reflection.norm_eq_zero_of_turning hnone)
  · rename_i h hsome
    exact hf.reflect hA hk hkm hsome

end Turned

/-- The invariant of the sweep. -/
theorem turned_sweep (hA : A.HasShape m n) (hnm : n ≤ m) (hk : k ≤ n) :
    Turned A (sweep k A) m n k := by
  induction k with
  | zero => exact turned_zero hA
  | succ k ih => exact (ih (by omega)).succ hA (by omega) (by omega)

theorem turned_factor (hA : A.HasShape m n) (hnm : n ≤ m) : Turned A (factor A) m n n := by
  unfold factor
  rw [hA.2]
  exact turned_sweep hA hnm le_rfl

/-! ## Solving -/

section Solving

variable (hf : Turned A f m n n) (hA : A.HasShape m n) (hnm : n ≤ m)

include hf hA hnm

/-- A turned column has the coordinates of a column of `R`, and zeros below them. -/
theorem inner_column {c : ℕ} (hc : c < n) {b : Vec ℝ} (hb : b.size = m) :
    (A.column c).inner b =
      ∑ i ∈ range n, Triangular.upper f.triangle i c * (f.turn b).entry i := by
  have hcol : (A.column c).size = m := by rw [Matrix.size_column, hA.1]
  rw [← inner_turn hf.orthogonal hcol hb, Vec.inner_eq_sum, size_turn, hcol,
    ← sum_subset (range_subset_range.2 hnm)]
  · refine sum_congr rfl fun i hi => ?_
    have hi' := mem_range.1 hi
    rw [← hf.column c hc i (by omega)]
    rcases Nat.lt_or_ge c i with hci | hci
    · rw [hf.below c hc i hci (by omega), Triangular.upper_of_gt hci]
    · rw [Triangular.upper_of_le hci]
  · intro i hi hin
    have hi' := mem_range.1 hi
    have hin' : n ≤ i := by simpa using hin
    rw [← hf.column c hc i hi', hf.below c hc i (by omega) hi', zero_mul]

/-- The inner products of the columns are those of the columns of `R`. -/
theorem gram_eq : ∀ i < n, ∀ j < n, A.gram.entry i j =
    ∑ t ∈ range n, Triangular.upper f.triangle t i * Triangular.upper f.triangle t j := by
  intro i hi j hj
  have hcol : (A.column j).size = m := by rw [Matrix.size_column, hA.1]
  rw [Matrix.entry_gram (hA.2.symm ▸ hi) (hA.2.symm ▸ hj), inner_column hf hA hnm hi hcol]
  refine sum_congr rfl fun t ht => ?_
  have ht' := mem_range.1 ht
  rw [← hf.column j hj t (by omega)]
  rcases Nat.lt_or_ge j t with hjt | hjt
  · rw [hf.below j hj t hjt (by omega), Triangular.upper_of_gt hjt]
  · rw [Triangular.upper_of_le hjt]

end Solving

variable {b x : Vec ℝ}

/-- **A solution of the triangular system solves the normal equations.** -/
theorem solves_backward (hA : A.HasShape m n) (hnm : n ≤ m) (hb : b.size = m)
    (h : Triangular.backward (factor A).triangle n (Vec.tabulate n ((factor A).turn b).entry) =
      .ok x) :
    Solves n A.gram.entry x.entry fun c => (A.column c).inner b := by
  have hf := turned_factor hA hnm
  have hR := (Triangular.solves_backward h (by simp)).1
  refine Solves.mul (B := fun i t => Triangular.upper (factor A).triangle t i)
    (y := ((factor A).turn b).entry) (gram_eq hf hA hnm)
    (hR.congr (fun _ _ _ _ => rfl) fun i hi => (Vec.entry_tabulate _ hi).symm) ?_
  intro c hc
  exact (inner_column hf hA hnm hc hb).symm

/-- **The normal equations are nonsingular** if the triangular system is solved. -/
theorem nonsingular_of_backward (hA : A.HasShape m n) (hnm : n ≤ m) {start : Vec ℝ}
    (hs : start.size = n) (h : Triangular.backward (factor A).triangle n start = .ok x) :
    Nonsingular n A.gram.entry := by
  have hdiag := (Triangular.solves_backward h hs.ge).2
  refine Nonsingular.mul (B := fun i t => Triangular.upper (factor A).triangle t i)
    (gram_eq (turned_factor hA hnm) hA hnm) ?_ (Triangular.nonsingular_upper hdiag)
  exact nonsingular_of_lower (fun _ _ _ _ hlt => Triangular.upper_of_gt hlt) fun i hi => by
    rw [Triangular.upper_of_le le_rfl]
    exact hdiag i hi

/-- **The triangular system can be solved** if the normal equations are nonsingular: there is no zero
on the diagonal. -/
theorem diagonal_ne_zero (hA : A.HasShape m n) (hnm : n ≤ m) (h : Nonsingular n A.gram.entry) {i : ℕ}
    (hi : i < n) : (factor A).triangle.entry i i ≠ 0 :=
  Triangular.diagonal_ne_zero (h.right (gram_eq (turned_factor hA hnm) hA hnm)) hi

end Householder

end TrustRegion
