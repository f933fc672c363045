import TrustRegion.Solver

/-!
# The answer of a solve

A solver keeps buffers between solves: it replaces those of the wrong size, writes over the others
from the front, and leaves them half used where it gives up.  None of this can be seen from outside.

For each kind of solver this file defines the answer as a function of the subproblem and the tolerance
alone (`CholeskySolver.answer`, `LuSolver.answer`, `QrSolver.answer`, and `Solver.answer` for all
three), and proves that every solve of a subproblem whose parts fit gives exactly that answer, whatever
the buffers and the vector written over hold (`Solver.solve_answer`).  Buffers that had the sizes of
the subproblem (`Solver.Sized`) have them afterwards, also where the solver gives up, and where it gives
up at one of its tests (`Solver.Admits`) it has written nothing.  No law of the arithmetic is used.
-/

namespace TrustRegion

variable {α : Type}

/-- What an attempt found: the solution, or the reason why there is none. -/
def Attempt.answer {ω : Type} (a : Attempt α ω) : Except (SolveError α) (Vec α) :=
  a.verdict.map fun _ => a.step

theorem Attempt.answer_eq_ok_iff {ω : Type} {a : Attempt α ω} {p : Vec α} :
    a.answer = .ok p ↔ a.verdict = .ok () ∧ a.step = p := by
  unfold Attempt.answer
  cases a.verdict <;> simp [Except.map]

theorem Attempt.verdict_eq_ok_iff {ω : Type} {a : Attempt α ω} :
    a.verdict = .ok () ↔ ∃ p, a.answer = .ok p := by
  simp [answer_eq_ok_iff]

theorem Attempt.answer_eq_error_iff {ω : Type} {a : Attempt α ω} {e : SolveError α} :
    a.answer = .error e ↔ a.verdict = .error e := by
  unfold Attempt.answer
  cases a.verdict <;> simp [Except.map]

/-- Whether a solve succeeded can be told from its answer. -/
theorem Attempt.verdict_eq {ω : Type} (a : Attempt α ω) : a.verdict = a.answer.map fun _ => () := by
  unfold Attempt.answer
  cases a.verdict <;> rfl

variable [Scalar α]

/-- The entrywise product, for vectors known to have one size. -/
def Vec.times (x y : Vec α) : Vec α := Vec.tabulate x.size fun i => x.entry i * y.entry i

@[simp] theorem Vec.size_times (x y : Vec α) : (x.times y).size = x.size := by simp [Vec.times]

theorem Vec.entry_times {x : Vec α} {i : Nat} (y : Vec α) (hi : i < x.size) :
    (x.times y).entry i = x.entry i * y.entry i := Vec.entry_tabulate _ hi

theorem Vec.hadamard_eq_times {x y : Vec α} (h : x.size = y.size) :
    x.hadamard y = some (x.times y) := Vec.hadamard_of_size h

/-- How a solve with a scaling ends: a substitution that stops is a failure, and a solution is scaled
back. -/
theorem Attempt.exists_scaledBack {ω : Type} {scale : Vec α} {n : Nat} (hscale : scale.size = n)
    (found : Except (Vec α) (Vec α)) (error : SolveError α) (after : ω) :
    (∀ y, found = .ok y ∨ found = .error y → y.size = n) →
    ∃ a : Attempt α ω,
      (match found with
        | .error y => some ⟨.error error, after, y⟩
        | .ok y => (y.hadamard scale).map fun p => ⟨.ok (), after, p⟩) = some a ∧
      (a.answer = match found with
        | .error _ => .error error
        | .ok y => .ok (y.times scale)) ∧
      a.step.size = n ∧ a.workspace = after := by
  intro hfound
  cases found with
  | error y => exact ⟨_, rfl, rfl, hfound y (.inr rfl), rfl⟩
  | ok y =>
      have hsize : y.size = n := hfound y (.inl rfl)
      simp only [Vec.hadamard_eq_times (hsize.trans hscale.symm), Option.map_some]
      exact ⟨_, rfl, rfl, by simpa using hsize, rfl⟩

namespace NormalEquations

/-! ## The scaling -/

/-- The scaling `1 / √B_ii` of all unknowns. -/
def scaling (e : NormalEquations α) : Vec α :=
  Vec.tabulate e.unknowns fun i => 1 / Scalar.sqrt (e.diagonal i)

@[simp] theorem size_scaling (e : NormalEquations α) : e.scaling.size = e.unknowns := by
  simp [scaling]

theorem entry_scaling {e : NormalEquations α} {i : Nat} (h : i < e.unknowns) :
    e.scaling.entry i = 1 / Scalar.sqrt (e.diagonal i) := Vec.entry_tabulate _ h

theorem flatDiagonal?_eq_none_iff {e : NormalEquations α} {n : Nat} :
    e.flatDiagonal? n = none ↔ ∀ i < n, 0 < e.diagonal i := by
  simp [flatDiagonal?]

/-- Where the diagonal is positive, nothing remains of what the scaling is written over. -/
theorem scalingOver_fst {e : NormalEquations α} {scale : Vec α} (h : scale.size = e.unknowns)
    (hflat : e.flatDiagonal? e.unknowns = none) : (e.scalingOver scale).1 = e.scaling := by
  have hpos := flatDiagonal?_eq_none_iff.1 hflat
  have hall : (List.range scale.size).findIdx (fun i => !decide (0 < e.diagonal i)) = scale.size := by
    rw [List.findIdx_eq_length_of_false, List.length_range]
    intro i hi
    have hi' : i < e.unknowns := by rw [← h]; exact List.mem_range.1 hi
    simp [hpos i hi']
  refine Vec.ext_entry (by simpa using h) fun i hi => ?_
  have hi' : i < scale.size := by simpa using hi
  rw [entry_scaling (h ▸ hi'), scalingOver]
  simp only [hall]
  rw [Vec.entry_tabulate _ hi', if_pos hi']

/-- Whether there is a scaling is decided by the diagonal, and so is the scaling; of what it is written
over only the size matters. -/
theorem exists_scalingOver? {e : NormalEquations α} {size : Nat} {scale : Vec α} (h : e.Fits size)
    (hscale : scale.size = e.unknowns) :
    ∃ s, e.scalingOver? scale = some (s, e.flatDiagonal? e.unknowns) ∧ s.size = e.unknowns ∧
      (e.flatDiagonal? e.unknowns = none → s = e.scaling) := by
  refine ⟨(e.scalingOver scale).1, ?_, (e.size_scalingOver scale).trans hscale,
    scalingOver_fst hscale⟩
  rw [scalingOver?_of_hasDiagonal (hscale ▸ h.1.hasDiagonal), ← hscale]
  rfl

/-- The scaled Hessian has the shape of the Hessian. -/
theorem hasShape_scaled {e : NormalEquations α} {size : Nat} (h : e.Fits size) :
    (e.hessian.scaleBoth e.scaling).HasShape e.unknowns e.unknowns :=
  Matrix.SameShape.hasShape (e.hessian.hasShape_scaleBoth e.scaling) h.1

end NormalEquations

/-! ## Each kind of solver -/

namespace CholeskySolver

/-- Has the buffer the size for `n` unknowns? -/
def Sized (w : CholeskySolver α) (n : Nat) : Prop := w.factor.HasShape n n

theorem sized_ofSize (n : Nat) : (ofSize n : CholeskySolver α).Sized n := Matrix.hasShape_zeros _ _

theorem sized_room (w : CholeskySolver α) (n : Nat) : (w.room n).Sized n := by
  unfold room
  split
  · assumption
  · exact sized_ofSize n

/-- Does the subproblem pass the tests that are made before anything is written? -/
def Admits (e : NormalEquations α) (tolerance : α) : Prop :=
  e.flatDiagonal? e.unknowns = none ∧
    ∃ L, Cholesky.factor e.hessian = some L ∧ weakPivot? e L tolerance = none

/-- The answer by Cholesky factorisation. -/
def answer (e : NormalEquations α) (tolerance : α) : Except (SolveError α) (Vec α) :=
  match e.flatDiagonal? e.unknowns with
  | some b => .error (.singular (.finite b) 0)
  | none =>
    match Cholesky.factor e.hessian with
    | none => .error .notPositiveDefinite
    | some L =>
      match weakPivot? e L tolerance with
      | some (pivot, threshold) => .error (.singular (.finite pivot) threshold)
      | none => .ok (Cholesky.solve L e.gradient.neg)

/-- No pivot is weak if all exceed their thresholds. -/
theorem weakPivot?_eq_none_iff {e : NormalEquations α} {L : Matrix α} {tolerance : α} :
    weakPivot? e L tolerance = none ↔ ∀ i < e.unknowns, tolerance * e.diagonal i < pivot L i := by
  simp [weakPivot?]

theorem solve_answer {e : NormalEquations α} {step : Vec α} (w : CholeskySolver α) (tolerance : α)
    (h : e.Fits step.size) :
    ∃ a, w.solve e tolerance step = some a ∧ a.answer = answer e tolerance ∧
      a.step.size = e.unknowns ∧ (w.Sized e.unknowns → a.workspace.Sized e.unknowns) ∧
      (¬Admits e tolerance → a.step = step) := by
  obtain ⟨hB, hg, hs, -⟩ := id h
  unfold solve answer Admits
  simp only [if_pos h, NormalEquations.checkDiagonal_of_hasDiagonal hB.hasDiagonal,
    Option.bind_eq_bind, Option.bind_some]
  cases hflat : e.flatDiagonal? e.unknowns with
  | some b => exact ⟨_, rfl, rfl, hs, id, fun _ => rfl⟩
  | none =>
    simp only [Matrix.copyFrom_of_sameShape ((w.sized_room e.unknowns).sameShape hB),
      Cholesky.factor?_of_hasShape hB, Option.bind_some]
    cases hL : Cholesky.factor e.hessian with
    | none => exact ⟨_, rfl, rfl, hs, fun _ => sized_ofSize _, fun _ => rfl⟩
    | some L =>
      have hshape := Cholesky.hasShape_factor hB hL
      simp only [checkPivots_of_hasDiagonal tolerance hshape.hasDiagonal hB.hasDiagonal,
        Option.bind_some]
      cases hweak : weakPivot? e L tolerance with
      | some p => exact ⟨_, rfl, rfl, hs, fun _ => hshape, fun _ => rfl⟩
      | none =>
        have hsolve : L.HasShape e.gradient.neg.size e.gradient.neg.size := by
          rwa [Vec.size_neg, hg]
        simp only [Vec.copyFrom_of_size (hs.trans hg.symm), Cholesky.solve?_of_hasShape hsolve,
          Option.bind_some]
        exact ⟨_, rfl, rfl, by simpa using hg, fun _ => hshape,
          fun hnot => absurd ⟨trivial, L, rfl, hweak⟩ hnot⟩

end CholeskySolver

namespace LuSolver

/-- Have the buffers the sizes for `n` unknowns? -/
def Sized (w : LuSolver α) (n : Nat) : Prop := w.scaled.HasShape n n ∧ w.scale.size = n

theorem sized_ofSize (n : Nat) : (ofSize n : LuSolver α).Sized n :=
  ⟨Matrix.hasShape_zeros _ _, Vec.size_zeros _⟩

theorem sized_room (w : LuSolver α) (n : Nat) : (w.room n).Sized n := by
  unfold room
  split
  · assumption
  · exact sized_ofSize n

/-- The factors of the scaled Hessian. -/
def factors (e : NormalEquations α) : PivotedLu α := PivotedLu.factor (e.hessian.scaleBoth e.scaling)

theorem hasShape_factors {e : NormalEquations α} {size : Nat} (h : e.Fits size) :
    (factors e).combined.HasShape e.unknowns e.unknowns :=
  PivotedLu.hasShape_factor (NormalEquations.hasShape_scaled h)

/-- Does the subproblem pass the tests that are made before anything is written? -/
def Admits (e : NormalEquations α) (tolerance : α) : Prop :=
  e.flatDiagonal? e.unknowns = none ∧
    ((factors e).upper.leastPivot e.unknowns).exceeds tolerance = true

/-- The answer by triangular factorisation with row exchanges. -/
def answer (e : NormalEquations α) (tolerance : α) : Except (SolveError α) (Vec α) :=
  match e.flatDiagonal? e.unknowns with
  | some b => .error (.singular (.finite b) 0)
  | none =>
    let pivot := (factors e).upper.leastPivot e.unknowns
    if pivot.exceeds tolerance then
      match (factors e).solve (e.gradient.times e.scaling).neg with
      | .error _ => .error (.singular pivot tolerance)
      | .ok y => .ok (y.times e.scaling)
    else .error (.singular pivot tolerance)

theorem solve_answer {e : NormalEquations α} {step : Vec α} (w : LuSolver α) (tolerance : α)
    (h : e.Fits step.size) :
    ∃ a, w.solve e tolerance step = some a ∧ a.answer = answer e tolerance ∧
      a.step.size = e.unknowns ∧ (w.Sized e.unknowns → a.workspace.Sized e.unknowns) ∧
      (¬Admits e tolerance → a.step = step) := by
  obtain ⟨hB, hg, hs, -⟩ := id h
  obtain ⟨hscaled, hscale⟩ := w.sized_room e.unknowns
  obtain ⟨scale, hover, hsize, hfull⟩ := NormalEquations.exists_scalingOver? h hscale
  have hcombined := hasShape_factors h
  unfold solve answer Admits factors
  unfold factors at hcombined
  simp only [if_pos h, hover, Option.bind_eq_bind, Option.bind_some]
  cases hflat : e.flatDiagonal? e.unknowns with
  | some b => exact ⟨_, rfl, rfl, hs, fun _ => ⟨hscaled, hsize⟩, fun _ => rfl⟩
  | none =>
    simp only [hfull hflat, Matrix.copyFrom_of_sameShape (hscaled.sameShape hB),
      Matrix.scaleBoth?_of_hasShape (e.size_scaling.symm ▸ hB), Option.bind_some]
    generalize PivotedLu.factor (e.hessian.scaleBoth e.scaling) = f at hcombined
    have hafter : Sized (⟨f.upper, e.scaling⟩ : LuSolver α) e.unknowns :=
      ⟨⟨hcombined.2, (Matrix.cols_tabulate _ _ _).trans hcombined.2⟩, e.size_scaling⟩
    split
    · rename_i hpivot
      have hsolve : f.combined.HasShape (e.gradient.times e.scaling).neg.size
          (e.gradient.times e.scaling).neg.size := by
        rwa [Vec.size_neg, Vec.size_times, hg]
      simp only [Vec.copyFrom_of_size (hs.trans hg.symm), Option.bind_some,
        Vec.hadamard_eq_times (hg.trans e.size_scaling.symm), PivotedLu.solve?_of_hasShape hsolve]
      obtain ⟨a, ha, hanswer, hstep, hleft⟩ := Attempt.exists_scaledBack e.size_scaling
        (f.solve (e.gradient.times e.scaling).neg)
        (.singular (f.upper.leastPivot e.unknowns) tolerance) (⟨f.upper, e.scaling⟩ : LuSolver α)
        (by rintro y (hy | hy)
            · simpa [hg] using PivotedLu.size_solve hy
            · simpa [hg] using PivotedLu.size_solve_error hy)
      exact ⟨a, ha, hanswer, hstep, fun _ => hleft ▸ hafter,
        fun hnot => absurd ⟨trivial, hpivot⟩ hnot⟩
    · exact ⟨_, rfl, rfl, hs, fun _ => hafter, fun _ => rfl⟩

end LuSolver

namespace QrSolver

/-- Have the buffers the sizes for `n` unknowns and `m` residuals? -/
def Sized (w : QrSolver α) (n m : Nat) : Prop :=
  w.scaled.HasShape m n ∧ w.scale.size = n ∧ w.rhs.size = m

theorem sized_ofSize (n m : Nat) : (ofSize n m : QrSolver α).Sized n m :=
  ⟨Matrix.hasShape_zeros _ _, Vec.size_zeros _, Vec.size_zeros _⟩

theorem sized_room (w : QrSolver α) (n m : Nat) : (w.room n m).Sized n m := by
  unfold room
  split
  · assumption
  · exact sized_ofSize n m

/-- The triangular form of the scaled Jacobian. -/
def factors (e : NormalEquations α) : Householder α :=
  Householder.factor (e.jacobian.scaleColumns e.scaling)

theorem hasShape_factors (e : NormalEquations α) :
    (factors e).triangle.HasShape e.jacobian.rows e.unknowns :=
  Householder.hasShape_factor (e.jacobian.hasShape_scaleColumns _)

/-- The turned residuals, as far as the substitution reads them. -/
def lead (e : NormalEquations α) : Vec α :=
  Vec.tabulate e.unknowns ((factors e).turn e.residuals.neg).entry

@[simp] theorem size_lead (e : NormalEquations α) : (lead e).size = e.unknowns :=
  Vec.size_tabulate _ _

/-- Does the subproblem pass the tests that are made before anything is written? -/
def Admits (e : NormalEquations α) (tolerance : α) : Prop :=
  e.unknowns ≤ e.jacobian.rows ∧ e.flatDiagonal? e.unknowns = none ∧
    ((factors e).triangle.leastPivot e.unknowns).exceeds (Scalar.sqrt tolerance) = true

/-- The answer by orthogonal triangularisation. -/
def answer (e : NormalEquations α) (tolerance : α) : Except (SolveError α) (Vec α) :=
  let threshold := Scalar.sqrt tolerance
  if e.jacobian.rows < e.unknowns then .error (.singular (.finite 0) threshold)
  else
    match e.flatDiagonal? e.unknowns with
    | some b => .error (.singular (.finite b) 0)
    | none =>
      let pivot := (factors e).triangle.leastPivot e.unknowns
      if pivot.exceeds threshold then
        match Triangular.backward (factors e).triangle e.unknowns (lead e) with
        | .error _ => .error (.singular pivot threshold)
        | .ok y => .ok (y.times e.scaling)
      else .error (.singular pivot threshold)

theorem solve_answer {e : NormalEquations α} {step : Vec α} (w : QrSolver α) (tolerance : α)
    (h : e.Fits step.size) :
    ∃ a, w.solve e tolerance step = some a ∧ a.answer = answer e tolerance ∧
      a.step.size = e.unknowns ∧
      (w.Sized e.unknowns e.jacobian.rows → a.workspace.Sized e.unknowns e.jacobian.rows) ∧
      (¬Admits e tolerance → a.step = step) := by
  obtain ⟨hB, -, hs, hr⟩ := id h
  obtain ⟨hscaled, hscale, hrhs⟩ := w.sized_room e.unknowns e.jacobian.rows
  obtain ⟨scale, hover, hsize, hfull⟩ := NormalEquations.exists_scalingOver? h hscale
  obtain ⟨hrows, hcols⟩ := hasShape_factors e
  unfold solve answer Admits lead factors
  unfold factors at hrows hcols
  simp only [if_pos h]
  by_cases hm : e.jacobian.rows < e.unknowns
  · simp only [if_pos hm]
    exact ⟨_, rfl, rfl, hs, id, fun _ => rfl⟩
  have hm' : e.unknowns ≤ e.jacobian.rows := Nat.not_lt.1 hm
  simp only [if_neg hm, hover, Option.bind_eq_bind, Option.bind_some]
  cases hflat : e.flatDiagonal? e.unknowns with
  | some b => exact ⟨_, rfl, rfl, hs, fun _ => ⟨hscaled, hsize, hrhs⟩, fun _ => rfl⟩
  | none =>
    have hneg : e.residuals.neg.size =
        (Householder.factor (e.jacobian.scaleColumns e.scaling)).triangle.rows := by
      rw [Vec.size_neg, hr, hrows]
    simp only [hfull hflat, Matrix.copyFrom_of_sameShape (hscaled.sameShape ⟨rfl, rfl⟩),
      Vec.copyFrom_of_size (hrhs.trans hr.symm),
      Matrix.scaleColumns?_of_le (Nat.le_of_eq e.size_scaling.symm), Householder.turn?_of_size hneg,
      Option.bind_some]
    generalize Householder.factor (e.jacobian.scaleColumns e.scaling) = f at hrows hcols
    have hturn : (f.turn e.residuals.neg).size = e.jacobian.rows := by
      rw [Householder.size_turn, Vec.size_neg, hr]
    have hafter : Sized (⟨f.triangle, e.scaling, f.turn e.residuals.neg⟩ : QrSolver α) e.unknowns
        e.jacobian.rows := ⟨⟨hrows, hcols⟩, e.size_scaling, hturn⟩
    split
    · rename_i hpivot
      have hlead : (Vec.tabulate e.unknowns (f.turn e.residuals.neg).entry).size = e.unknowns :=
        Vec.size_tabulate _ _
      have hbackward := Triangular.backward?_of_size (hcols.trans hlead.symm)
        (by rw [hlead, hrows]; exact hm')
      rw [hlead] at hbackward
      simp only [Vec.first_of_le (hturn ▸ hm'), Option.bind_some,
        Vec.copyFrom_of_size (hs.trans hlead.symm), hbackward]
      obtain ⟨a, ha, hanswer, hstep, hleft⟩ := Attempt.exists_scaledBack e.size_scaling
        (Triangular.backward f.triangle e.unknowns (Vec.tabulate e.unknowns
          (f.turn e.residuals.neg).entry))
        (.singular (f.triangle.leastPivot e.unknowns) (Scalar.sqrt tolerance))
        (⟨f.triangle, e.scaling, f.turn e.residuals.neg⟩ : QrSolver α)
        (by rintro y (hy | hy)
            · simpa using Triangular.size_backward hy
            · simpa using Triangular.size_backward_error hy)
      exact ⟨a, ha, hanswer, hstep, fun _ => hleft ▸ hafter,
        fun hnot => absurd ⟨hm', trivial, hpivot⟩ hnot⟩
    · exact ⟨_, rfl, rfl, hs, fun _ => hafter, fun _ => rfl⟩

end QrSolver

/-! ## All kinds -/

namespace Solver

/-- The answer of a solver of a given kind. -/
def answer (kind : SolverKind) (e : NormalEquations α) (tolerance : α) :
    Except (SolveError α) (Vec α) :=
  match kind with
  | .cholesky => CholeskySolver.answer e tolerance
  | .lu => LuSolver.answer e tolerance
  | .qr => QrSolver.answer e tolerance

/-- Does the subproblem pass the tests that a solver makes before it writes anything? -/
def Admits (kind : SolverKind) (e : NormalEquations α) (tolerance : α) : Prop :=
  match kind with
  | .cholesky => CholeskySolver.Admits e tolerance
  | .lu => LuSolver.Admits e tolerance
  | .qr => QrSolver.Admits e tolerance

/-- Have the buffers the sizes for `n` unknowns and `m` residuals? -/
def Sized (s : Solver α) (n m : Nat) : Prop :=
  match s with
  | cholesky w => w.Sized n
  | lu w => w.Sized n
  | qr w => w.Sized n m

theorem sized_ofKind (kind : SolverKind) (n m : Nat) : (ofKind kind n m : Solver α).Sized n m := by
  cases kind with
  | cholesky => exact CholeskySolver.sized_ofSize n
  | lu => exact LuSolver.sized_ofSize n
  | qr => exact QrSolver.sized_ofSize n m

/-- **Buffers carry no information.**  A solve of a subproblem whose parts fit always ends, with the
answer that depends on the kind of the solver, the subproblem and the tolerance alone.  Where the tests
are not passed, nothing has been written. -/
theorem solve_answer {e : NormalEquations α} {step : Vec α} (s : Solver α) (tolerance : α)
    (h : e.Fits step.size) :
    ∃ a, s.solve e tolerance step = some a ∧ a.answer = answer s.kind e tolerance ∧
      a.workspace.kind = s.kind ∧ a.step.size = e.unknowns ∧
      (s.Sized e.unknowns e.jacobian.rows → a.workspace.Sized e.unknowns e.jacobian.rows) ∧
      (¬Admits s.kind e tolerance → a.step = step) := by
  cases s with
  | cholesky w =>
      obtain ⟨a, ha, hanswer, hsize, hsized, hunwritten⟩ := w.solve_answer tolerance h
      exact ⟨a.map cholesky, by simp [solve, ha], hanswer, rfl, hsize, hsized, hunwritten⟩
  | lu w =>
      obtain ⟨a, ha, hanswer, hsize, hsized, hunwritten⟩ := w.solve_answer tolerance h
      exact ⟨a.map lu, by simp [solve, ha], hanswer, rfl, hsize, hsized, hunwritten⟩
  | qr w =>
      obtain ⟨a, ha, hanswer, hsize, hsized, hunwritten⟩ := w.solve_answer tolerance h
      exact ⟨a.map qr, by simp [solve, ha], hanswer, rfl, hsize, hsized, hunwritten⟩

/-- Parts that do not fit are refused, and nothing changes. -/
theorem solve_of_not_fits {e : NormalEquations α} {step : Vec α} (s : Solver α) (tolerance : α)
    (h : ¬e.Fits step.size) :
    s.solve e tolerance step = some ⟨.error .dimensionMismatch, s, step⟩ := by
  cases s with
  | cholesky w => simp [solve, CholeskySolver.solve, if_neg h, Attempt.map]
  | lu w => simp [solve, LuSolver.solve, if_neg h, Attempt.map]
  | qr w => simp [solve, QrSolver.solve, if_neg h, Attempt.map]

/-- Only a solve whose parts fit is a success. -/
theorem fits_of_ok {s : Solver α} {e : NormalEquations α} {tolerance : α} {step : Vec α}
    {a : Attempt α (Solver α)} (h : s.solve e tolerance step = some a) (hv : a.verdict = .ok ()) :
    e.Fits step.size := by
  refine Decidable.byContradiction fun hfits => ?_
  rw [s.solve_of_not_fits tolerance hfits] at h
  cases h
  cases hv

/-- A solve that is a success has written the answer. -/
theorem answer_of_ok {s : Solver α} {e : NormalEquations α} {tolerance : α} {step : Vec α}
    {a : Attempt α (Solver α)} (h : s.solve e tolerance step = some a) (hv : a.verdict = .ok ()) :
    answer s.kind e tolerance = .ok a.step := by
  obtain ⟨b, hb, hanswer, -⟩ := s.solve_answer tolerance (fits_of_ok h hv)
  obtain rfl : a = b := Option.some.inj (h.symm.trans hb)
  rw [← hanswer]
  exact Attempt.answer_eq_ok_iff.2 ⟨hv, rfl⟩

/-- A solution has one entry for each unknown. -/
theorem size_of_answer {e : NormalEquations α} {size : Nat} {kind : SolverKind} {tolerance : α}
    {p : Vec α} (h : e.Fits size) (hp : answer kind e tolerance = .ok p) :
    p.size = e.unknowns := by
  have hfits : e.Fits (Vec.zeros size : Vec α).size := by simpa using h
  obtain ⟨a, -, hanswer, -, hsize, -⟩ := (ofKind kind 0 0 : Solver α).solve_answer tolerance hfits
  rw [kind_ofKind, hp] at hanswer
  rw [← (Attempt.answer_eq_ok_iff.1 hanswer).2]
  exact hsize

end Solver

end TrustRegion
