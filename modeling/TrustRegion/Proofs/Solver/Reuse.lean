import TrustRegion.Proofs.Model.Staged
import TrustRegion.Proofs.Scalar.Binary64
import TrustRegion.Proofs.Solver.Answer

/-!
# A solver that has been used before

Between solves a solver keeps its buffers: the scaling, a factor of some earlier matrix, or what a failed
factorisation has left of one, perhaps of another size.  A solve looks at the sizes of the buffers alone, and
writes over everything that it reads.

`Solver.after` is the solver after any uses.  The answer of one solve is a function of its kind and of what it
is given (`Solver.solve_respond`), so **`Solver.reuse_unobservable`**: a solver that has been used before
answers as a new one does.  No law of the arithmetic is used.
-/

namespace TrustRegion

namespace Solver

/-- A use of a solver. -/
inductive Use (α : Type) where
  /-- To make room for `n` unknowns and `m` residuals. -/
  | resize (n m : Nat)
  /-- To solve a subproblem, with a tolerance, and to write the solution over `step`. -/
  | solve (e : NormalEquations α) (tolerance : α) (step : Vec α)

variable {α : Type} [Scalar α] {e : NormalEquations α} {tolerance : α} {step : Vec α}

/-- The solver after one use, however that ends. -/
def afterOne (s : Solver α) : Use α → Checked (Solver α)
  | .resize n m => some (s.resize n m)
  | .solve e tolerance step => (s.solve e tolerance step).map (·.workspace)

/-- The solver after some uses. -/
def after (s : Solver α) : List (Use α) → Checked (Solver α)
  | [] => some s
  | use :: uses => do (← s.afterOne use).after uses

/-! ## One use -/

/-- The answer as a function of the kind and of what is given: the sizes are looked at first. -/
def respond (kind : SolverKind) (e : NormalEquations α) (tolerance : α) (size : Nat) :
    Except (SolveError α) (Vec α) :=
  if e.Fits size then answer kind e tolerance else .error .dimensionMismatch

/-- A solve leaves buffers of its own kind. -/
theorem kind_workspace {s : Solver α} {a : Attempt α (Solver α)}
    (h : s.solve e tolerance step = some a) : a.workspace.kind = s.kind := by
  cases s with
  | cholesky w => obtain ⟨b, -, rfl⟩ := Option.map_eq_some_iff.1 h; rfl
  | lu w => obtain ⟨b, -, rfl⟩ := Option.map_eq_some_iff.1 h; rfl
  | qr w => obtain ⟨b, -, rfl⟩ := Option.map_eq_some_iff.1 h; rfl

/-- Every solve is answered, and buffers have no part in the answer. -/
theorem solve_respond (s : Solver α) (e : NormalEquations α) (tolerance : α) (step : Vec α) :
    ∃ a, s.solve e tolerance step = some a ∧
      a.answer = respond s.kind e tolerance step.size := by
  unfold respond
  by_cases hfits : e.Fits step.size
  · obtain ⟨a, ha, hanswer, -⟩ := s.solve_answer tolerance hfits
    exact ⟨a, ha, by rw [hanswer, if_pos hfits]⟩
  · rw [if_neg hfits]
    exact ⟨_, s.solve_of_not_fits tolerance hfits, rfl⟩

/-- A use has an outcome, and does not change the kind. -/
theorem exists_afterOne (s : Solver α) (use : Use α) :
    ∃ s', s.afterOne use = some s' ∧ s'.kind = s.kind := by
  cases use with
  | resize n m => exact ⟨_, rfl, kind_resize s n m⟩
  | solve e tolerance step =>
      obtain ⟨a, ha, -⟩ := s.solve_respond e tolerance step
      exact ⟨a.workspace, by rw [afterOne, ha]; rfl, kind_workspace ha⟩

/-! ## Any number of uses -/

theorem exists_after (s : Solver α) (uses : List (Use α)) :
    ∃ s', s.after uses = some s' ∧ s'.kind = s.kind := by
  induction uses generalizing s with
  | nil => exact ⟨s, rfl, rfl⟩
  | cons use uses ih =>
      obtain ⟨s₁, h₁, hkind₁⟩ := s.exists_afterOne use
      obtain ⟨s₂, h₂, hkind₂⟩ := ih s₁
      refine ⟨s₂, ?_, hkind₂.trans hkind₁⟩
      simp only [after, h₁, h₂, Option.bind_eq_bind, Option.bind_some]

/-- **A used solver answers as a new one.**  Let a solver begin with any buffers at all, and let it be used in
any way, with subproblems of any sizes, whether they fit or not and whether they are solved or not.  A further
solve has the outcome of the same solve by a solver that has just been made for it: the same solution, or the
same error with the same pivot and threshold.  What the vectors hold that are written over does not matter. -/
theorem reuse_unobservable (s : Solver α) (uses : List (Use α)) :
    ∃ s', s.after uses = some s' ∧
      ∀ (e : NormalEquations α) (tolerance : α) (step step' : Vec α), step.size = step'.size →
        ∃ a b, s'.solve e tolerance step = some a ∧
          (ofKind s.kind e.unknowns e.jacobian.rows).solve e tolerance step' = some b ∧
          a.answer = b.answer := by
  obtain ⟨s', hafter, hkind⟩ := s.exists_after uses
  refine ⟨s', hafter, fun e tolerance step step' hsize => ?_⟩
  obtain ⟨a, ha, hanswer⟩ := s'.solve_respond e tolerance step
  obtain ⟨b, hb, hanswer'⟩ :=
    (ofKind s.kind e.unknowns e.jacobian.rows).solve_respond e tolerance step'
  refine ⟨a, b, ha, hb, ?_⟩
  rw [hanswer, hanswer', kind_ofKind, hkind, hsize]

/-- A solver that has met two equal columns, a vector of the wrong size and a request for room of another
size solves a problem with two independent columns. -/
theorem reuse_unobservable_of_failures :
    let equal : Matrix Float := .tabulate 3 2 fun i _ => Float.ofNat i + 1
    let good : Matrix Float := .tabulate 2 2 fun i j => Float.ofNat (if i = j then 2 else i)
    let singular := (Linearization.ofResiduals equal (Vec.tabulate 3 Float.ofNat)).system
    let regular := (Linearization.ofResiduals good (Vec.tabulate 2 Float.ofNat)).system
    let uses : List (Use Float) := [.solve singular (Scalar.tenth 12) (Vec.zeros 2),
      .solve regular 0 (Vec.zeros 7), .resize 0 5]
    ∀ kind, ∃ s a, (ofKind kind 3 1).after uses = some s ∧
      s.solve regular (Scalar.tenth 12) (Vec.zeros 2) = some a ∧ a.verdict = .ok () := by
  intro equal good singular regular uses kind
  obtain ⟨s, hafter, hsame⟩ := reuse_unobservable (ofKind kind 3 1) uses
  obtain ⟨a, b, ha, hb, hanswer⟩ := hsame regular (Scalar.tenth 12) (Vec.zeros 2)
    (Vec.tabulate 2 fun i => Float.ofNat i / 0) (by decide)
  have hfresh : (((ofKind kind 2 2).solve regular (Scalar.tenth 12)
      (Vec.tabulate 2 fun i => Float.ofNat i / 0)).any fun b => b.verdict.isOk) = true := by
    cases kind <;> decide +kernel
  rw [kind_ofKind] at hb
  have hb' : (ofKind kind 2 2).solve regular (Scalar.tenth 12)
      (Vec.tabulate 2 fun i => Float.ofNat i / 0) = some b := hb
  rw [hb'] at hfresh
  refine ⟨s, a, hafter, ha, ?_⟩
  cases hv : b.verdict with
  | error error => simp [hv, Except.isOk, Except.toBool] at hfresh
  | ok u =>
      refine Attempt.verdict_eq_ok_iff.2 ⟨b.step, ?_⟩
      rw [hanswer]
      exact Attempt.answer_eq_ok_iff.2 ⟨hv, rfl⟩

end Solver

end TrustRegion
