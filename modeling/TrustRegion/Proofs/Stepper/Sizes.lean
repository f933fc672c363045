import TrustRegion.Proofs.Stepper.Cauchy
import TrustRegion.Proofs.Stepper.Dogleg

/-!
# Sizes never disagree

An operation on vectors and matrices whose sizes have to agree is partial, and a call that came to one
with sizes that disagree would have no outcome.  Callers may pass vectors and matrices of any sizes, and
the linear solver leaves its buffers half used where it gives up.  Still every call has an outcome.

* `Solver.answer_ne_dimensionMismatch` — a solve of a subproblem whose parts fit does not end with the
  finding that they do not.
* `GaussNewton.Fitted` — the buffers of the linear solver have the sizes of the problem, and no solve has
  found otherwise; a computation keeps this, however it ends (`GaussNewton.Fitted.compute`).
* `DoglegPath.gaussNewton_stage`, `DoglegPath.gaussNewton_step` — what taking a problem and computing a
  step do to these buffers.
* **`Stepper.run_total`** — whatever calls are made to one of the two step solvers, all of them are
  answered, and at the end every buffer has the size that the next operation asks for.

No law of the arithmetic is used.
-/

namespace TrustRegion

variable {α : Type} [Scalar α]

/-! ## The linear solver -/

/-- Whether the parts of a subproblem fit is found out before its answer is looked for. -/
theorem Solver.answer_ne_dimensionMismatch (kind : SolverKind) (e : NormalEquations α)
    (tolerance : α) : answer kind e tolerance ≠ .error .dimensionMismatch := by
  cases kind with
  | cholesky =>
      show CholeskySolver.answer e tolerance ≠ _
      unfold CholeskySolver.answer
      repeat' split
      all_goals simp
  | lu =>
      show LuSolver.answer e tolerance ≠ _
      unfold LuSolver.answer
      dsimp only
      repeat' split
      all_goals simp
  | qr =>
      show QrSolver.answer e tolerance ≠ _
      unfold QrSolver.answer
      dsimp only
      repeat' split
      all_goals simp

namespace GaussNewton

/-- Have the buffers of the linear solver the sizes of the problem, and has no solve found
otherwise? -/
structure Fitted (g : GaussNewton α) (n m : Nat) : Prop where
  point : g.point.size = n
  solver : g.solver.Sized n m
  progress : ∀ condition, g.progress ≠ .failed .dimensionMismatch condition

theorem fitted_ofSize (kind : SolverKind) (tolerance : α) (n m : Nat) :
    (ofSize kind tolerance n m).Fitted n m :=
  ⟨Vec.size_zeros n, Solver.sized_ofKind kind n m, fun _ h => by cases h⟩

namespace Fitted

variable {g : GaussNewton α} {n m : Nat}

omit [Scalar α] in
theorem invalidate (hg : g.Fitted n m) : g.invalidate.Fitted n m :=
  ⟨hg.point, hg.solver, fun _ h => by cases h⟩

/-- A computation is answered, and never finds sizes that disagree; the buffers keep their sizes. -/
theorem compute {q : Model α} (hg : g.Fitted q.n q.m) (hq : q.Sized) :
    ∃ t, g.compute q = some t ∧ t.result ≠ .error .dimensionMismatch ∧
      t.state.Fitted q.n q.m := by
  obtain ⟨t, ht, hfitted⟩ : ∃ t, g.compute q = some t ∧ t.state.Fitted q.n q.m := by
    unfold GaussNewton.compute computeBy
    cases g.progress with
    | solved norm => exact ⟨_, rfl, hg⟩
    | failed e condition => exact ⟨_, rfl, hg⟩
    | pending =>
        obtain ⟨t, ht, hknows, -, -, hsize, hsized⟩ := solve_knows (fits_system hq hg.point)
        rw [show (system q).unknowns = q.n from hq.jacobian.2,
          show (system q).jacobian.rows = q.m from hq.jacobian.1] at hsized
        refine ⟨t, ht, hsize.trans hg.point, hsized hg.solver, fun condition hp => ?_⟩
        rw [Knows, hp] at hknows
        exact Solver.answer_ne_dimensionMismatch _ _ _ hknows.1
  refine ⟨t, ht, fun he => ?_, hfitted⟩
  -- what has been answered is what is known now
  rcases progress_of_compute ht with ⟨norm, hresult, -⟩ | ⟨e, condition, hresult, hp⟩
  · rw [he] at hresult
    cases hresult
  · rw [he] at hresult
    cases hresult
    exact hfitted.progress condition hp

end Fitted

end GaussNewton

/-! ## The dogleg path -/

namespace DoglegPath

variable {d : DoglegPath α}

theorem gaussNewton_ofSize {n m : Nat} {kind : SolverKind} {tolerance : α}
    (h : ofSize n m kind tolerance = .ok d) : d.gaussNewton = .ofSize kind tolerance n m := by
  unfold ofSize at h
  cases hq : Model.ofSize (α := α) n m with
  | error e => rw [hq] at h; cases h
  | ok q => rw [hq] at h; cases h; rfl

/-- Taking a problem makes the Gauss-Newton point unknown, and does no more to it. -/
theorem gaussNewton_stage {l : Linearization α}
    {t : Turn α (DoglegPath α) (StepError α) Unit} (h : d.stage l = some t) :
    t.state.gaussNewton = d.gaussNewton.invalidate := by
  unfold stage at h
  simp only [Option.bind_eq_bind, Option.bind_eq_some_iff] at h
  obtain ⟨staging, -, h⟩ := h
  split at h
  · cases h; rfl
  · obtain ⟨cauchy, -, h⟩ := Option.bind_eq_some_iff.1 h
    cases h; rfl

/-- Where a step is placed has no influence on the Gauss-Newton point. -/
theorem gaussNewton_place {norm? : Option α} {radius : α} {out : Vec α} {placed : Placed α}
    (h : d.place norm? radius out = some placed) : placed.path.gaussNewton = d.gaussNewton := by
  obtain ⟨corner, hpath, -⟩ := place_cases h
  rw [hpath]

/-- A step leaves the Gauss-Newton point as it was, or as the computation leaves it. -/
theorem gaussNewton_step {radius : α} {out : Vec α}
    {t : Turn α (DoglegPath α × Vec α) (StepError α) (Regime × Bool)}
    (h : d.step radius out = some t) :
    t.state.1.gaussNewton = d.gaussNewton ∨
      ∃ c, d.gaussNewton.compute d.model = some c ∧ t.state.1.gaussNewton = c.state := by
  rcases stepBy_cases h with ⟨e, rfl, -⟩ | ⟨solving, placed, -, -, hsolving, hplaced, rfl⟩
  · exact Or.inl rfl
  · exact Or.inr ⟨solving, hsolving, gaussNewton_place hplaced⟩

end DoglegPath

/-! ## Runs -/

namespace DoglegStepper

open Stepper (Call)

variable {settings : Settings α} {calls : List (Call α)} {s : DoglegStepper α} {d' : DoglegPath α}

/-- Do the buffers for the Gauss-Newton point fit the model? -/
def Fitted (s : DoglegStepper α) : Prop :=
  ∀ d, s.path = some d → d.gaussNewton.Fitted d.model.n d.model.m

theorem path_init {n m : Nat} {opening : Settings.LogOpening}
    (h : (s.init n m opening).state.path = some d') :
    s.path = some d' ∨
      DoglegPath.ofSize n m s.settings.solver s.settings.tolerance = .ok d' := by
  rcases s.init_cases n m opening with ⟨problem, -, hinit⟩ | ⟨e, -, -, hinit⟩ | ⟨d, -, hd, hinit⟩
  · rw [hinit] at h
    exact Or.inl h
  · rw [hinit] at h
    cases h
  · rw [hinit] at h
    cases h
    exact Or.inr hd

theorem path_setInputs {l : Linearization α} {t : Turn α (DoglegStepper α) (StepError α) Unit}
    (ht : s.setInputs l = some t) (h : t.state.path = some d') :
    ∃ d u, s.path = some d ∧ d.stage l = some u ∧ u.state = d' := by
  unfold setInputs at ht
  split at ht
  · rename_i hd
    cases ht
    rw [Turn.refuse, hd] at h
    cases h
  · rename_i d hd
    obtain ⟨u, hu, rfl⟩ := Option.map_eq_some_iff.1 ht
    exact ⟨d, u, hd, hu, Option.some.inj h⟩

theorem path_computeStep {radius : α} {out : Vec α}
    {t : Turn α (DoglegStepper α × Vec α) (StepError α) Regime}
    (ht : s.computeStep radius out = some t) (h : t.state.1.path = some d') :
    s.path = some d' ∨
      ∃ d u, s.path = some d ∧ d.step radius out = some u ∧ u.state.1 = d' := by
  rcases computeStepBy_cases ht with ⟨e, rfl, -⟩ |
    ⟨d, u, -, hd, hu, ⟨e, -, rfl⟩ | ⟨regime, onBoundary, reduction, -, -, rfl⟩⟩
  · exact Or.inl h
  · exact Or.inr ⟨d, u, hd, hu, Option.some.inj h⟩
  · exact Or.inr ⟨d, u, hd, hu, Option.some.inj h⟩

theorem fitted_fresh (settings : Settings α) : (fresh settings).Fitted := fun _ h => by cases h

theorem fitted_init (h : s.Fitted) (n m : Nat) (opening : Settings.LogOpening) :
    (s.init n m opening).state.Fitted := by
  intro d' hd'
  rcases path_init hd' with hd | hnew
  · exact h d' hd
  · obtain ⟨hsized, -⟩ := DoglegPath.sized_ofSize hnew
    rw [DoglegPath.gaussNewton_ofSize hnew, hsized.params, hsized.residuals]
    exact GaussNewton.fitted_ofSize _ _ _ _

theorem fitted_setInputs (htracks : Tracks settings calls s) (h : s.Fitted) {l : Linearization α}
    {t : Turn α (DoglegStepper α) (StepError α) Unit} (ht : s.setInputs l = some t) :
    t.state.Fitted := by
  intro d' hd'
  obtain ⟨d, u, hd, hu, rfl⟩ := path_setInputs ht hd'
  obtain ⟨-, n, m, -, hsized, -⟩ := htracks.path d hd
  obtain ⟨u', hu', hsized', -⟩ := DoglegPath.stage_holds hsized l
  obtain rfl : u = u' := Option.some.inj (hu.symm.trans hu')
  have hfitted := h d hd
  rw [hsized.params, hsized.residuals] at hfitted
  rw [DoglegPath.gaussNewton_stage hu, hsized'.params, hsized'.residuals]
  exact hfitted.invalidate

/-- A step computes the Gauss-Newton point, or leaves it as it was; and the sizes are as before. -/
theorem fitted_computeStep (htracks : Tracks settings calls s) (h : s.Fitted) {radius : α}
    {out : Vec α} {t : Turn α (DoglegStepper α × Vec α) (StepError α) Regime}
    (ht : s.computeStep radius out = some t)
    (htracks' : Tracks settings (calls ++ [.computeStep radius out]) t.state.1) :
    t.state.1.Fitted := by
  intro d' hd'
  rcases path_computeStep ht hd' with hd | ⟨d, u, hd, hu, rfl⟩
  · exact h d' hd
  obtain ⟨-, n, m, hsize, hsized, -⟩ := htracks.path d hd
  obtain ⟨-, n', m', hsize', hsized', -⟩ := htracks'.path _ hd'
  rw [Stepper.lastSize_computeStep, hsize] at hsize'
  cases hsize'
  have hfitted := h d hd
  rw [hsized'.params, hsized'.residuals, ← hsized.params, ← hsized.residuals]
  rcases DoglegPath.gaussNewton_step hu with hsame | ⟨c, hc, hstate⟩
  · rwa [hsame]
  · obtain ⟨c', hc', -, hfitted'⟩ := hfitted.compute hsized.model
    obtain rfl : c = c' := Option.some.inj (hc.symm.trans hc')
    rwa [hstate]

/-- Every operation is answered, and the buffers go on fitting. -/
theorem carried_fitted : Stepper.Carried fun calls (s : DoglegStepper α) =>
    Tracks settings calls s ∧ s.Fitted where
  init h n m := ⟨_, rfl, tracks_init h.1 n m, fitted_init h.2 n m .succeeds⟩
  setInputs h l := by
    obtain ⟨t, ht, htracks⟩ := tracks_setInputs h.1 l
    exact ⟨t, ht, htracks, fitted_setInputs h.1 h.2 ht⟩
  computeStep h radius out := by
    obtain ⟨t, ht, htracks, -⟩ := computeStep_cases h.1 radius out
    exact ⟨t, ht, htracks, fitted_computeStep h.1 h.2 ht htracks⟩

end DoglegStepper

namespace Stepper

omit [Scalar α] in
/-- Every call of a run is answered. -/
theorem length_answers {σ : Type} [Stepper α σ] {s s' : σ} {calls : List (Call α)}
    {answers : List (Answered α σ)} (h : run s calls = some (s', answers)) :
    answers.length = calls.length := by
  induction calls generalizing s answers with
  | nil => cases h; rfl
  | cons c cs ih =>
      simp only [run, Option.bind_eq_bind, Option.bind_eq_some_iff] at h
      obtain ⟨a, -, ⟨state, rest⟩, hrest, h⟩ := h
      cases h
      simp only [List.length_cons, ih hrest]

/-- **No call comes to an operation on sizes that disagree.**  Whatever calls are made to one of the two
step solvers, with vectors and matrices of whatever sizes, all of them are answered.  At the end every
buffer has the size that the next operation asks for, and the solve that a step would start ends
without finding that the parts of its subproblem do not fit. -/
theorem run_total (calls : List (Call α)) :
    (∃ s answers, run (CauchyStepper.fresh : CauchyStepper α) calls = some (s, answers) ∧
      answers.length = calls.length ∧
      ∀ q, s.model = some q → q.Sized ∧ 0 < q.n ∧ 0 < q.m) ∧
    ∀ settings : Settings α, ∃ s answers,
      run (DoglegStepper.fresh settings) calls = some (s, answers) ∧
      answers.length = calls.length ∧
      ∀ d, s.path = some d →
        (∃ n m, d.Sized n m settings.solver settings.tolerance ∧ d.gaussNewton.Fitted n m) ∧
        ∃ t, d.gaussNewton.compute d.model = some t ∧ t.result ≠ .error .dimensionMismatch := by
  constructor
  · obtain ⟨s, answers, hrun, htracks⟩ := CauchyStepper.exists_run calls
    exact ⟨s, answers, hrun, length_answers hrun, fun q hq => ⟨htracks.sized q hq, htracks.pos q hq⟩⟩
  · intro settings
    obtain ⟨s, answers, hrun, htracks, hfitted⟩ := DoglegStepper.carried_fitted.run
      ⟨DoglegStepper.tracks_fresh settings, DoglegStepper.fitted_fresh settings⟩ calls
    refine ⟨s, answers, hrun, length_answers hrun, fun d hd => ?_⟩
    obtain ⟨-, n, m, -, hsized, -⟩ := htracks.path d hd
    obtain ⟨t, ht, hresult, -⟩ := (hfitted d hd).compute hsized.model
    refine ⟨⟨n, m, hsized, ?_⟩, t, ht, hresult⟩
    rw [← hsized.params, ← hsized.residuals]
    exact hfitted d hd

end Stepper

end TrustRegion
