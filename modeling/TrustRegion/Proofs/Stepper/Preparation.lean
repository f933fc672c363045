import Mathlib
import TrustRegion.Proofs.Exact.Scalar
import TrustRegion.Proofs.Stepper.Refusal

/-!
# What a refused preparation leaves

A caller that asks for a size that is refused may want to go on with the size it had.  With the solver
along the gradient it can.  The dogleg solver has given up its path by the time it looks at the new
size, so a refusal takes away the problem, the report on the last step and the Gauss-Newton point,
while the flag, the reduction and the regime of the last step remain
(**`Stepper.refused_preparation`**).  From then on every problem and every request for a step is
refused, until a preparation succeeds.
-/

namespace TrustRegion

namespace Stepper

variable {α : Type} [Scalar α]

/-- **A preparation that is refused** changes nothing in the solver along the gradient.  It takes the
path away from the dogleg solver and changes nothing else, so the solver is as it was exactly if it had
no path: if no preparation has gone before, or the most recent one was refused too.

That is where every log opens.  Settings that are refused, and a log that is not opened, are noticed before
the path is given up, and leave the dogleg solver as it was. -/
theorem refused_preparation (calls : List (Call α)) :
    (∃ s answers, run (CauchyStepper.fresh : CauchyStepper α) calls = some (s, answers) ∧
      ∀ n m, ∃ t, init s n m = some t ∧ ∀ e, t.result = .error e → t.state = s) ∧
    ∀ settings : Settings α, ∃ s answers,
      run (DoglegStepper.fresh settings) calls = some (s, answers) ∧
      (∀ n m, ∃ t, init s n m = some t ∧ ∀ e, t.result = .error e →
        t.state = { s with path := none } ∧
        (t.state = s ↔ (lastPreparation (log calls answers)).join = none)) ∧
      ∀ n m opening problem, settings.activate opening = .error problem →
        s.init n m opening = .refuse s (.invalidSettings problem) := by
  constructor
  · obtain ⟨s, answers, hrun, -⟩ := CauchyStepper.exists_run calls
    refine ⟨s, answers, hrun, fun n m => ⟨_, rfl, fun e he => ?_⟩⟩
    rw [CauchyStepper.init_of_error he]
    rfl
  · intro settings
    obtain ⟨s, answers, hrun, htracks⟩ := DoglegStepper.exists_run settings calls
    refine ⟨s, answers, hrun, fun n m => ⟨_, rfl, fun e he => ?_⟩, fun n m opening problem hproblem => ?_⟩
    · have hstate : (s.init n m .succeeds).state = { s with path := none } := by
        rw [DoglegStepper.init_of_error_of_tracks htracks he]
        rfl
      refine ⟨hstate, ?_⟩
      rw [hstate, ← Phase.of_eq_unprepared_iff, ← DoglegStepper.phase_of_run hrun,
        DoglegStepper.phase_eq_unprepared_iff htracks]
      constructor
      · intro hsame
        rw [← hsame]
      · intro hpath
        rw [← hpath]
    · rw [← htracks.settings_eq] at hproblem
      exact DoglegStepper.init_of_activate_error hproblem n m

/-- A dogleg solver that has a problem, and would do a step for it, refuses the same request once it has
refused a size. -/
theorem refused_preparation_forgets :
    let settings : Settings ℝ :=
      { solver := .cholesky, tolerance := 0, logLevel := none, logFile := none }
    let l : Linearization ℝ :=
      .ofResiduals (Matrix.tabulate 1 1 fun _ _ => 2) (Vec.tabulate 1 fun _ => 3)
    ∃ s answers u t t',
      run (DoglegStepper.fresh settings) [.init 1 1, .setInputs l] = some (s, answers) ∧
      init s 0 7 = some u ∧ u.result = .error (.dimension .parameterCount 1 0) ∧
      computeStep s (1 : ℝ) (Vec.zeros 1) = some t ∧ (∃ regime, t.result = .ok regime) ∧
      computeStep u.state (1 : ℝ) (Vec.zeros 1) = some t' ∧ t'.result = .error .notInitialized := by
  intro settings l
  have hv : settings.validate = .ok () := Settings.validate_of_tolerance le_rfl one_pos rfl
  have hl : l.check 1 1 = .ok () :=
    Linearization.check_ofResiduals (J := Matrix.tabulate 1 1 _) (by simp)
  have hradius : checkRadius (1 : ℝ) = .ok () := checkRadius_eq_ok_iff.2 one_pos
  obtain ⟨s, answers, t, hrun, hstep, hlands⟩ :=
    DoglegStepper.exists_step [] hv one_pos one_pos hl hradius (Vec.size_zeros 1)
  have hinit : s.init 0 7 .succeeds = .refuse { s with path := none } (.dimension .parameterCount 1 0) := by
    have hsettings := (DoglegStepper.carried_tracks.of_run
      (DoglegStepper.tracks_fresh settings) hrun).settings_eq
    unfold DoglegStepper.init
    rw [hsettings, Settings.activate_succeeds, hv]
    rfl
  refine ⟨s, answers, s.init 0 7 .succeeds, t, .refuse ({ s with path := none }, Vec.zeros 1) .notInitialized,
    hrun, rfl, by rw [hinit]; rfl, hstep, ⟨_, hlands.result⟩, ?_, rfl⟩
  rw [hinit]
  show DoglegStepper.computeStep _ _ _ = _
  unfold DoglegStepper.computeStep DoglegStepper.computeStepBy
  rw [hradius]
  rfl

end Stepper

end TrustRegion
