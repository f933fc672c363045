import TrustRegion.Proofs.Stepper.Refusal

/-!
# The problem at hand

Once the log of a run shows a size and a problem at hand, the solver is ready: the state is that of this
problem, whatever went before, and every request for a step with a good radius and a vector of the right
size succeeds with the step for it (`CauchyStepper.exists_step_atHand`,
`DoglegStepper.exists_step_atHand`).  No law of the arithmetic is used.
-/

namespace TrustRegion

open Stepper (Protocol Call log lastInputs lastPreparation lastPrepared problemAtHand)

variable {α : Type} [Scalar α] {calls : List (Call α)} {n m : Nat} {l : Linearization α} {radius : α}

/-- A size that is accepted, and then a problem of this size, are at hand. -/
theorem Stepper.Protocol.atHand {k : Protocol α} (calls : List (Call α))
    (hk : k.prepare n m = .ok ()) (hl : l.check n m = .ok ()) :
    lastPreparation (k.log (calls ++ [.init n m, .setInputs l])) = some (some (n, m)) ∧
      lastPrepared (k.log (calls ++ [.init n m, .setInputs l])) = some (n, m) ∧
      problemAtHand (k.log (calls ++ [.init n m, .setInputs l])) = some l := by
  have hprepared : k.phase (calls ++ [.init n m]) = .prepared n m := by
    rw [Protocol.phase_concat, Protocol.next, hk]
  have hlog : k.log (calls ++ [.init n m, .setInputs l]) =
      k.log calls ++ [⟨.init n m, .ok ()⟩] ++ [⟨.setInputs l, .ok ()⟩] := by
    rw [List.append_cons, Protocol.log_concat, Protocol.log_concat, hprepared]
    simp only [Protocol.outcome, hk, Stepper.Phase.receive, Stepper.Phase.size?, hl]
  rw [hlog, Stepper.lastPreparation_concat, Stepper.lastPreparation_concat,
    Stepper.lastPrepared_concat, Stepper.lastPrepared_concat, Stepper.problemAtHand_concat]
  exact ⟨rfl, rfl, rfl⟩

/-! ## Along the gradient -/

namespace CauchyStepper

variable {s : CauchyStepper α} {answers : List (Stepper.Answered α (CauchyStepper α))}

/-- The model holds the problem at hand, and the Cauchy point is the one of this problem. -/
theorem state_of_problemAtHand
    (hrun : Stepper.run (fresh : CauchyStepper α) calls = some (s, answers))
    (hsize : lastPrepared (log calls answers) = some (n, m))
    (hproblem : problemAtHand (log calls answers) = some l) :
    l.check n m = .ok () ∧ s.model = some (Model.holding n m l) ∧
      s.point = some (CauchyPoint.along (Model.holding n m l)) := by
  have htracks : Tracks calls s := carried_tracks.of_run tracks_fresh hrun
  have hphase := phase_of_run hrun
  rw [hsize, hproblem] at hphase
  have hlast : lastInputs calls = some l := by
    rw [(run_follows hrun).2] at hproblem
    exact Protocol.lastInputs_of_problemAtHand calls hproblem
  cases hq : s.model with
  | none =>
      rw [phase_of_no_model hq] at hphase
      cases hphase
  | some q =>
      cases hc : s.point with
      | none =>
          rw [phase_of_no_point hq hc] at hphase
          cases hphase
      | some c =>
          rw [phase_of_point hq hc] at hphase
          obtain ⟨n', m', l', hlast', hl, hmodel, rfl⟩ := htracks.point c hc
          rw [hlast] at hlast'
          cases hlast'
          rw [hq] at hmodel
          cases hmodel
          cases hphase
          exact ⟨hl, rfl, rfl⟩

/-- Whatever went before, a preparation and a problem of the size make the solver ready. -/
theorem exists_atHand (calls : List (Call α)) (hn : 0 < n) (hm : 0 < m) (hl : l.check n m = .ok ()) :
    ∃ s answers,
      Stepper.run (fresh : CauchyStepper α) (calls ++ [.init n m, .setInputs l]) =
        some (s, answers) ∧
      lastPrepared (log (calls ++ [.init n m, .setInputs l]) answers) = some (n, m) ∧
      problemAtHand (log (calls ++ [.init n m, .setInputs l]) answers) = some l := by
  obtain ⟨s, answers, hrun, -⟩ := exists_run (calls ++ [.init n m, .setInputs l])
  obtain ⟨q, hq⟩ := Model.exists_ofSize (α := α) hn hm
  have hprepare : (protocol : Protocol α).prepare n m = .ok () := by
    simp only [protocol, hq]
    rfl
  obtain ⟨-, hsize, hproblem⟩ := Protocol.atHand calls hprepare hl
  rw [← (run_follows hrun).2] at hsize hproblem
  exact ⟨s, answers, hrun, hsize, hproblem⟩

/-- A request for a step for the problem at hand succeeds. -/
theorem exists_step_atHand
    (hrun : Stepper.run (fresh : CauchyStepper α) calls = some (s, answers))
    (hsize : lastPrepared (log calls answers) = some (n, m))
    (hproblem : problemAtHand (log calls answers) = some l) (hradius : checkRadius radius = .ok ())
    {out : Vec α} (hout : out.size = n) :
    ∃ t, s.computeStep radius out = some t ∧ Lands n m l radius t ∧
      t.state.1.model = some (Model.holding n m l) := by
  obtain ⟨hl, hmodel, hpoint⟩ := state_of_problemAtHand hrun hsize hproblem
  obtain ⟨t, ht, hlands, hkept, -⟩ := computeStep_lands hmodel hpoint hl hradius hout
  exact ⟨t, ht, hlands, hkept.trans hmodel⟩

end CauchyStepper

/-! ## Along the dogleg path -/

namespace DoglegStepper

variable {settings : Settings α} {s : DoglegStepper α}
  {answers : List (Stepper.Answered α (DoglegStepper α))}

/-- The path holds the problem at hand, and has room for it. -/
theorem path_of_problemAtHand (hrun : Stepper.run (fresh settings) calls = some (s, answers))
    (hsize : lastPreparation (log calls answers) = some (some (n, m)))
    (hproblem : problemAtHand (log calls answers) = some l) :
    ∃ d, s.path = some d ∧ d.Sized n m settings.solver settings.tolerance ∧ d.Holds n m l ∧
      d.staged = true := by
  have htracks : Tracks settings calls s := carried_tracks.of_run (tracks_fresh settings) hrun
  have hphase := phase_of_run hrun
  rw [hsize, hproblem] at hphase
  have hlast : lastInputs calls = some l := by
    rw [(run_follows hrun).2] at hproblem
    exact Protocol.lastInputs_of_problemAtHand calls hproblem
  cases hd : s.path with
  | none =>
      rw [phase_of_no_path hd] at hphase
      cases hphase
  | some d =>
      obtain ⟨-, n', m', -, hsized, hholds⟩ := htracks.path d hd
      rw [phase_of_path hd] at hphase
      cases hstaged : d.staged with
      | false =>
          rw [DoglegPath.phase_of_not_staged hsized hstaged] at hphase
          cases hphase
      | true =>
          rw [DoglegPath.phase_of_staged hsized hstaged] at hphase
          cases hphase
          obtain ⟨l', hlast', hl⟩ := hholds hstaged
          rw [hlast] at hlast'
          cases hlast'
          exact ⟨d, rfl, hsized, hl, hstaged⟩

/-- Whatever went before, a preparation and a problem of the size make a solver with valid settings
ready. -/
theorem exists_atHand (calls : List (Call α)) (hv : settings.validate = .ok ()) (hn : 0 < n)
    (hm : 0 < m) (hl : l.check n m = .ok ()) :
    ∃ s answers,
      Stepper.run (fresh settings) (calls ++ [.init n m, .setInputs l]) = some (s, answers) ∧
      lastPreparation (log (calls ++ [.init n m, .setInputs l]) answers) = some (some (n, m)) ∧
      problemAtHand (log (calls ++ [.init n m, .setInputs l]) answers) = some l := by
  obtain ⟨s, answers, hrun, -⟩ := exists_run settings (calls ++ [.init n m, .setInputs l])
  obtain ⟨q, hq⟩ := Model.exists_ofSize (α := α) hn hm
  have hprepare : (protocol settings).prepare n m = .ok () := by
    simp only [protocol, hv, hq]
    rfl
  obtain ⟨hsize, -, hproblem⟩ := Protocol.atHand calls hprepare hl
  rw [← (run_follows hrun).2] at hsize hproblem
  exact ⟨s, answers, hrun, hsize, hproblem⟩

/-- A request for a step for the problem at hand succeeds. -/
theorem exists_step_atHand (hrun : Stepper.run (fresh settings) calls = some (s, answers))
    (hsize : lastPreparation (log calls answers) = some (some (n, m)))
    (hproblem : problemAtHand (log calls answers) = some l) (hradius : checkRadius radius = .ok ())
    {out : Vec α} (hout : out.size = n) :
    ∃ t, s.computeStep radius out = some t ∧ Lands settings n m l radius t := by
  obtain ⟨d, hd, hsized, hholds, hstaged⟩ := path_of_problemAtHand hrun hsize hproblem
  obtain ⟨t, -, ht, hlands, -⟩ := computeStep_lands hd hsized hholds hstaged hradius hout
  exact ⟨t, ht, hlands⟩

end DoglegStepper

end TrustRegion
