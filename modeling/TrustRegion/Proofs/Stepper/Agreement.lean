import Mathlib
import TrustRegion.Proofs.Exact.Scalar
import TrustRegion.Proofs.Stepper.Refusal

/-!
# One protocol for both step solvers

A program that drives a step solver can exchange the one along the gradient for the dogleg solver.  As
long as no preparation is refused, both answer the same calls with success and the others with the same
refusal, and where the dogleg solver goes along the gradient the two do the same step and report the
same (**`Stepper.same_protocol`**).

After a preparation that is refused the protocols part: the solver along the gradient goes on with the
size it had, and the dogleg solver has to be prepared again.  They meet at the next preparation that
succeeds.  No law of the arithmetic is used.
-/

namespace TrustRegion

/-- A landing along the gradient is the step to the Cauchy point. -/
theorem DoglegPath.landing_of_cauchy {α : Type} [Scalar α] {c : CauchyPoint α} {gradient : Vec α}
    {p? : Option (Vec α)} {radius : α} (h : (landing c gradient p? radius).regime = .cauchy) :
    (landing c gradient p? radius).step = (c.stepWithin gradient radius).1 ∧
      (landing c gradient p? radius).onBoundary = (c.stepWithin gradient radius).2 := by
  unfold landing at h ⊢
  cases p? with
  | none => exact ⟨rfl, rfl⟩
  | some p =>
      dsimp only at h ⊢
      split at h
      · cases h
      · rename_i hfar
        rw [if_neg hfar]
        split at h
        · rename_i hreach
          rw [if_pos hreach]
          exact ⟨rfl, rfl⟩
        · cases h

namespace Stepper

variable {α : Type} [Scalar α]

/-- If a step along the gradient was done by both solvers, is it the same step, and do they report the
same about it? -/
def SameStep (a : Answered α (CauchyStepper α)) (a' : Answered α (DoglegStepper α)) : Prop :=
  ∀ regime out out', a.reply = .stepped (.ok regime) out → a'.reply = .stepped (.ok .cauchy) out' →
    regime = .cauchy ∧ out = out' ∧ isMaxStep a.state = isMaxStep a'.state ∧
      predictedReduction a.state = predictedReduction a'.state ∧
      a.state.diagnostics.nonPositiveCurvature = a'.state.diagnostics.nonPositiveCurvature ∧
      a.state.diagnostics.zeroGradient = a'.state.diagnostics.zeroGradient

/-- After the same calls, both solvers do the same step along the gradient. -/
theorem sameStep_of_run {settings : Settings α} {calls : List (Call α)} {s : CauchyStepper α}
    {s' : DoglegStepper α} {answers : List (Answered α (CauchyStepper α))}
    {answers' : List (Answered α (DoglegStepper α))} {c : Call α}
    {a : Answered α (CauchyStepper α)} {a' : Answered α (DoglegStepper α)}
    (hrun : run (CauchyStepper.fresh : CauchyStepper α) calls = some (s, answers))
    (hrun' : run (DoglegStepper.fresh settings) calls = some (s', answers'))
    (ha : call s c = some a) (ha' : call s' c = some a') : SameStep a a' := by
  intro regime out out' hreply hreply'
  cases c with
  | init n m =>
      obtain ⟨t, -, rfl⟩ := call_init_eq_some_iff.1 ha
      cases hreply
  | setInputs l =>
      obtain ⟨t, -, rfl⟩ := call_setInputs_eq_some_iff.1 ha
      cases hreply
  | computeStep radius x =>
      obtain ⟨t, ht, rfl⟩ := call_computeStep_eq_some_iff.1 ha
      obtain ⟨t', ht', rfl⟩ := call_computeStep_eq_some_iff.1 ha'
      injection hreply with hok hout
      injection hreply' with hok' hout'
      obtain ⟨n, m, l, -, hinputs, hl, -, -, -, hlands⟩ := CauchyStepper.lands_of_ok hrun ht hok
      obtain ⟨n', m', l', -, -, -, hinputs', hl', -, -, -, hlands'⟩ :=
        DoglegStepper.lands_of_ok hrun' ht' hok'
      -- both have the problem last given, so also its size
      rw [hinputs] at hinputs'
      cases hinputs'
      obtain ⟨rfl, rfl⟩ := Linearization.size_eq_of_check hl hl'
      have hregime : (DoglegStepper.landing settings n m l radius).regime = .cauchy :=
        Except.ok.inj (hlands'.result.symm.trans hok')
      obtain ⟨hstep, hflag⟩ := DoglegPath.landing_of_cauchy hregime
      refine ⟨?_, ?_, ?_, ?_, ?_, ?_⟩
      · exact Except.ok.inj (hok.symm.trans hlands.result)
      · rw [← hout, ← hout', hlands.step, hlands'.step]
        exact hstep.symm
      · exact hlands.maxStep.trans (hflag.symm.trans hlands'.maxStep.symm)
      · refine hlands.reduction.trans (Eq.trans ?_ hlands'.reduction.symm)
        rw [← hstep]
        rfl
      · rw [hlands.diagnostics, hlands'.diagnostics]
        rfl
      · rw [hlands.diagnostics, hlands'.diagnostics]
        rfl

/-- With valid settings both solvers accept the same sizes. -/
theorem prepare_eq {settings : Settings α} (hv : settings.validate = .ok ()) :
    (CauchyStepper.protocol : Protocol α).prepare = (DoglegStepper.protocol settings).prepare := by
  funext n m
  simp only [CauchyStepper.protocol, DoglegStepper.protocol, hv]

/-- **Both solvers keep the same protocol.**  After any calls, with valid settings, the most recent
preparation has come to the same with both; unless it was refused, the next call, whatever it is,
succeeds with both or is refused by both with the same error; and a step that both do, the dogleg
solver along the gradient, is the same step with the same report. -/
theorem same_protocol {settings : Settings α} (hv : settings.validate = .ok ())
    (calls : List (Call α)) :
    ∃ s answers s' answers',
      run (CauchyStepper.fresh : CauchyStepper α) calls = some (s, answers) ∧
      run (DoglegStepper.fresh settings) calls = some (s', answers') ∧
      lastPreparation (log calls answers) = lastPreparation (log calls answers') ∧
      ∀ c : Call α, ∃ a a', call s c = some a ∧ call s' c = some a' ∧
        (lastPreparation (log calls answers) ≠ some none → a.reply.outcome = a'.reply.outcome) ∧
        SameStep a a' := by
  obtain ⟨s, answers, hrun, htracks⟩ := CauchyStepper.exists_run calls
  obtain ⟨s', answers', hrun', htracks'⟩ := DoglegStepper.exists_run settings calls
  obtain ⟨hphase, hlog⟩ := CauchyStepper.run_follows hrun
  obtain ⟨hphase', hlog'⟩ := DoglegStepper.run_follows hrun'
  obtain ⟨hlast, hsame⟩ := Protocol.phase_eq calls (prepare_eq hv)
  refine ⟨s, answers, s', answers', hrun, hrun', by rw [hlog, hlog', hlast], fun c => ?_⟩
  obtain ⟨a, ha, -⟩ := CauchyStepper.carried_tracks.call htracks c
  obtain ⟨a', ha', -⟩ := DoglegStepper.carried_tracks.call htracks' c
  refine ⟨a, a', ha, ha', fun hprepared => ?_, sameStep_of_run hrun hrun' ha ha'⟩
  rw [hlog] at hprepared
  rw [((CauchyStepper.follows htracks).call ha).1, ((DoglegStepper.follows htracks').call ha').1,
    hphase, hphase', hsame hprepared]
  exact Protocol.outcome_congr (prepare_eq hv) _ c

/-- After a problem given too early, a preparation, a problem of another size and one of the right size,
the next call ends in the same way with both solvers, whatever it is. -/
theorem same_protocol_of_early_problem :
    let settings : Settings ℝ :=
      { solver := .qr, tolerance := 0, logLevel := none, logFile := none }
    let narrow : Linearization ℝ :=
      .ofResiduals (Matrix.tabulate 2 1 fun _ _ => 1) (Vec.tabulate 2 fun _ => 1)
    let wide : Linearization ℝ :=
      .ofResiduals (Matrix.tabulate 1 2 fun _ j => j) (Vec.tabulate 1 fun _ => 5)
    let calls : List (Call ℝ) := [.setInputs wide, .init 2 1, .setInputs narrow, .setInputs wide]
    ∃ s answers s' answers',
      run (CauchyStepper.fresh : CauchyStepper ℝ) calls = some (s, answers) ∧
      run (DoglegStepper.fresh settings) calls = some (s', answers') ∧
      ∀ c : Call ℝ, ∃ a a', call s c = some a ∧ call s' c = some a' ∧
        a.reply.outcome = a'.reply.outcome ∧ SameStep a a' := by
  intro settings narrow wide calls
  have hv : settings.validate = .ok () := Settings.validate_of_tolerance le_rfl one_pos rfl
  obtain ⟨s, answers, s', answers', hrun, hrun', -, hcalls⟩ := same_protocol hv calls
  refine ⟨s, answers, s', answers', hrun, hrun', fun c => ?_⟩
  obtain ⟨a, a', ha, ha', houtcome, hstep⟩ := hcalls c
  refine ⟨a, a', ha, ha', houtcome ?_, hstep⟩
  rw [(CauchyStepper.run_follows hrun).2]
  exact fun h => by cases h

end Stepper

end TrustRegion
