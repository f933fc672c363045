import Mathlib
import TrustRegion.Proofs.Solver.Rank
import TrustRegion.Proofs.Stepper.Refusal

/-!
# The choice of the linear solver

The three linear solvers factor different matrices and have tests for singularity of their own.  In
exact arithmetic, with the tolerance zero and with gradients that belong to the residuals, none of this
can be seen: dogleg solvers that differ in nothing but the linear solver give the same answers to the
same calls and report the same (**`DoglegStepper.solver_unobservable`**).  Only the events name the
linear solver.

What a caller sees after a call is `DoglegStepper.seen`.  A call is answered by the phase of the
protocol, which knows nothing of linear solvers, and a step that succeeds is a function of the problem
at hand and of its Gauss-Newton point.
-/

namespace TrustRegion

/-- A path that has just been made has nothing to report. -/
theorem DoglegPath.report_of_ofSize {α : Type} [Scalar α] {n m : Nat} {kind : SolverKind}
    {tolerance : α} {d : DoglegPath α} (h : ofSize n m kind tolerance = .ok d) :
    d.diagnostics = {} ∧ d.gaussNewton.step? = none := by
  unfold ofSize at h
  cases hq : Model.ofSize (α := α) n m with
  | error e => rw [hq] at h; cases h
  | ok q => rw [hq] at h; cases h; exact ⟨rfl, rfl⟩

/-- Taking a problem leaves the report on the last step, and forgets its Gauss-Newton point. -/
theorem DoglegPath.report_of_stage {α : Type} [Scalar α] {d : DoglegPath α} {l : Linearization α}
    {t : Turn α (DoglegPath α) (StepError α) Unit} (h : d.stage l = some t) :
    t.state.diagnostics = d.diagnostics ∧ t.state.gaussNewton.step? = none := by
  unfold stage at h
  simp only [Option.bind_eq_bind, Option.bind_eq_some_iff] at h
  obtain ⟨staging, -, h⟩ := h
  split at h
  · cases h
    exact ⟨rfl, rfl⟩
  · obtain ⟨_, -, h⟩ := Option.bind_eq_some_iff.1 h
    cases h
    exact ⟨rfl, rfl⟩

namespace DoglegStepper

open Stepper (Call Reply Answered log problemAtHand)

/-! ## What a caller sees -/

section Report

variable {α : Type}

/-- What the solver reports on its last step. -/
structure Report (α : Type) where
  maxStep : Bool
  reduction : α
  lastRegime : Option Regime
  diagnostics : Diagnostics α
  gaussNewtonStep : Option (Vec α)

variable [Scalar α] {settings : Settings α} {calls : List (Call α)} {s : DoglegStepper α}
  {l : Linearization α}

/-- What the solver reports on its last step. -/
def report (s : DoglegStepper α) : Report α :=
  { maxStep := Stepper.isMaxStep s
    reduction := Stepper.predictedReduction s
    lastRegime := s.lastRegime
    diagnostics := s.diagnostics
    gaussNewtonStep := s.gaussNewtonStep }

/-- What a caller sees of an answer, and of the solver after it. -/
def seen (a : Answered α (DoglegStepper α)) : Reply α × Report α := (a.reply, a.state.report)

/-- A preparation begins a new report if it succeeds, and loses what the path knew if it does not. -/
theorem report_init (h : Tracks settings calls s) (n m : Nat) :
    (s.init n m .succeeds).state.report =
      match (s.init n m .succeeds).result with
      | .ok () => (fresh settings).report
      | .error _ => { s.report with diagnostics := {}, gaussNewtonStep := none } := by
  rcases s.init_cases n m .succeeds with ⟨problem, hv, hinit⟩ | ⟨e, -, -, hinit⟩ | ⟨d, -, hd, hinit⟩
  · rw [Settings.activate_succeeds, h.settings_eq] at hv
    have hpath := path_of_invalid h hv
    rw [hinit]
    simp only [Turn.refuse, report, diagnostics, gaussNewtonStep, hpath, Option.map_none,
      Option.getD_none, Option.bind_none]
  · rw [hinit]
    rfl
  · obtain ⟨hdiagnostics, hstep⟩ := DoglegPath.report_of_ofSize hd
    rw [hinit]
    simp only [report, diagnostics, gaussNewtonStep, fresh, Option.map_some, Option.getD_some,
      Option.bind_some, hdiagnostics, hstep]
    rfl

theorem report_setInputs {t : Turn α (DoglegStepper α) (StepError α) Unit}
    (ht : s.setInputs l = some t) : t.state.report = { s.report with gaussNewtonStep := none } := by
  cases hd : s.path with
  | none =>
      rw [setInputs_of_no_path hd] at ht
      cases ht
      simp only [report, Turn.refuse, gaussNewtonStep, hd, Option.bind_none]
  | some d =>
      unfold setInputs at ht
      rw [hd] at ht
      obtain ⟨t', ht', rfl⟩ := Option.map_eq_some_iff.1 ht
      obtain ⟨hdiagnostics, hstep⟩ := DoglegPath.report_of_stage ht'
      simp only [report, diagnostics, gaussNewtonStep, hd, Option.map_some, Option.getD_some,
        Option.bind_some, hdiagnostics, hstep]
      rfl

/-- The report on a step that succeeds. -/
theorem report_of_lands {n m : Nat} {radius : α}
    {t : Turn α (DoglegStepper α × Vec α) (StepError α) Regime} (h : Lands settings n m l radius t) :
    t.state.1.report =
      { maxStep := (landing settings n m l radius).onBoundary
        reduction := (Model.holding n m l).reductionAt (landing settings n m l radius).step
        lastRegime := some (landing settings n m l radius).regime
        diagnostics := DoglegPath.report n m settings.solver settings.tolerance l
        gaussNewtonStep := DoglegPath.gaussNewtonPoint? settings.solver settings.tolerance l } := by
  rw [report, h.lastRegime, h.diagnostics, h.gaussNewtonStep]
  congr 1
  · exact h.maxStep
  · exact h.reduction

end Report

/-! ## Two linear solvers -/

section Exact

variable {settings : Settings ℝ} {kind kind' : SolverKind} {calls : List (Call ℝ)}
  {s s' : DoglegStepper ℝ} {answers answers' : List (Answered ℝ (DoglegStepper ℝ))} {n m : ℕ}
  {l : Linearization ℝ} {radius : ℝ}

/-- A step that succeeds is the same with both, if the problem and the radius are. -/
theorem same_of_lands (h0 : settings.tolerance = 0) (hl : l.check n m = .ok ()) (hg : l.Consistent)
    {t t' : Turn ℝ (DoglegStepper ℝ × Vec ℝ) (StepError ℝ) Regime}
    (h : Lands { settings with solver := kind } n m l radius t)
    (h' : Lands { settings with solver := kind' } n m l radius t') :
    t.result = t'.result ∧ t.state.2 = t'.state.2 ∧ t.state.1.report = t'.state.1.report := by
  have hpoint := DoglegPath.gaussNewtonPoint?_eq hl hg kind kind'
  have hlanding : landing { settings with solver := kind } n m l radius =
      landing { settings with solver := kind' } n m l radius := by
    unfold landing
    dsimp only
    rw [h0, hpoint]
  have hreport : DoglegPath.report n m kind settings.tolerance l =
      DoglegPath.report n m kind' settings.tolerance l := by
    unfold DoglegPath.report
    rw [h0, hpoint]
  refine ⟨?_, ?_, ?_⟩
  · rw [h.result, h'.result, hlanding]
  · rw [h.step, h'.step, hlanding]
  · rw [report_of_lands h, report_of_lands h', hlanding]
    dsimp only
    rw [hreport, h0, hpoint]

/-- The protocol does not depend on the linear solver. -/
theorem phase_log_eq
    (hrun : Stepper.run (fresh { settings with solver := kind }) calls = some (s, answers))
    (hrun' : Stepper.run (fresh { settings with solver := kind' }) calls = some (s', answers')) :
    s.phase = s'.phase ∧ log calls answers = log calls answers' := by
  obtain ⟨hphase, hlog⟩ := run_follows hrun
  obtain ⟨hphase', hlog'⟩ := run_follows hrun'
  exact ⟨hphase.trans hphase'.symm, hlog.trans hlog'.symm⟩

/-- After the same calls, a request for a step that ends in the same way with both does the same. -/
theorem same_computeStep (h0 : settings.tolerance = 0)
    (hrun : Stepper.run (fresh { settings with solver := kind }) calls = some (s, answers))
    (hrun' : Stepper.run (fresh { settings with solver := kind' }) calls = some (s', answers'))
    (hreport : s.report = s'.report)
    (hg : ∀ l, problemAtHand (log calls answers) = some l → l.Consistent) {out : Vec ℝ}
    {t t' : Turn ℝ (DoglegStepper ℝ × Vec ℝ) (StepError ℝ) Regime}
    (ht : s.computeStep radius out = some t) (ht' : s'.computeStep radius out = some t')
    (houtcome : (t.result.map fun _ => ()) = t'.result.map fun _ => ()) :
    t.result = t'.result ∧ t.state.2 = t'.state.2 ∧ t.state.1.report = t'.state.1.report := by
  cases hresult : t.result with
  | error e =>
      cases hresult' : t'.result with
      | ok regime => rw [hresult, hresult'] at houtcome; cases houtcome
      | error e' =>
          have hstate :=
            state_of_refused_step (carried_tracks.of_run (tracks_fresh _) hrun) ht hresult
          have hstate' :=
            state_of_refused_step (carried_tracks.of_run (tracks_fresh _) hrun') ht' hresult'
          rw [hresult, hresult'] at houtcome
          cases houtcome
          rw [hstate, hstate']
          exact ⟨rfl, rfl, hreport⟩
  | ok regime =>
      cases hresult' : t'.result with
      | error e => rw [hresult, hresult'] at houtcome; cases houtcome
      | ok regime' =>
          obtain ⟨n, m, l, hproblem, hl, hlands⟩ := lands_of_problemAtHand hrun ht hresult
          obtain ⟨n', m', l', hproblem', hl', hlands'⟩ := lands_of_problemAtHand hrun' ht' hresult'
          rw [← (phase_log_eq hrun hrun').2, hproblem] at hproblem'
          cases hproblem'
          obtain ⟨rfl, rfl⟩ := Linearization.size_eq_of_check hl hl'
          rw [← hresult, ← hresult']
          exact same_of_lands h0 hl (hg l hproblem) hlands hlands'

/-- After the same calls, every call looks the same with both. -/
theorem seen_call (h0 : settings.tolerance = 0)
    (hrun : Stepper.run (fresh { settings with solver := kind }) calls = some (s, answers))
    (hrun' : Stepper.run (fresh { settings with solver := kind' }) calls = some (s', answers'))
    (hreport : s.report = s'.report)
    (hg : ∀ l, problemAtHand (log calls answers) = some l → l.Consistent) {c : Call ℝ}
    {a a' : Answered ℝ (DoglegStepper ℝ)} (ha : Stepper.call s c = some a)
    (ha' : Stepper.call s' c = some a') : seen a = seen a' := by
  have htracks := carried_tracks.of_run (tracks_fresh _) hrun
  have htracks' := carried_tracks.of_run (tracks_fresh _) hrun'
  have houtcome : a.reply.outcome = a'.reply.outcome := by
    rw [((follows htracks).call ha).1, ((follows htracks').call ha').1,
      (phase_log_eq hrun hrun').1]
    rfl
  cases c with
  | init n m =>
      obtain ⟨t, ht, rfl⟩ := Stepper.call_init_eq_some_iff.1 ha
      obtain ⟨t', ht', rfl⟩ := Stepper.call_init_eq_some_iff.1 ha'
      cases ht
      cases ht'
      have hresult : (s.init n m .succeeds).result = (s'.init n m .succeeds).result := houtcome
      refine Prod.ext (congrArg Reply.done hresult) ?_
      show (s.init n m .succeeds).state.report = (s'.init n m .succeeds).state.report
      rw [report_init htracks, report_init htracks', hresult, hreport]
      cases (s'.init n m .succeeds).result <;> rfl
  | setInputs l =>
      obtain ⟨t, ht, rfl⟩ := Stepper.call_setInputs_eq_some_iff.1 ha
      obtain ⟨t', ht', rfl⟩ := Stepper.call_setInputs_eq_some_iff.1 ha'
      refine Prod.ext (congrArg Reply.done houtcome) ?_
      show t.state.report = t'.state.report
      rw [report_setInputs ht, report_setInputs ht', hreport]
  | computeStep radius out =>
      obtain ⟨t, ht, rfl⟩ := Stepper.call_computeStep_eq_some_iff.1 ha
      obtain ⟨t', ht', rfl⟩ := Stepper.call_computeStep_eq_some_iff.1 ha'
      obtain ⟨hresult, hstep, hafter⟩ :=
        same_computeStep h0 hrun hrun' hreport hg ht ht' houtcome
      simp only [seen, hresult, hstep, hafter]

/-- The same calls look the same with both, and so do the solvers after them. -/
theorem seen_run (h0 : settings.tolerance = 0) (kind kind' : SolverKind) (calls : List (Call ℝ)) :
    ∃ s answers s' answers',
      Stepper.run (fresh { settings with solver := kind }) calls = some (s, answers) ∧
      Stepper.run (fresh { settings with solver := kind' }) calls = some (s', answers') ∧
      ((∀ l, ⟨.setInputs l, .ok ()⟩ ∈ log calls answers → l.Consistent) →
        answers.map seen = answers'.map seen ∧ s.report = s'.report) := by
  induction calls using List.reverseRecOn with
  | nil => exact ⟨_, [], _, [], rfl, rfl, fun _ => ⟨rfl, rfl⟩⟩
  | append_singleton calls c ih =>
      obtain ⟨s, answers, s', answers', hrun, hrun', hsame⟩ := ih
      obtain ⟨a, ha, -⟩ :=
        carried_tracks.call (carried_tracks.of_run (tracks_fresh _) hrun) c
      obtain ⟨a', ha', -⟩ :=
        carried_tracks.call (carried_tracks.of_run (tracks_fresh _) hrun') c
      refine ⟨_, _, _, _, Stepper.run_concat hrun ha, Stepper.run_concat hrun' ha', fun hg => ?_⟩
      rw [(run_follows (Stepper.run_concat hrun ha)).2, Stepper.Protocol.log_concat,
        ← (run_follows hrun).2] at hg
      have hbefore : ∀ l, ⟨.setInputs l, .ok ()⟩ ∈ log calls answers → l.Consistent := fun l hl =>
        hg l (List.mem_append_left _ hl)
      obtain ⟨hanswers, hreport⟩ := hsame hbefore
      have hseen := seen_call h0 hrun hrun' hreport
        (fun l hl => hbefore l (Stepper.of_problemAtHand hl).1) ha ha'
      refine ⟨?_, congrArg Prod.snd hseen⟩
      rw [List.map_append, List.map_append, hanswers, List.map_singleton, List.map_singleton, hseen]

/-- **The linear solver cannot be seen.**  In exact arithmetic, with the tolerance zero and with
gradients that belong to the residuals, two dogleg solvers that differ in the linear solver alone give
the same answers to the same calls, and report the same after each of them.  After a step that succeeds
the Gauss-Newton point is reported as missing exactly if the Jacobian of the problem at hand has
dependent columns, as it always has with fewer rows than columns. -/
theorem solver_unobservable (h0 : settings.tolerance = 0) (kind kind' : SolverKind)
    (calls : List (Call ℝ)) :
    ∃ s answers s' answers',
      Stepper.run (fresh { settings with solver := kind }) calls = some (s, answers) ∧
      Stepper.run (fresh { settings with solver := kind' }) calls = some (s', answers') ∧
      ((∀ l, ⟨.setInputs l, .ok ()⟩ ∈ log calls answers → l.Consistent) →
        answers.map seen = answers'.map seen ∧
        ∀ (radius : ℝ) (out : Vec ℝ) (t : Turn ℝ (DoglegStepper ℝ × Vec ℝ) (StepError ℝ) Regime)
            (regime : Regime),
          Stepper.computeStep s radius out = some t → t.result = .ok regime →
          ∃ n m l, problemAtHand (log calls answers) = some l ∧ l.check n m = .ok () ∧
            (t.state.1.diagnostics.gaussNewtonFailed = false ↔
              LinearIndependent ℝ fun j : Fin n => (l.jacobian.column j).toSpace m) ∧
            (m < n → t.state.1.diagnostics.gaussNewtonFailed = true)) := by
  obtain ⟨s, answers, s', answers', hrun, hrun', hsame⟩ := seen_run h0 kind kind' calls
  refine ⟨s, answers, s', answers', hrun, hrun', fun hg => ⟨(hsame hg).1, ?_⟩⟩
  intro radius out t regime ht hok
  obtain ⟨n, m, l, hproblem, hl, hlands⟩ := lands_of_problemAtHand hrun ht hok
  have hconsistent := hg l (Stepper.of_problemAtHand hproblem).1
  have hJ : l.jacobian.HasShape m n := (Linearization.check_eq_ok_iff.1 hl).2.2.1
  have hrank := DoglegPath.exists_gaussNewtonPoint_iff hl hconsistent kind
  have hfailed : t.state.1.diagnostics.gaussNewtonFailed = false ↔
      ∃ p, DoglegPath.gaussNewtonPoint? kind 0 l = some p := by
    rw [hlands.diagnostics, DoglegPath.report]
    dsimp only
    rw [h0]
    cases DoglegPath.gaussNewtonPoint? kind 0 l <;> simp
  refine ⟨n, m, l, hproblem, hl, hfailed.trans hrank, fun hwide => ?_⟩
  rw [← Bool.not_eq_false, hfailed, hrank, ← Matrix.nonsingular_gram_iff hJ]
  exact fun hns => absurd (Matrix.cols_le_rows hJ hns) (not_le.2 hwide)

/-- A problem with fewer residuals than parameters, by Cholesky and by orthogonal triangularisation. -/
theorem solver_unobservable_of_residuals :
    let settings : Settings ℝ :=
      { solver := .cholesky, tolerance := 0, logLevel := none, logFile := none }
    let wide : Linearization ℝ :=
      .ofResiduals (Matrix.tabulate 2 3 fun i j => i + 2 * j) (Vec.tabulate 2 fun i => 1 - 4 * i)
    let calls : List (Call ℝ) := [.computeStep 1 (Vec.zeros 3), .init 3 2, .setInputs wide]
    settings.tolerance = 0 ∧
    ∃ s answers s' answers' t,
      Stepper.run (fresh settings) calls = some (s, answers) ∧
      Stepper.run (fresh { settings with solver := .qr }) calls = some (s', answers') ∧
      answers.map seen = answers'.map seen ∧
      Stepper.computeStep s (10 : ℝ) (Vec.zeros 3) = some t ∧
      t.state.1.diagnostics.gaussNewtonFailed = true := by
  intro settings wide calls
  have h0 : settings.tolerance = 0 := rfl
  have hv : settings.validate = .ok () := Settings.validate_of_tolerance le_rfl one_pos rfl
  have hl : wide.check 3 2 = .ok () :=
    Linearization.check_ofResiduals (J := Matrix.tabulate 2 3 _) (Vec.size_tabulate 2 _)
  obtain ⟨s, answers, t, hrun, hstep, hlands⟩ := exists_step [.computeStep 1 (Vec.zeros 3)] hv
    three_pos two_pos hl (checkRadius_eq_ok_iff.2 (by norm_num : (0 : ℝ) < 10)) (Vec.size_zeros 3)
  obtain ⟨s₂, answers₂, s', answers', hrun₂, hrun', hsame⟩ :=
    solver_unobservable h0 .cholesky .qr calls
  cases hrun.symm.trans hrun₂
  -- the only problem of the run
  have honly : ∀ l, ⟨.setInputs l, .ok ()⟩ ∈ log calls answers → l = wide := fun l hmem => by
    simpa [calls] using Stepper.mem_of_mem_log hmem
  obtain ⟨hseen, hdeficient⟩ := hsame fun l hmem => by
    rw [honly l hmem]
    exact Linearization.transposeMul_ofResiduals (J := Matrix.tabulate 2 3 _)
      (Vec.size_tabulate 2 _)
  obtain ⟨n, m, l, hproblem, hcheck, -, hwide⟩ :=
    hdeficient 10 (Vec.zeros 3) t _ hstep hlands.result
  rw [honly l (Stepper.of_problemAtHand hproblem).1] at hcheck
  obtain ⟨rfl, rfl⟩ := Linearization.size_eq_of_check hl hcheck
  exact ⟨h0, s, answers, s', answers', t, hrun, hrun', hseen, hstep, hwide (by norm_num)⟩

end Exact

end DoglegStepper

end TrustRegion
