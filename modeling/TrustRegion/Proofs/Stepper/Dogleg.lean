import TrustRegion.Proofs.Path.Landing
import TrustRegion.Proofs.Stepper.History
import TrustRegion.Stepper.Dogleg

/-!
# Runs of the dogleg solver

`DoglegStepper.Tracks` ties a state to the calls that led to it: a path has the size last asked for,
and a staged path holds the problem last given, with all that it caches.  Every call answers and
carries this on (`DoglegStepper.carried_tracks`), so every run does (`DoglegStepper.exists_run`).

What a caller sees after a step that succeeds is then a function of the settings, of the problem and
of the radius (`DoglegStepper.Lands`, `DoglegStepper.lands_of_ok`).  No law of the arithmetic is used.
-/

namespace TrustRegion

namespace DoglegStepper

open Stepper (Call lastSize lastInputs)

variable {α : Type} [Scalar α] {settings : Settings α} {calls : List (Call α)}
  {s : DoglegStepper α} {n m : Nat} {l : Linearization α} {radius : α}

/-- Is the state one to which the calls can have led? -/
structure Tracks (settings : Settings α) (calls : List (Call α)) (s : DoglegStepper α) : Prop where
  settings_eq : s.settings = settings
  /-- A path has the size last asked for, and what it holds is the problem last given. -/
  path : ∀ d, s.path = some d → settings.validate = .ok () ∧
    ∃ n m, lastSize calls = some (n, m) ∧ d.Sized n m settings.solver settings.tolerance ∧
      (d.staged = true → ∃ l, lastInputs calls = some l ∧ d.Holds n m l)

theorem tracks_fresh (settings : Settings α) : Tracks settings [] (fresh settings) :=
  ⟨rfl, fun _ h => by cases h⟩

/-- The step for a problem: a function of the settings, the problem and the radius. -/
def landing (settings : Settings α) (n m : Nat) (l : Linearization α) (radius : α) : Landing α :=
  DoglegPath.landing (CauchyPoint.along (Model.holding n m l)) l.gradient
    (DoglegPath.gaussNewtonPoint? settings.solver settings.tolerance l) radius

/-- What a caller sees after a step that succeeds. -/
structure Lands (settings : Settings α) (n m : Nat) (l : Linearization α) (radius : α)
    (t : Turn α (DoglegStepper α × Vec α) (StepError α) Regime) : Prop where
  result : t.result = .ok (landing settings n m l radius).regime
  step : t.state.2 = (landing settings n m l radius).step
  maxStep : t.state.1.maxStep = (landing settings n m l radius).onBoundary
  reduction : t.state.1.reduction =
    (Model.holding n m l).reductionAt (landing settings n m l radius).step
  lastRegime : t.state.1.lastRegime = some (landing settings n m l radius).regime
  diagnostics :
    t.state.1.diagnostics = DoglegPath.report n m settings.solver settings.tolerance l
  gaussNewtonStep : t.state.1.gaussNewtonStep =
    DoglegPath.gaussNewtonPoint? settings.solver settings.tolerance l
  model : t.state.1.path.map (·.model) = some (Model.holding n m l)

/-! ## One call -/

/-- Settings that are refused, and a log that is not opened, leave the solver as it was. -/
theorem init_of_activate_error {opening : Settings.LogOpening} {problem : SettingsProblem α}
    (h : s.settings.activate opening = .error problem) (n m : Nat) :
    s.init n m opening = .refuse s (.invalidSettings problem) := by
  unfold init
  rw [h]

/-- A preparation puts the settings into effect and makes a path.  If the first fails, the solver stays as it
was; if the second fails, it is left without a path. -/
theorem init_cases (s : DoglegStepper α) (n m : Nat) (opening : Settings.LogOpening) :
    (∃ problem, s.settings.activate opening = .error problem ∧
      s.init n m opening = .refuse s (.invalidSettings problem)) ∨
    (∃ e, s.settings.activate opening = .ok () ∧
      DoglegPath.ofSize n m s.settings.solver s.settings.tolerance = .error e ∧
      s.init n m opening = .refuse { s with path := none } e) ∨
    ∃ d, s.settings.activate opening = .ok () ∧
      DoglegPath.ofSize n m s.settings.solver s.settings.tolerance = .ok d ∧
      s.init n m opening =
        ⟨{ fresh s.settings with path := some d }, .ok (), [.initialized n m s.settings.solver]⟩ := by
  cases hactivate : s.settings.activate opening with
  | error problem => exact Or.inl ⟨problem, rfl, init_of_activate_error hactivate n m⟩
  | ok u =>
      unfold init
      rw [hactivate]
      cases DoglegPath.ofSize n m s.settings.solver s.settings.tolerance with
      | error e => exact Or.inr (Or.inl ⟨e, rfl, rfl, rfl⟩)
      | ok d => exact Or.inr (Or.inr ⟨d, rfl, rfl, rfl⟩)

/-- With settings that are refused there has never been a path. -/
theorem path_of_invalid {problem : SettingsProblem α} (h : Tracks settings calls s)
    (hv : settings.validate = .error problem) : s.path = none := by
  cases hd : s.path with
  | none => rfl
  | some d =>
      have hvalid := (h.path d hd).1
      rw [hv] at hvalid
      cases hvalid

theorem tracks_init (h : Tracks settings calls s) (n m : Nat) :
    Tracks settings (calls ++ [.init n m]) (s.init n m .succeeds).state := by
  have hinit := s.init_cases n m .succeeds
  rw [Settings.activate_succeeds, h.settings_eq] at hinit
  rcases hinit with ⟨problem, hv, hinit⟩ | ⟨e, -, -, hinit⟩ | ⟨d, hv, hd, hinit⟩
  · rw [hinit]
    refine ⟨h.settings_eq, fun d hd => ?_⟩
    rw [Turn.refuse, path_of_invalid h hv] at hd
    cases hd
  · rw [hinit]
    exact ⟨rfl, fun d hd => by cases hd⟩
  · rw [hinit]
    refine ⟨rfl, fun d' hd' => ?_⟩
    cases hd'
    obtain ⟨hsized, hstaged⟩ := DoglegPath.sized_ofSize hd
    exact ⟨hv, n, m, by simp, hsized, fun h => by rw [hstaged] at h; cases h⟩

theorem tracks_setInputs (h : Tracks settings calls s) (l : Linearization α) :
    ∃ t, s.setInputs l = some t ∧ Tracks settings (calls ++ [.setInputs l]) t.state := by
  unfold setInputs
  cases hd : s.path with
  | none => exact ⟨_, rfl, h.settings_eq, fun d hd' => by rw [Turn.refuse, hd] at hd'; cases hd'⟩
  | some d =>
      obtain ⟨hv, n, m, hsize, hsized, -⟩ := h.path d hd
      obtain ⟨t, ht, hsized', -, hholds, -⟩ := DoglegPath.stage_holds hsized l
      simp only [ht, Option.map_some]
      refine ⟨_, rfl, h.settings_eq, fun d' hd' => ?_⟩
      cases hd'
      exact ⟨hv, n, m, by simpa using hsize, hsized', fun hst => ⟨l, by simp, hholds hst⟩⟩

/-- A step for a path that holds a problem succeeds, and the path holds the problem afterwards. -/
theorem computeStep_lands {d : DoglegPath α} (hs : s.path = some d)
    (hd : d.Sized n m settings.solver settings.tolerance) (hl : d.Holds n m l)
    (hstaged : d.staged = true) (hradius : checkRadius radius = .ok ()) {out : Vec α}
    (hout : out.size = n) :
    ∃ t d', s.computeStep radius out = some t ∧ Lands settings n m l radius t ∧
      t.state.1.settings = s.settings ∧ t.state.1.path = some d' ∧
      d'.Sized n m settings.solver settings.tolerance ∧ d'.Holds n m l ∧ d'.staged = true := by
  obtain ⟨d', events, hstep, hsized, hholds, hstaged', hpoint, hreport⟩ :=
    DoglegPath.step_landing hd hl hstaged radius hout
  have hred : d'.model.predictedReduction (landing settings n m l radius).step =
      some ((Model.holding n m l).reductionAt (landing settings n m l radius).step) := by
    rw [hholds.model]
    exact Model.predictedReduction_of_size (Model.sized_holding hl.check)
      (DoglegPath.size_landing hl.check)
  unfold landing at hred
  unfold computeStep computeStepBy
  simp only [hradius, hs, hstep, hred, Option.bind_eq_bind, Option.bind_some]
  refine ⟨_, d', rfl, ⟨rfl, rfl, rfl, rfl, rfl, hreport, hpoint, ?_⟩, rfl, rfl, hsized, hholds,
    hstaged'⟩
  simp [hholds.model]

/-- What a request for a step can do: it is refused before the path is asked, or it ends as the step of the
path does. -/
theorem computeStepBy_cases {step : DoglegPath.Stepping α} {out : Vec α}
    {t : Turn α (DoglegStepper α × Vec α) (StepError α) Regime}
    (ht : s.computeStepBy step radius out = some t) :
    (∃ e, t = .refuse (s, out) e ∧ ∀ step, s.computeStepBy step radius out = some t) ∨
      ∃ d stepping, checkRadius radius = .ok () ∧ s.path = some d ∧
        step d radius out = some stepping ∧
        ((∃ e, stepping.result = .error e ∧
            t = ⟨({ s with path := some stepping.state.1 }, stepping.state.2), .error e,
              stepping.events⟩) ∨
          ∃ regime onBoundary reduction, stepping.result = .ok (regime, onBoundary) ∧
            stepping.state.1.model.predictedReduction stepping.state.2 = some reduction ∧
            t = ⟨({ s with
                path := some stepping.state.1
                maxStep := onBoundary
                reduction
                lastRegime := some regime }, stepping.state.2), .ok regime,
              stepping.events ++ warning reduction regime⟩) := by
  cases hradius : checkRadius radius with
  | error e =>
      have hall : ∀ step, s.computeStepBy step radius out = some (.refuse (s, out) e) := fun step => by
        unfold computeStepBy
        rw [hradius]
      obtain rfl := Option.some.inj (ht.symm.trans (hall step))
      exact .inl ⟨e, rfl, hall⟩
  | ok u =>
      cases hd : s.path with
      | none =>
          have hall : ∀ step, s.computeStepBy step radius out = some (.refuse (s, out) .notInitialized) :=
            fun step => by
              unfold computeStepBy
              rw [hradius, hd]
          obtain rfl := Option.some.inj (ht.symm.trans (hall step))
          exact .inl ⟨_, rfl, hall⟩
      | some d =>
          unfold computeStepBy at ht
          simp only [hradius, hd, Option.bind_eq_bind, Option.bind_eq_some_iff] at ht
          obtain ⟨stepping, hstepping, ht⟩ := ht
          refine .inr ⟨d, stepping, rfl, rfl, hstepping, ?_⟩
          cases hresult : stepping.result with
          | error e =>
              simp only [hresult] at ht
              cases ht
              exact .inl ⟨e, rfl, rfl⟩
          | ok answer =>
              simp only [hresult, Option.bind_eq_some_iff] at ht
              obtain ⟨reduction, hreduction, ht⟩ := ht
              cases ht
              exact .inr ⟨answer.1, answer.2, reduction, rfl, hreduction, rfl⟩

/-- Where the path refuses a step, nothing has changed. -/
theorem computeStep_of_refused {d : DoglegPath α} {out : Vec α} {e : StepError α}
    (hd : s.path = some d) (hradius : checkRadius radius = .ok ())
    (he : d.step radius out = some (.refuse (d, out) e)) :
    s.computeStep radius out = some (.refuse (s, out) e) := by
  unfold computeStep computeStepBy
  simp only [hradius, hd, he, Option.bind_eq_bind, Option.bind_some, Turn.refuse]
  rw [← hd]

/-- A turn that succeeds after the given calls, with the step for the problem last given. -/
def Succeeds (settings : Settings α) (calls : List (Call α)) (radius : α) (out : Vec α)
    (t : Turn α (DoglegStepper α × Vec α) (StepError α) Regime) : Prop :=
  ∃ n m l, settings.validate = .ok () ∧ checkRadius radius = .ok () ∧
    lastSize calls = some (n, m) ∧ lastInputs calls = some l ∧ l.check n m = .ok () ∧
    0 < n ∧ 0 < m ∧ out.size = n ∧ Lands settings n m l radius t

/-- A request for a step always answers.  Either it is refused and nothing has changed, or it
succeeds with the step for the problem last given. -/
theorem computeStep_cases (h : Tracks settings calls s) (radius : α) (out : Vec α) :
    ∃ t, s.computeStep radius out = some t ∧
      Tracks settings (calls ++ [.computeStep radius out]) t.state.1 ∧
      ((∃ e, t.result = .error e ∧ t.state = (s, out)) ∨ Succeeds settings calls radius out t) := by
  have hsame : Tracks settings (calls ++ [.computeStep radius out]) s :=
    ⟨h.settings_eq, fun d hd => by simpa using h.path d hd⟩
  have hrefused : ∀ e : StepError α, s.computeStep radius out = some (.refuse (s, out) e) →
      ∃ t, s.computeStep radius out = some t ∧
        Tracks settings (calls ++ [.computeStep radius out]) t.state.1 ∧
        ((∃ e, t.result = .error e ∧ t.state = (s, out)) ∨
          Succeeds settings calls radius out t) :=
    fun e he => ⟨_, he, hsame, Or.inl ⟨e, rfl, rfl⟩⟩
  cases hradius : checkRadius radius with
  | error e => exact hrefused e (by unfold computeStep computeStepBy; simp only [hradius])
  | ok u =>
      cases hd : s.path with
      | none => exact hrefused .notInitialized (by unfold computeStep computeStepBy; simp only [hradius, hd])
      | some d =>
          obtain ⟨hv, n, m, hsize, hsized, hstaged⟩ := h.path d hd
          by_cases hst : d.staged = true
          · by_cases hout : out.size = n
            · obtain ⟨l, hlast, hholds⟩ := hstaged hst
              obtain ⟨t, d', ht, hlands, hset, hd', hsized', hholds', -⟩ :=
                computeStep_lands hd hsized hholds hst hradius hout
              refine ⟨t, ht, ⟨hset.trans h.settings_eq, fun d'' hd'' => ?_⟩, Or.inr
                ⟨n, m, l, hv, hradius, hsize, hlast, hholds.check, hsized.params_pos,
                  hsized.residuals_pos, hout, hlands⟩⟩
              rw [hd'] at hd''
              cases hd''
              exact ⟨hv, n, m, by simpa using hsize, hsized', fun _ => ⟨l, by simpa using hlast, hholds'⟩⟩
            · exact hrefused _ (computeStep_of_refused hd hradius
                (DoglegPath.step_of_size_ne hsized hst radius hout))
          · exact hrefused _ (computeStep_of_refused hd hradius
              (DoglegPath.step_of_not_staged (by simpa using hst) radius out))

/-! ## Runs -/

/-- Every operation answers, and the state goes on tracking the calls. -/
theorem carried_tracks : Stepper.Carried (Tracks settings) where
  init h n m := ⟨_, rfl, tracks_init h n m⟩
  setInputs h l := tracks_setInputs h l
  computeStep h radius out := by
    obtain ⟨t, ht, htracks, -⟩ := computeStep_cases h radius out
    exact ⟨t, ht, htracks⟩

/-- **Every run answers**, and the state at its end tracks its calls. -/
theorem exists_run (settings : Settings α) (cs : List (Call α)) :
    ∃ s answers, Stepper.run (fresh settings) cs = some (s, answers) ∧ Tracks settings cs s := by
  simpa using carried_tracks.run (tracks_fresh settings) cs

/-- A step that succeeds is the one for the problem last given. -/
theorem lands_of_ok {answers : List (Stepper.Answered α (DoglegStepper α))} {out : Vec α}
    {t : Turn α (DoglegStepper α × Vec α) (StepError α) Regime} {regime : Regime}
    (hrun : Stepper.run (fresh settings) calls = some (s, answers))
    (ht : s.computeStep radius out = some t) (hok : t.result = .ok regime) :
    Succeeds settings calls radius out t := by
  obtain ⟨t', ht', -, hcases⟩ := computeStep_cases (carried_tracks.of_run (tracks_fresh settings) hrun) radius out
  rw [ht] at ht'
  cases ht'
  rcases hcases with ⟨e, he, -⟩ | hlands
  · rw [hok] at he
    cases he
  · exact hlands

/-- Where settings, size, problem, radius and vector are as they should be, preparing, taking the
problem and asking for a step succeeds, whatever went before. -/
theorem exists_step (calls : List (Call α)) (hv : settings.validate = .ok ()) (hn : 0 < n)
    (hm : 0 < m) (hl : l.check n m = .ok ()) (hradius : checkRadius radius = .ok ()) {out : Vec α}
    (hout : out.size = n) :
    ∃ s answers t,
      Stepper.run (fresh settings) (calls ++ [.init n m, .setInputs l]) = some (s, answers) ∧
      s.computeStep radius out = some t ∧ Lands settings n m l radius t := by
  obtain ⟨s, answers, hbefore, htracks⟩ := exists_run settings calls
  obtain ⟨q, hq⟩ := Model.exists_ofSize (α := α) hn hm
  obtain ⟨d, hd⟩ : ∃ d, DoglegPath.ofSize n m settings.solver settings.tolerance = .ok d := by
    unfold DoglegPath.ofSize
    rw [hq]
    exact ⟨_, rfl⟩
  obtain ⟨t, ht, hsized, -, hholds, hstaged⟩ :=
    DoglegPath.stage_holds (DoglegPath.sized_ofSize hd).1 l
  have hinit : s.init n m .succeeds = ⟨{ fresh settings with path := some d }, .ok (),
      [.initialized n m settings.solver]⟩ := by
    unfold init
    simp only [Settings.activate_succeeds, htracks.settings_eq, hv, hd]
  have hrun : ∃ answers, Stepper.run s [.init n m, .setInputs l] =
      some ({ fresh settings with path := some t.state }, answers) := by
    simp only [Stepper.run, Stepper.call, Stepper.init, Stepper.setInputs, setInputs, hinit, ht,
      Option.map_some, Option.bind_eq_bind, Option.bind_some]
    exact ⟨_, rfl⟩
  obtain ⟨answers', hrun⟩ := hrun
  obtain ⟨t', -, ht', hlands, -⟩ := computeStep_lands
    (s := { fresh settings with path := some t.state }) rfl hsized (hholds (hstaged hl))
    (hstaged hl) hradius hout
  exact ⟨_, _, t', Stepper.run_append hbefore hrun, ht', hlands⟩

end DoglegStepper

end TrustRegion
