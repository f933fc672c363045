import TrustRegion.Proofs.Path.Landing
import TrustRegion.Proofs.Stepper.History
import TrustRegion.Stepper.Cauchy

/-!
# Runs of the solver along the gradient

The solver that only goes along the gradient keeps a model and a Cauchy point.
`CauchyStepper.Tracks` says that a Cauchy point belongs to the problem last given, and that the model
holds this problem.  Every run answers and carries this on (`CauchyStepper.exists_run`), so a step that
succeeds is the one for the problem last given (`CauchyStepper.lands_of_ok`).
-/

namespace TrustRegion

namespace CauchyStepper

open Stepper (Call lastSize lastInputs)

variable {α : Type} [Scalar α] {calls : List (Call α)} {s : CauchyStepper α} {n m : Nat}
  {l : Linearization α} {radius : α}

/-- Is the state one to which the calls can have led? -/
structure Tracks (calls : List (Call α)) (s : CauchyStepper α) : Prop where
  sized : ∀ q, s.model = some q → q.Sized
  pos : ∀ q, s.model = some q → 0 < q.n ∧ 0 < q.m
  /-- A Cauchy point is that of the problem last given, and the model holds this problem. -/
  point : ∀ c, s.point = some c → ∃ n m l, lastInputs calls = some l ∧ l.check n m = .ok () ∧
    s.model = some (Model.holding n m l) ∧ c = CauchyPoint.along (Model.holding n m l)

theorem tracks_fresh : Tracks [] (fresh : CauchyStepper α) := by
  refine ⟨?_, ?_, ?_⟩ <;> intro _ h <;> cases h

/-! ## One call -/

theorem tracks_init (h : Tracks calls s) (n m : Nat) :
    Tracks (calls ++ [.init n m]) (s.init n m).state := by
  unfold init
  cases hq : Model.ofSize (α := α) n m with
  | error e =>
      refine ⟨h.sized, h.pos, fun c hc => ?_⟩
      rw [Stepper.lastInputs_init]
      exact h.point c hc
  | ok q =>
      obtain ⟨hsized, hn, hm, hpos⟩ := Model.sized_ofSize hq
      refine ⟨fun q' hq' => ?_, fun q' hq' => ?_, fun c hc => by cases hc⟩
      · cases hq'
        exact hsized
      · cases hq'
        rw [hn, hm]
        exact hpos

/-- Without a size every problem is refused. -/
theorem setInputs_of_no_model (hq : s.model = none) (l : Linearization α) :
    s.setInputs l = some (.refuse s .notInitialized) := by
  unfold setInputs
  rw [hq]

/-- A problem of another size takes the Cauchy point away, and nothing else. -/
theorem setInputs_of_check_error {q : Model α} {e : StepError α} (hq : s.model = some q)
    (hl : l.check q.n q.m = .error e) :
    s.setInputs l = some (.refuse { s with point := none } e) := by
  unfold setInputs
  rw [hq]
  simp only [Model.stage_of_check_error hl, Option.bind_eq_bind, Option.bind_some, Turn.refuse, ← hq]

/-- A problem of the right size takes the place of the one before, with its Cauchy point. -/
theorem setInputs_of_check_ok {q : Model α} (hq : s.model = some q) (hsized : q.Sized)
    (hl : l.check q.n q.m = .ok ()) :
    ∃ events, s.setInputs l =
      some ⟨{ s with
        model := some (Model.holding q.n q.m l)
        point := some (CauchyPoint.along (Model.holding q.n q.m l)) }, .ok (), events⟩ := by
  obtain ⟨events, hstage⟩ := Model.stage_of_check_ok hsized hl
  obtain ⟨events', hpoint⟩ := CauchyPoint.ofModel_of_sized (Model.sized_holding hl)
  unfold setInputs
  rw [hq]
  simp only [hstage, hpoint, Option.bind_eq_bind, Option.bind_some]
  exact ⟨_, rfl⟩

theorem tracks_setInputs (h : Tracks calls s) (l : Linearization α) :
    ∃ t, s.setInputs l = some t ∧ Tracks (calls ++ [.setInputs l]) t.state := by
  cases hq : s.model with
  | none =>
      -- without a model there is no Cauchy point that could belong to an earlier problem
      refine ⟨_, setInputs_of_no_model hq l, h.sized, h.pos, fun c hc => ?_⟩
      obtain ⟨n, m, l', -, -, hmodel, -⟩ := h.point c hc
      rw [hq] at hmodel
      cases hmodel
  | some q =>
      have hsized := h.sized q hq
      have hpos := h.pos q hq
      cases hc : l.check q.n q.m with
      | error e =>
          exact ⟨_, setInputs_of_check_error hq hc, h.sized, h.pos, fun c hc => by cases hc⟩
      | ok u =>
          obtain ⟨events, ht⟩ := setInputs_of_check_ok hq hsized hc
          refine ⟨_, ht, fun q' hq' => ?_, fun q' hq' => ?_, fun c hc' => ?_⟩
          · cases hq'; exact Model.sized_holding hc
          · cases hq'; exact hpos
          · cases hc'
            exact ⟨q.n, q.m, l, by simp, hc, rfl, rfl⟩

/-- What a caller sees after a step that succeeds. -/
structure Lands (n m : Nat) (l : Linearization α) (radius : α)
    (t : Turn α (CauchyStepper α × Vec α) (StepError α) Regime) : Prop where
  result : t.result = .ok .cauchy
  step : t.state.2 =
    ((CauchyPoint.along (Model.holding n m l)).stepWithin l.gradient radius).1
  maxStep : t.state.1.maxStep =
    ((CauchyPoint.along (Model.holding n m l)).stepWithin l.gradient radius).2
  reduction : t.state.1.reduction = (Model.holding n m l).reductionAt
    ((CauchyPoint.along (Model.holding n m l)).stepWithin l.gradient radius).1
  diagnostics : t.state.1.diagnostics =
    { nonPositiveCurvature := (CauchyPoint.along (Model.holding n m l)).isUnbounded
      zeroGradient := (CauchyPoint.along (Model.holding n m l)).isZeroGradient }

/-- A turn that succeeds after the given calls, with the step for the problem last given. -/
def Succeeds (calls : List (Call α)) (radius : α) (out : Vec α)
    (t : Turn α (CauchyStepper α × Vec α) (StepError α) Regime) : Prop :=
  ∃ n m l, checkRadius radius = .ok () ∧ lastInputs calls = some l ∧ l.check n m = .ok () ∧
    0 < n ∧ 0 < m ∧ out.size = n ∧ Lands n m l radius t

/-- A step for a model that holds a problem succeeds. -/
theorem computeStep_lands (hmodel : s.model = some (Model.holding n m l))
    (hpoint : s.point = some (CauchyPoint.along (Model.holding n m l)))
    (hl : l.check n m = .ok ()) (hradius : checkRadius radius = .ok ()) {out : Vec α}
    (hout : out.size = n) :
    ∃ t, s.computeStep radius out = some t ∧ Lands n m l radius t ∧
      t.state.1.model = s.model ∧ t.state.1.point = s.point := by
  have hg : l.gradient.size = n := Linearization.size_gradient hl
  have hred := Model.predictedReduction_of_size (Model.sized_holding hl)
    (h := ((CauchyPoint.along (Model.holding n m l)).stepWithin l.gradient radius).1)
    (CauchyPoint.size_stepWithin_of_check hl _ _)
  have hwrite := CauchyPoint.writeStep_of_size (p := CauchyPoint.along (Model.holding n m l))
    radius (hout.trans hg.symm)
  have hsize : (Model.holding n m l).n = out.size := hout.symm
  unfold computeStep stepTo
  simp only [hradius, hmodel, hpoint, hsize, checkSize_self]
  rw [show (Model.holding n m l).gradient = l.gradient from rfl, hwrite]
  simp only [hred, Option.bind_eq_bind, Option.bind_some, Option.map_some]
  exact ⟨_, rfl, ⟨rfl, rfl, rfl, rfl, rfl⟩, rfl, rfl⟩

/-- A request for a step always answers.  Either it is refused and nothing has changed, or it
succeeds with the step for the problem last given. -/
theorem computeStep_cases (h : Tracks calls s) (radius : α) (out : Vec α) :
    ∃ t, s.computeStep radius out = some t ∧
      Tracks (calls ++ [.computeStep radius out]) t.state.1 ∧
      ((∃ e, t.result = .error e ∧ t.state = (s, out)) ∨ Succeeds calls radius out t) := by
  have hsame : Tracks (calls ++ [.computeStep radius out]) s :=
    ⟨h.sized, h.pos, fun c hc => by simpa using h.point c hc⟩
  have hrefused : ∀ e : StepError α, s.computeStep radius out = some (.refuse (s, out) e) →
      ∃ t, s.computeStep radius out = some t ∧
        Tracks (calls ++ [.computeStep radius out]) t.state.1 ∧
        ((∃ e, t.result = .error e ∧ t.state = (s, out)) ∨ Succeeds calls radius out t) :=
    fun e he => ⟨_, he, hsame, Or.inl ⟨e, rfl, rfl⟩⟩
  cases hradius : checkRadius radius with
  | error e => exact hrefused e (by unfold computeStep; simp only [hradius])
  | ok u =>
      cases hq : s.model with
      | none => exact hrefused .notInitialized (by unfold computeStep; simp only [hradius, hq])
      | some q =>
          cases hc : s.point with
          | none =>
              exact hrefused .inputsNotSet (by unfold computeStep; simp only [hradius, hq, hc])
          | some c =>
              obtain ⟨n, m, l, hlast, hl, hmodel, rfl⟩ := h.point c hc
              obtain ⟨hn, hm⟩ := h.pos _ hmodel
              by_cases hout : out.size = n
              · obtain ⟨t, ht, hlands, hm', hp'⟩ := computeStep_lands hmodel hc hl hradius hout
                refine ⟨t, ht, ⟨fun q hq => ?_, fun q hq => ?_, fun c hc' => ?_⟩, Or.inr
                  ⟨n, m, l, hradius, hlast, hl, hn, hm, hout, hlands⟩⟩
                · exact h.sized q (hm' ▸ hq)
                · exact h.pos q (hm' ▸ hq)
                · rw [hm']
                  simpa using h.point c (hp' ▸ hc')
              · refine hrefused (.dimension .step n out.size) ?_
                unfold computeStep checkSize
                simp only [hradius, hmodel, hc]
                rw [if_neg (fun h : (Model.holding n m l).n = out.size => hout h.symm)]
                rfl

/-! ## Runs -/

/-- Every operation answers, and the state goes on tracking the calls. -/
theorem carried_tracks : Stepper.Carried (Tracks (α := α)) where
  init h n m := ⟨_, rfl, tracks_init h n m⟩
  setInputs h l := tracks_setInputs h l
  computeStep h radius out := by
    obtain ⟨t, ht, htracks, -⟩ := computeStep_cases h radius out
    exact ⟨t, ht, htracks⟩

/-- **Every run answers**, and the state at its end tracks its calls. -/
theorem exists_run (cs : List (Call α)) :
    ∃ s answers, Stepper.run (fresh : CauchyStepper α) cs = some (s, answers) ∧ Tracks cs s := by
  simpa using carried_tracks.run tracks_fresh cs

/-- A step that succeeds is the one for the problem last given. -/
theorem lands_of_ok {answers : List (Stepper.Answered α (CauchyStepper α))} {out : Vec α}
    {t : Turn α (CauchyStepper α × Vec α) (StepError α) Regime} {regime : Regime}
    (hrun : Stepper.run (fresh : CauchyStepper α) calls = some (s, answers))
    (ht : s.computeStep radius out = some t) (hok : t.result = .ok regime) :
    Succeeds calls radius out t := by
  obtain ⟨t', ht', -, hcases⟩ := computeStep_cases (carried_tracks.of_run tracks_fresh hrun) radius out
  rw [ht] at ht'
  cases ht'
  rcases hcases with ⟨e, he, -⟩ | hlands
  · rw [hok] at he
    cases he
  · exact hlands

/-- Where size, problem, radius and vector are as they should be, preparing, taking the problem and
asking for a step succeeds, whatever went before. -/
theorem exists_step (calls : List (Call α)) (hn : 0 < n) (hm : 0 < m) (hl : l.check n m = .ok ())
    (hradius : checkRadius radius = .ok ()) {out : Vec α} (hout : out.size = n) :
    ∃ s answers t,
      Stepper.run (fresh : CauchyStepper α) (calls ++ [.init n m, .setInputs l]) =
        some (s, answers) ∧
      s.computeStep radius out = some t ∧ Lands n m l radius t := by
  obtain ⟨s, answers, hbefore, -⟩ := exists_run calls
  obtain ⟨q, hq⟩ := Model.exists_ofSize (α := α) hn hm
  obtain ⟨hsized, rfl, rfl, -⟩ := Model.sized_ofSize hq
  have hinit : s.init q.n q.m = ⟨{ (fresh : CauchyStepper α) with model := some q }, .ok (), []⟩ := by
    unfold init
    simp only [hq]
  obtain ⟨events, hset⟩ :=
    setInputs_of_check_ok (s := { (fresh : CauchyStepper α) with model := some q }) rfl hsized hl
  have hrun : ∃ answers, Stepper.run s [.init q.n q.m, .setInputs l] =
      some ({ (fresh : CauchyStepper α) with
        model := some (Model.holding q.n q.m l),
        point := some (CauchyPoint.along (Model.holding q.n q.m l)) }, answers) := by
    simp only [Stepper.run, Stepper.call, Stepper.init, Stepper.setInputs, hinit, hset,
      Option.map_some, Option.bind_eq_bind, Option.bind_some]
    exact ⟨_, rfl⟩
  obtain ⟨answers', hrun⟩ := hrun
  obtain ⟨t, ht, hlands, -, -⟩ := computeStep_lands
    (s := { (fresh : CauchyStepper α) with
      model := some (Model.holding q.n q.m l),
      point := some (CauchyPoint.along (Model.holding q.n q.m l)) }) rfl rfl hl hradius hout
  exact ⟨_, _, t, Stepper.run_append hbefore hrun, ht, hlands⟩

end CauchyStepper

end TrustRegion
