import TrustRegion.Proofs.Stepper.Cauchy
import TrustRegion.Proofs.Stepper.Dogleg
import TrustRegion.Proofs.Stepper.Protocol

/-!
# Refusals

Both step solvers follow a protocol (`CauchyStepper.follows`, `DoglegStepper.follows`), so a log of the
calls tells which calls are refused.  The two protocols differ in what a refused preparation leaves:
the solver along the gradient is as it was, and the dogleg solver has to be prepared again.

* **`Stepper.refusals_exact`** — a problem, or a request for a step, is refused exactly for the reasons
  listed, and a refusal leaves no half-made change.

Neither depends on the arithmetic.
-/

namespace TrustRegion

open Stepper (Call Protocol Phase Follows log lastPreparation lastPrepared problemAtHand)

variable {α : Type} {calls : List (Call α)} {radius : α} {l : Linearization α}

/-! ## Along the gradient -/

namespace CauchyStepper

/-- How far the solver has come. -/
def phase (s : CauchyStepper α) : Phase :=
  match s.model, s.point with
  | none, _ => .unprepared
  | some q, none => .prepared q.n q.m
  | some q, some _ => .staged q.n q.m

section Phase

variable {s : CauchyStepper α} {q : Model α}

theorem phase_of_no_model (hq : s.model = none) : s.phase = .unprepared := by
  simp only [phase, hq]

theorem phase_of_no_point (hq : s.model = some q) (hc : s.point = none) :
    s.phase = .prepared q.n q.m := by
  simp only [phase, hq, hc]

theorem phase_of_point {c : CauchyPoint α} (hq : s.model = some q) (hc : s.point = some c) :
    s.phase = .staged q.n q.m := by
  simp only [phase, hq, hc]

theorem size?_phase (hq : s.model = some q) : s.phase.size? = some (q.n, q.m) := by
  cases hc : s.point with
  | none => rw [phase_of_no_point hq hc]; rfl
  | some c => rw [phase_of_point hq hc]; rfl

end Phase

variable [Scalar α] {s : CauchyStepper α}

/-- The protocol of the solver: a refused preparation changes nothing. -/
def protocol : Protocol α where
  prepare n m := (Model.ofSize (α := α) n m).map fun _ => ()
  dropped p := p

theorem init_of_error {n m : Nat} {e : StepError α} (h : (s.init n m).result = .error e) :
    s.init n m = .refuse s e := by
  unfold init at h ⊢
  cases hq : Model.ofSize (α := α) n m with
  | error e' => rw [hq] at h; cases h; rfl
  | ok q => rw [hq] at h; cases h

theorem init_phase (s : CauchyStepper α) (n m : Nat) :
    (s.init n m).result = (protocol : Protocol α).prepare n m ∧
      (s.init n m).state.phase = (protocol : Protocol α).next s.phase (.init n m) := by
  simp only [init, Protocol.next, protocol]
  cases hq : Model.ofSize (α := α) n m with
  | error e => exact ⟨rfl, rfl⟩
  | ok q =>
      obtain ⟨-, hn, hm, -⟩ := Model.sized_ofSize hq
      refine ⟨rfl, ?_⟩
      show Phase.prepared q.n q.m = .prepared n m
      rw [hn, hm]

theorem setInputs_phase (h : Tracks calls s) {t : Turn α (CauchyStepper α) (StepError α) Unit}
    (ht : s.setInputs l = some t) :
    t.result = s.phase.receive l ∧ t.state.phase = s.phase.received t.result := by
  cases hq : s.model with
  | none =>
      rw [setInputs_of_no_model hq] at ht
      cases ht
      rw [Turn.refuse, phase_of_no_model hq]
      exact ⟨rfl, rfl⟩
  | some q =>
      have hsize := size?_phase hq
      rw [Phase.receive_of_size? hsize]
      cases hc : l.check q.n q.m with
      | error e =>
          rw [setInputs_of_check_error hq hc] at ht
          cases ht
          rw [Turn.refuse, Phase.received_error hsize]
          exact ⟨rfl, phase_of_no_point hq rfl⟩
      | ok u =>
          obtain ⟨events, hset⟩ := setInputs_of_check_ok hq (h.sized q hq) hc
          rw [hset] at ht
          cases ht
          exact ⟨rfl, (Phase.received_ok hsize).symm⟩

/-- A step leaves the model and the Cauchy point as they are. -/
theorem stepTo_phase {q : Model α} {c : CauchyPoint α} {out : Vec α}
    {after : CauchyStepper α × Vec α} (h : s.stepTo q c radius out = some after) :
    after.1.phase = s.phase := by
  unfold stepTo at h
  simp only [Option.bind_eq_bind, Option.bind_eq_some_iff] at h
  obtain ⟨_, -, _, -, h⟩ := h
  cases h
  rfl

theorem computeStep_phase {out : Vec α}
    {t : Turn α (CauchyStepper α × Vec α) (StepError α) Regime}
    (ht : s.computeStep radius out = some t) :
    (t.result.map fun _ => ()) = s.phase.request radius out.size ∧ t.state.1.phase = s.phase := by
  unfold computeStep at ht
  unfold Phase.request
  cases hradius : checkRadius radius with
  | error e =>
      rw [hradius] at ht
      cases ht
      exact ⟨rfl, rfl⟩
  | ok u =>
      cases hq : s.model with
      | none =>
          rw [hradius, hq] at ht
          cases ht
          exact ⟨by rw [phase_of_no_model hq]; rfl, rfl⟩
      | some q =>
          cases hc : s.point with
          | none =>
              rw [hradius, hq, hc] at ht
              cases ht
              exact ⟨by rw [phase_of_no_point hq hc]; rfl, rfl⟩
          | some c =>
              have hphase := phase_of_point hq hc
              rw [hradius, hq, hc] at ht
              rw [hphase]
              dsimp only at ht ⊢
              split at ht
              · rename_i e he
                cases ht
                exact ⟨he.symm, hphase⟩
              · rename_i hok
                obtain ⟨after, hafter, rfl⟩ := Option.map_eq_some_iff.1 ht
                exact ⟨hok.symm, (stepTo_phase hafter).trans hphase⟩

/-- Every call ends as the protocol says. -/
theorem follows (h : Tracks calls s) : Follows protocol phase s where
  init ht := by
    cases ht
    exact init_phase s _ _
  setInputs ht := setInputs_phase h ht
  computeStep ht := computeStep_phase ht

/-- A run has the log of the protocol, and comes to its phase. -/
theorem run_follows {answers : List (Stepper.Answered α (CauchyStepper α))}
    (hrun : Stepper.run (fresh : CauchyStepper α) calls = some (s, answers)) :
    s.phase = (protocol : Protocol α).phase calls ∧
      Stepper.log calls answers = (protocol : Protocol α).log calls :=
  Follows.run carried_tracks (fun _ _ => follows) tracks_fresh hrun

/-- The solver is prepared for the size last accepted. -/
theorem phase_of_run {answers : List (Stepper.Answered α (CauchyStepper α))}
    (hrun : Stepper.run (fresh : CauchyStepper α) calls = some (s, answers)) :
    s.phase = .of (lastPrepared (log calls answers)) (problemAtHand (log calls answers)) := by
  obtain ⟨hphase, hlog⟩ := run_follows hrun
  rw [hphase, hlog]
  exact Protocol.phase_of_kept calls fun _ => rfl

theorem state_of_refused_problem (h : Tracks calls s)
    {t : Turn α (CauchyStepper α) (StepError α) Unit} {e : StepError α}
    (ht : s.setInputs l = some t) (he : t.result = .error e) : t.state = { s with point := none } := by
  rcases Option.eq_none_or_eq_some s.model with hq | ⟨q, hq⟩
  · rw [setInputs_of_no_model hq] at ht
    cases ht
    -- without a model there is no Cauchy point
    rcases Option.eq_none_or_eq_some s.point with hc | ⟨c, hc⟩
    · rw [Turn.refuse, ← hc]
    · obtain ⟨n, m, l, -, -, hmodel, -⟩ := h.point c hc
      rw [hq] at hmodel
      cases hmodel
  · cases hcheck : l.check q.n q.m with
    | error e' =>
        rw [setInputs_of_check_error hq hcheck] at ht
        cases ht
        rfl
    | ok u =>
        obtain ⟨events, hset⟩ := setInputs_of_check_ok hq (h.sized q hq) hcheck
        rw [hset] at ht
        cases ht
        cases he

theorem state_of_refused_step (h : Tracks calls s) {out : Vec α}
    {t : Turn α (CauchyStepper α × Vec α) (StepError α) Regime} {e : StepError α}
    (ht : s.computeStep radius out = some t) (he : t.result = .error e) : t.state = (s, out) := by
  obtain ⟨t', ht', -, hcases⟩ := computeStep_cases h radius out
  rw [ht] at ht'
  cases ht'
  rcases hcases with ⟨e', -, hstate⟩ | ⟨n, m, l, -, -, -, -, -, -, hlands⟩
  · exact hstate
  · rw [hlands.result] at he
    cases he

end CauchyStepper

/-! ## Along the dogleg path -/

/-- How far the path has come. -/
def DoglegPath.phase (d : DoglegPath α) : Phase :=
  if d.staged then .staged d.model.n d.model.m else .prepared d.model.n d.model.m

namespace DoglegPath

variable {d : DoglegPath α} {n m : Nat} {kind : SolverKind} {tolerance : α}

theorem phase_of_staged (hd : d.Sized n m kind tolerance) (hstaged : d.staged = true) :
    d.phase = .staged n m := by
  rw [phase, if_pos hstaged, hd.params, hd.residuals]

theorem phase_of_not_staged (hd : d.Sized n m kind tolerance) (hstaged : d.staged = false) :
    d.phase = .prepared n m := by
  rw [phase, if_neg (by simp [hstaged]), hd.params, hd.residuals]

theorem size?_phase (hd : d.Sized n m kind tolerance) : d.phase.size? = some (n, m) := by
  cases hstaged : d.staged with
  | false => rw [phase_of_not_staged hd hstaged]; rfl
  | true => rw [phase_of_staged hd hstaged]; rfl

/-- A path accepts the sizes that a model accepts. -/
theorem map_ofSize [Scalar α] (n m : Nat) (kind : SolverKind) (tolerance : α) :
    (ofSize n m kind tolerance).map (fun _ => ()) =
      (Model.ofSize (α := α) n m).map fun _ => () := by
  unfold ofSize
  cases Model.ofSize (α := α) n m <;> rfl

end DoglegPath

namespace DoglegStepper

/-- How far the solver has come. -/
def phase (s : DoglegStepper α) : Phase :=
  match s.path with
  | none => .unprepared
  | some d => d.phase

theorem phase_of_no_path {s : DoglegStepper α} (hd : s.path = none) : s.phase = .unprepared := by
  simp only [phase, hd]

theorem phase_of_path {s : DoglegStepper α} {d : DoglegPath α} (hd : s.path = some d) :
    s.phase = d.phase := by
  simp only [phase, hd]

variable [Scalar α] {settings : Settings α} {s : DoglegStepper α}

/-- The protocol of the solver: after a refused preparation it has to be prepared again. -/
def protocol (settings : Settings α) : Protocol α where
  prepare n m :=
    match settings.validate with
    | .error problem => .error (.invalidSettings problem)
    | .ok () => (Model.ofSize (α := α) n m).map fun _ => ()
  dropped _ := .unprepared

theorem phase_eq_unprepared_iff (h : Tracks settings calls s) :
    s.phase = .unprepared ↔ s.path = none := by
  constructor
  · intro hphase
    cases hd : s.path with
    | none => rfl
    | some d =>
        obtain ⟨-, n, m, -, hsized, -⟩ := h.path d hd
        have hsize := DoglegPath.size?_phase hsized
        rw [← phase_of_path hd, hphase] at hsize
        cases hsize
  · exact phase_of_no_path

/-- A preparation that is refused changes nothing if the settings are refused, or the log is not opened.
Otherwise it takes the path away, if there is one, and nothing else. -/
theorem init_of_error {n m : Nat} {opening : Settings.LogOpening} {e : StepError α}
    (he : (s.init n m opening).result = .error e) :
    (∃ problem, s.settings.activate opening = .error problem ∧ e = .invalidSettings problem ∧
      s.init n m opening = .refuse s e) ∨
    s.settings.activate opening = .ok () ∧ s.init n m opening = .refuse { s with path := none } e := by
  rcases s.init_cases n m opening with ⟨problem, hv, hinit⟩ | ⟨e', hv, -, hinit⟩ | ⟨d, -, -, hinit⟩
  · rw [hinit] at he ⊢
    cases he
    exact Or.inl ⟨problem, hv, rfl, rfl⟩
  · rw [hinit] at he ⊢
    cases he
    exact Or.inr ⟨hv, rfl⟩
  · rw [hinit] at he
    cases he

/-- Where every log opens, it does so in either case: with settings that are refused there is no path. -/
theorem init_of_error_of_tracks {n m : Nat} {e : StepError α} (h : Tracks settings calls s)
    (he : (s.init n m .succeeds).result = .error e) :
    s.init n m .succeeds = .refuse { s with path := none } e := by
  rcases init_of_error he with ⟨problem, hv, -, hinit⟩ | ⟨-, hinit⟩
  · rw [Settings.activate_succeeds, h.settings_eq] at hv
    rw [hinit, ← path_of_invalid h hv]
  · exact hinit

theorem init_phase (h : Tracks settings calls s) (n m : Nat) :
    (s.init n m .succeeds).result = (protocol settings).prepare n m ∧
      (s.init n m .succeeds).state.phase = (protocol settings).next s.phase (.init n m) := by
  simp only [init, Settings.activate_succeeds, Protocol.next, protocol, h.settings_eq]
  cases hv : settings.validate with
  | error problem => exact ⟨rfl, phase_of_no_path (path_of_invalid h hv)⟩
  | ok u =>
      have hmap := DoglegPath.map_ofSize n m settings.solver settings.tolerance
      cases hd : DoglegPath.ofSize n m settings.solver settings.tolerance with
      | error e =>
          rw [hd] at hmap
          dsimp only
          rw [← hmap]
          exact ⟨rfl, rfl⟩
      | ok d =>
          rw [hd] at hmap
          obtain ⟨hsized, hstaged⟩ := DoglegPath.sized_ofSize hd
          dsimp only
          rw [← hmap]
          exact ⟨rfl, DoglegPath.phase_of_not_staged hsized hstaged⟩

theorem setInputs_of_no_path (hd : s.path = none) (l : Linearization α) :
    s.setInputs l = some (.refuse s .notInitialized) := by
  unfold setInputs
  rw [hd]

/-- A problem of another size takes away the one at hand, and nothing else. -/
theorem setInputs_of_check_error {d : DoglegPath α} {n m : Nat} {e : StepError α}
    (hd : s.path = some d) (hsized : d.Sized n m settings.solver settings.tolerance)
    (hl : l.check n m = .error e) :
    s.setInputs l = some (.refuse { s with path := some d.unstaged } e) := by
  unfold setInputs
  rw [hd]
  simp only [DoglegPath.stage_of_check_error hsized hl, Option.map_some, Turn.refuse]

theorem setInputs_phase (h : Tracks settings calls s)
    {t : Turn α (DoglegStepper α) (StepError α) Unit} (ht : s.setInputs l = some t) :
    t.result = s.phase.receive l ∧ t.state.phase = s.phase.received t.result := by
  cases hd : s.path with
  | none =>
      rw [setInputs_of_no_path hd] at ht
      cases ht
      rw [Turn.refuse, phase_of_no_path hd]
      exact ⟨rfl, rfl⟩
  | some d =>
      obtain ⟨-, n, m, -, hsized, -⟩ := h.path d hd
      have hsize := DoglegPath.size?_phase hsized
      rw [phase_of_path hd, Phase.receive_of_size? hsize]
      cases hc : l.check n m with
      | error e =>
          rw [setInputs_of_check_error hd hsized hc] at ht
          cases ht
          rw [Turn.refuse, Phase.received_error hsize, ← hsized.params, ← hsized.residuals]
          exact ⟨rfl, rfl⟩
      | ok u =>
          obtain ⟨t', ht', hsized', hresult, -, hstaged⟩ := DoglegPath.stage_holds hsized l
          unfold setInputs at ht
          simp only [hd, ht', Option.map_some] at ht
          cases ht
          rw [hresult, hc, Phase.received_ok hsize]
          exact ⟨rfl, DoglegPath.phase_of_staged hsized' (hstaged hc)⟩

/-- How a request with a good radius ends for a solver that has a path. -/
theorem computeStep_phase_of_path {d : DoglegPath α} {out : Vec α}
    {t : Turn α (DoglegStepper α × Vec α) (StepError α) Regime} (h : Tracks settings calls s)
    (hd : s.path = some d) (hradius : checkRadius radius = .ok ())
    (ht : s.computeStep radius out = some t) :
    (t.result.map fun _ => ()) = d.phase.request radius out.size ∧ t.state.1.phase = d.phase := by
  obtain ⟨-, n, m, -, hsized, hholds⟩ := h.path d hd
  unfold Phase.request
  rw [hradius]
  cases hstaged : d.staged with
  | false =>
      rw [computeStep_of_refused hd hradius (DoglegPath.step_of_not_staged hstaged radius out)] at ht
      cases ht
      rw [DoglegPath.phase_of_not_staged hsized hstaged]
      exact ⟨rfl, (phase_of_path hd).trans (DoglegPath.phase_of_not_staged hsized hstaged)⟩
  | true =>
      have hphase := DoglegPath.phase_of_staged hsized hstaged
      rw [hphase]
      by_cases hout : out.size = n
      · obtain ⟨l, -, hl⟩ := hholds hstaged
        obtain ⟨t', d', ht', hlands, -, hd', hsized', -, hstaged'⟩ :=
          computeStep_lands hd hsized hl hstaged hradius hout
        rw [ht] at ht'
        cases ht'
        rw [hlands.result, phase_of_path hd', DoglegPath.phase_of_staged hsized' hstaged', hout]
        exact ⟨(checkSize_self _ _).symm, rfl⟩
      · rw [computeStep_of_refused hd hradius
          (DoglegPath.step_of_size_ne hsized hstaged radius hout)] at ht
        cases ht
        exact ⟨(if_neg (Ne.symm hout)).symm, (phase_of_path hd).trans hphase⟩

theorem computeStep_phase (h : Tracks settings calls s) {out : Vec α}
    {t : Turn α (DoglegStepper α × Vec α) (StepError α) Regime}
    (ht : s.computeStep radius out = some t) :
    (t.result.map fun _ => ()) = s.phase.request radius out.size ∧ t.state.1.phase = s.phase := by
  cases hradius : checkRadius radius with
  | error e =>
      unfold computeStep computeStepBy at ht
      unfold Phase.request
      rw [hradius] at ht ⊢
      cases ht
      exact ⟨rfl, rfl⟩
  | ok u =>
      cases hd : s.path with
      | none =>
          unfold computeStep computeStepBy at ht
          unfold Phase.request
          rw [hradius, hd] at ht
          cases ht
          rw [hradius, phase_of_no_path hd]
          exact ⟨rfl, phase_of_no_path hd⟩
      | some d =>
          rw [phase_of_path hd]
          exact computeStep_phase_of_path h hd hradius ht

/-- Every call ends as the protocol says. -/
theorem follows (h : Tracks settings calls s) : Follows (protocol settings) phase s where
  init ht := by
    cases ht
    exact init_phase h _ _
  setInputs ht := setInputs_phase h ht
  computeStep ht := computeStep_phase h ht

/-- A run has the log of the protocol, and comes to its phase. -/
theorem run_follows {answers : List (Stepper.Answered α (DoglegStepper α))}
    (hrun : Stepper.run (fresh settings) calls = some (s, answers)) :
    s.phase = (protocol settings).phase calls ∧
      Stepper.log calls answers = (protocol settings).log calls :=
  Follows.run carried_tracks (fun _ _ => follows) (tracks_fresh settings) hrun

/-- The solver is prepared for the size last asked for, if that was accepted. -/
theorem phase_of_run {answers : List (Stepper.Answered α (DoglegStepper α))}
    (hrun : Stepper.run (fresh settings) calls = some (s, answers)) :
    s.phase = .of (lastPreparation (log calls answers)).join (problemAtHand (log calls answers)) := by
  obtain ⟨hphase, hlog⟩ := run_follows hrun
  rw [hphase, hlog]
  exact Protocol.phase_of_dropped calls fun _ => rfl

theorem state_of_refused_problem (h : Tracks settings calls s)
    {t : Turn α (DoglegStepper α) (StepError α) Unit} {e : StepError α}
    (ht : s.setInputs l = some t) (he : t.result = .error e) :
    t.state = { s with path := s.path.map DoglegPath.unstaged } := by
  cases hd : s.path with
  | none =>
      rw [setInputs_of_no_path hd] at ht
      cases ht
      rw [Turn.refuse, Option.map_none, ← hd]
  | some d =>
      obtain ⟨-, n, m, -, hsized, -⟩ := h.path d hd
      cases hcheck : l.check n m with
      | error e' =>
          rw [setInputs_of_check_error hd hsized hcheck] at ht
          cases ht
          rfl
      | ok u =>
          obtain ⟨hresult, -⟩ := setInputs_phase h ht
          rw [phase_of_path hd, Phase.receive_of_size? (DoglegPath.size?_phase hsized), hcheck]
            at hresult
          rw [hresult] at he
          cases he

theorem state_of_refused_step (h : Tracks settings calls s) {out : Vec α}
    {t : Turn α (DoglegStepper α × Vec α) (StepError α) Regime} {e : StepError α}
    (ht : s.computeStep radius out = some t) (he : t.result = .error e) : t.state = (s, out) := by
  obtain ⟨t', ht', -, hcases⟩ := computeStep_cases h radius out
  rw [ht] at ht'
  cases ht'
  rcases hcases with ⟨e', -, hstate⟩ | ⟨n, m, l, -, -, -, -, -, -, -, -, hlands⟩
  · exact hstate
  · rw [hlands.result] at he
    cases he

/-- A step that succeeds is the one for the problem at hand. -/
theorem lands_of_problemAtHand {answers : List (Stepper.Answered α (DoglegStepper α))} {out : Vec α}
    {t : Turn α (DoglegStepper α × Vec α) (StepError α) Regime} {regime : Regime}
    (hrun : Stepper.run (fresh settings) calls = some (s, answers))
    (ht : s.computeStep radius out = some t) (hok : t.result = .ok regime) :
    ∃ n m l, problemAtHand (log calls answers) = some l ∧ l.check n m = .ok () ∧
      Lands settings n m l radius t := by
  obtain ⟨n, m, l, -, -, -, hinputs, hl, -, -, -, hlands⟩ := lands_of_ok hrun ht hok
  have hrequest := (computeStep_phase (carried_tracks.of_run (tracks_fresh settings) hrun) ht).1
  rw [hok, phase_of_run hrun] at hrequest
  obtain ⟨l', hl'⟩ := Phase.exists_problem_of_request hrequest.symm
  have hlast : Stepper.lastInputs calls = some l' := by
    rw [(run_follows hrun).2] at hl'
    exact Protocol.lastInputs_of_problemAtHand calls hl'
  rw [hinputs] at hlast
  cases hlast
  exact ⟨n, m, l, hl', hl, hlands⟩

end DoglegStepper

/-! ## Both -/

namespace Stepper

variable {σ : Type} [Scalar α] [Stepper α σ]

/-- Are problems and requests for a step refused exactly where they have to be, by a solver for the
given size with the given problem?  A problem that is refused leaves the state `spoiled`, and a request
for a step that is refused leaves the state and the vector as they are. -/
structure RefusesExactly (size? : Option (Nat × Nat)) (problem? : Option (Linearization α))
    (s spoiled : σ) : Prop where
  problem (l : Linearization α) : ∃ t, setInputs s l = some t ∧
    ∀ e, (t.result = .error e ↔ RefusesInputs size? l e) ∧ (t.result = .error e → t.state = spoiled)
  step (radius : α) (out : Vec α) : ∃ t, computeStep s radius out = some t ∧
    ∀ e, (t.result = .error e ↔ RefusesStep size? problem? radius out.size e) ∧
      (t.result = .error e → t.state = (s, out))

/-- What follows a protocol refuses exactly what the phase demands. -/
theorem Follows.refusesExactly {k : Protocol α} {phase : σ → Phase} {s spoiled : σ}
    {size? : Option (Nat × Nat)} {problem? : Option (Linearization α)}
    {P : List (Call α) → σ → Prop} (hf : Follows k phase s) (hP : Carried P) (hs : P calls s)
    (hphase : phase s = .of size? problem?)
    (hproblem : ∀ {l t e}, Stepper.setInputs s l = some t → t.result = .error e → t.state = spoiled)
    (hstep : ∀ {radius out t e}, Stepper.computeStep s radius out = some t →
      t.result = .error e → t.state = (s, out)) :
    RefusesExactly size? problem? s spoiled where
  problem l := by
    obtain ⟨t, ht, -⟩ := hP.setInputs hs l
    refine ⟨t, ht, fun e => ⟨?_, hproblem ht⟩⟩
    rw [(hf.setInputs ht).1, hphase]
    exact Phase.receive_eq_error_iff
  step radius out := by
    obtain ⟨t, ht, -⟩ := hP.computeStep hs radius out
    refine ⟨t, ht, fun e => ⟨?_, hstep ht⟩⟩
    rw [← Phase.request_eq_error_iff, ← hphase, ← (hf.computeStep ht).1]
    cases t.result <;> simp [Except.map]

/-- **Refusals are exact.**  After any calls, each of the two step solvers refuses a problem, or a
request for a step, exactly for the reasons listed, whatever the entries of the matrices and vectors
are.  A refused request changes nothing.  A refused problem takes away the one at hand: no step is done
before another problem is accepted, but the model and the report on the last step remain. -/
theorem refusals_exact (calls : List (Call α)) :
    (∃ s answers, run (CauchyStepper.fresh : CauchyStepper α) calls = some (s, answers) ∧
      RefusesExactly (lastPrepared (log calls answers)) (problemAtHand (log calls answers))
        s { s with point := none }) ∧
    ∀ settings : Settings α, ∃ s answers,
      run (DoglegStepper.fresh settings) calls = some (s, answers) ∧
      RefusesExactly (lastPreparation (log calls answers)).join (problemAtHand (log calls answers))
        s { s with path := s.path.map DoglegPath.unstaged } := by
  constructor
  · obtain ⟨s, answers, hrun, htracks⟩ := CauchyStepper.exists_run calls
    exact ⟨s, answers, hrun, (CauchyStepper.follows htracks).refusesExactly
      CauchyStepper.carried_tracks htracks (CauchyStepper.phase_of_run hrun)
      (CauchyStepper.state_of_refused_problem htracks)
      (CauchyStepper.state_of_refused_step htracks)⟩
  · intro settings
    obtain ⟨s, answers, hrun, htracks⟩ := DoglegStepper.exists_run settings calls
    exact ⟨s, answers, hrun, (DoglegStepper.follows htracks).refusesExactly
      DoglegStepper.carried_tracks htracks (DoglegStepper.phase_of_run hrun)
      (DoglegStepper.state_of_refused_problem htracks)
      (DoglegStepper.state_of_refused_step htracks)⟩

end Stepper

end TrustRegion
