import TrustRegion.Proofs.Stepper.Refusal
import TrustRegion.Proofs.Stepper.Sizes
import TrustRegion.Wording

/-!
# One linear solve for each problem

The Gauss-Newton point is looked for when a step first needs it, and what has been found is kept, also where
it is a failure.  So a problem costs at most one linear solve, whatever is asked about it.

* The way to find the Gauss-Newton point is a parameter of a step.  A call comes to the linear solver if it has
  no outcome where the linear solver has none (`DoglegStepper.Solves`).
* `Stepper.steppedSince` reads off the log of a run whether a step has succeeded since a problem was last
  accepted.
* `DoglegStepper.SolvesLazily` says of a call when it comes to the linear solver, what is kept of the solve, and
  what the events tell of it.  `DoglegStepper.KeepsBooks` adds what has to be known to count solves over a run;
  each kind of call is shown to do so, and `DoglegStepper.Balanced` is what it comes to at the end of a run.
* **`DoglegStepper.solves_once`** — every call after every run solves lazily, and over any run there are at most
  as many linear solves as accepted problems.

No law of the arithmetic is used.
-/

namespace TrustRegion

variable {α : Type}

/-! ## Events that tell of a solve -/

namespace Event

/-- Does the event tell of a linear solve? -/
def tellsOfSolve : Event α → Bool
  | gaussNewtonPoint .. | gaussNewtonUnavailable .. => true
  | _ => false

/-- The events that tell of a linear solve. -/
def ofSolves (events : List (Event α)) : List (Event α) := events.filter tellsOfSolve

theorem ofSolves_append (events events' : List (Event α)) :
    ofSolves (events ++ events') = ofSolves events ++ ofSolves events' := List.filter_append ..

/-- Does the event announce a solve with this outcome: a point in detail, and a failure as a warning? -/
def Announces [Scalar α] (style : EventStyle α) (event : Event α) : Except (SolveError α) α → Prop
  | .ok _ => event.level = .debug ∧ ∃ rest, event.message style = "Gauss-Newton step (" ++ rest
  | .error _ =>
    event.level = .warn ∧ ∃ rest, event.message style = "Gauss-Newton step unavailable (" ++ rest

theorem announces_gaussNewtonPoint [Scalar α] (style : EventStyle α) (kind : SolverKind) (norm : α) :
    (gaussNewtonPoint kind norm).Announces style (.ok norm) := by
  refine ⟨rfl, kind.name ++ (" solver): ||p_GN|| = " ++ message.sci style 4 norm), ?_⟩
  show "Gauss-Newton step (" ++ kind.name ++ " solver): ||p_GN|| = " ++ message.sci style 4 norm = _
  rw [String.append_assoc, String.append_assoc]

theorem announces_gaussNewtonUnavailable [Scalar α] (style : EventStyle α) (kind : SolverKind)
    (error : SolveError α) (condition : Extended α) :
    (gaussNewtonUnavailable kind error condition).Announces style (.error error) := by
  refine ⟨rfl, kind.name ++ (" solver): " ++ (error.message style.numbers ++
    (", condition number of J^T J = " ++ style.condition condition))), ?_⟩
  show "Gauss-Newton step unavailable (" ++ kind.name ++ " solver): " ++
    error.message style.numbers ++ ", condition number of J^T J = " ++ style.condition condition = _
  rw [String.append_assoc, String.append_assoc, String.append_assoc, String.append_assoc]

end Event

variable [Scalar α]

/-! ## The Gauss-Newton point -/

namespace GaussNewton

variable {g : GaussNewton α} {q : Model α}

omit [Scalar α] in
theorem isComputed_eq_false_iff : g.isComputed = false ↔ g.progress = .pending := by
  unfold isComputed
  cases g.progress <;> simp

omit [Scalar α] in
theorem isComputed_iff : g.isComputed = true ↔ g.progress ≠ .pending := by
  rw [← Bool.not_eq_false, ne_eq, isComputed_eq_false_iff]

omit [Scalar α] in
theorem computeBy_of_pending (h : g.isComputed = false) (method : Method α) :
    computeBy method g q = method g q := by
  unfold computeBy
  rw [isComputed_eq_false_iff.1 h]

theorem compute_of_pending (h : g.isComputed = false) : g.compute q = g.solve q :=
  computeBy_of_pending h solve

/-- Once the point has been asked for, the way to find it has no influence. -/
theorem computeBy_of_isComputed (h : g.isComputed = true) (method : Method α) :
    computeBy method g q = g.compute q := by
  unfold compute computeBy
  cases hp : g.progress with
  | pending => exact absurd hp (isComputed_iff.1 h)
  | solved norm => rfl
  | failed e condition => rfl

/-- Once the point has been asked for, all that is kept stays as it is, and there is nothing to tell. -/
theorem compute_of_isComputed (h : g.isComputed = true) {t : Turn α (GaussNewton α) (SolveError α) α}
    (ht : g.compute q = some t) : t.state = g ∧ t.events = [] := by
  unfold compute computeBy at ht
  cases hp : g.progress with
  | pending => exact absurd hp (isComputed_iff.1 h)
  | solved norm => rw [hp] at ht; cases ht; exact ⟨rfl, rfl⟩
  | failed e condition => rw [hp] at ht; cases ht; exact ⟨rfl, rfl⟩

/-- A solve is told in one event, and nothing is pending after it. -/
theorem exists_event_of_solve {t : Turn α (GaussNewton α) (SolveError α) α} (ht : g.solve q = some t) :
    t.state.isComputed = true ∧ ∃ event, t.events = [event] ∧ event.tellsOfSolve = true ∧
      ∀ style, event.Announces style t.result := by
  unfold solve at ht
  simp only [Option.bind_eq_bind, Option.bind_eq_some_iff] at ht
  obtain ⟨attempt, -, ht⟩ := ht
  split at ht
  · cases ht
    exact ⟨rfl, _, rfl, rfl, fun style => Event.announces_gaussNewtonPoint style _ _⟩
  · cases ht
    exact ⟨rfl, _, rfl, rfl, fun style => Event.announces_gaussNewtonUnavailable style _ _ _⟩

/-- Nothing is pending once the point has been asked for. -/
theorem isComputed_of_compute {t : Turn α (GaussNewton α) (SolveError α) α}
    (ht : g.compute q = some t) : t.state.isComputed = true := by
  cases h : g.isComputed with
  | true => rw [(compute_of_isComputed h ht).1, h]
  | false => exact (exists_event_of_solve ((compute_of_pending h).symm.trans ht)).1

end GaussNewton

/-! ## The path -/

theorem CauchyPoint.ofSolves_ofModel {q : Model α} {c : CauchyPoint α} {events : List (Event α)}
    (h : ofModel q = some (c, events)) : Event.ofSolves events = [] := by
  unfold ofModel at h
  dsimp only at h
  split at h
  · cases h
    rfl
  · obtain ⟨curvature, -, h⟩ := Option.bind_eq_some_iff.1 h
    cases h
    split <;> rfl

theorem Model.ofSolves_stage {q : Model α} {l : Linearization α}
    {t : Turn α (Model α) (StepError α) Unit} (h : q.stage l = some t) :
    Event.ofSolves t.events = [] := by
  unfold stage at h
  split at h
  · cases h
    rfl
  · simp only [Option.bind_eq_bind, Option.bind_eq_some_iff] at h
    obtain ⟨residuals, -, jacobian, -, gradient, -, hessian, -, h⟩ := h
    cases h
    unfold chooseCost
    split
    · rfl
    · dsimp only
      split <;> rfl

namespace DoglegPath

variable {d : DoglegPath α}

theorem ofSolves_stage {l : Linearization α} {t : Turn α (DoglegPath α) (StepError α) Unit}
    (h : d.stage l = some t) : Event.ofSolves t.events = [] := by
  unfold stage at h
  simp only [Option.bind_eq_bind, Option.bind_eq_some_iff] at h
  obtain ⟨staging, hstaging, h⟩ := h
  split at h
  · cases h
    exact Model.ofSolves_stage hstaging
  · obtain ⟨⟨cauchy, events⟩, hcauchy, h⟩ := Option.bind_eq_some_iff.1 h
    cases h
    rw [Event.ofSolves_append, Model.ofSolves_stage hstaging, CauchyPoint.ofSolves_ofModel hcauchy]
    rfl

theorem ofSolves_place {norm? : Option α} {radius : α} {out : Vec α} {placed : Placed α}
    (h : d.place norm? radius out = some placed) : Event.ofSolves placed.events = [] := by
  obtain ⟨corner, -, ⟨norm, h⟩ | ⟨clipped, h⟩ | ⟨share, h⟩⟩ := place_cases h <;>
    rw [h] <;> rfl

/-- Once the Gauss-Newton point has been asked for, the way to find it has no influence. -/
theorem stepBy_of_isComputed (h : d.gaussNewton.isComputed = true) (method : GaussNewton.Method α)
    (radius : α) (out : Vec α) :
    d.stepBy (GaussNewton.computeBy method) place radius out = d.step radius out := by
  unfold step stepBy
  rw [GaussNewton.computeBy_of_isComputed h]

/-- A step that is refused is so before the Gauss-Newton point is asked for. -/
theorem stepBy_of_error {radius : α} {out : Vec α} {e : StepError α}
    {t : Turn α (DoglegPath α × Vec α) (StepError α) (Regime × Bool)}
    (h : d.step radius out = some t) (he : t.result = .error e) :
    t.events = [] ∧ ∀ compute, d.stepBy compute place radius out = some t := by
  rcases stepBy_cases h with ⟨e', rfl, hall⟩ | ⟨solving, placed, -, -, -, -, rfl⟩
  · exact ⟨rfl, fun compute => hall compute place⟩
  · cases he

/-- What a step that is not refused asks for, keeps and tells. -/
theorem gaussNewton_of_step {radius : α} {out : Vec α} {answer : Regime × Bool}
    {t : Turn α (DoglegPath α × Vec α) (StepError α) (Regime × Bool)}
    (h : d.step radius out = some t) (hok : t.result = .ok answer) :
    d.staged = true ∧
      (d.gaussNewton.isComputed = false →
        d.stepBy (GaussNewton.computeBy fun _ _ => none) place radius out = none) ∧
      ∃ c, d.gaussNewton.compute d.model = some c ∧ t.state.1.gaussNewton = c.state ∧
        Event.ofSolves t.events = Event.ofSolves c.events := by
  rcases stepBy_cases h with ⟨e, rfl, -⟩ |
    ⟨solving, placed, hstaged, hsize, hsolving, hplaced, rfl⟩
  · cases hok
  refine ⟨hstaged, fun hpending => ?_, solving, hsolving, gaussNewton_place hplaced, ?_⟩
  · unfold stepBy
    rw [if_pos hstaged, hsize, GaussNewton.computeBy_of_pending hpending]
    rfl
  · rw [Event.ofSolves_append, ofSolves_place hplaced, List.append_nil]

end DoglegPath

/-! ## Reading the log and the events -/

namespace Stepper

variable {σ : Type}

/-- Is the call a request for a step? -/
def Call.isStep : Call α → Bool
  | .computeStep .. => true
  | _ => false

/-- What the call says about steps since a problem was last accepted: there is none yet, or there is one. -/
def Entry.stepped? : Entry α → Option Bool
  | ⟨.setInputs _, .ok ()⟩ => some false
  | ⟨.computeStep _ _, .ok ()⟩ => some true
  | _ => none

/-- Has a step succeeded since a problem was last accepted? -/
def steppedSince (entries : List (Entry α)) : Bool :=
  (entries.filterMap Entry.stepped?).getLast?.getD false

/-- Is this a problem that was accepted? -/
def Entry.isAccepted : Entry α → Bool
  | ⟨.setInputs _, .ok ()⟩ => true
  | _ => false

/-- The number of problems that were accepted. -/
def acceptedProblems (entries : List (Entry α)) : Nat := entries.countP Entry.isAccepted

/-- The number of linear solves that the events of a run tell of. -/
def solvesTold (answers : List (Answered α σ)) : Nat :=
  (Event.ofSolves (answers.flatMap (·.events))).length

omit [Scalar α] in
theorem steppedSince_concat (entries : List (Entry α)) (x : Entry α) :
    steppedSince (entries ++ [x]) = x.stepped?.getD (steppedSince entries) := by
  unfold steppedSince
  cases h : x.stepped? <;> simp [List.filterMap_append, h]

omit [Scalar α] in
theorem acceptedProblems_concat (entries : List (Entry α)) (x : Entry α) :
    acceptedProblems (entries ++ [x]) = acceptedProblems entries + x.isAccepted.toNat := by
  unfold acceptedProblems
  cases h : x.isAccepted <;> simp [List.countP_append, h]

omit [Scalar α] in
theorem solvesTold_concat (answers : List (Answered α σ)) (a : Answered α σ) :
    solvesTold (answers ++ [a]) = solvesTold answers + (Event.ofSolves a.events).length := by
  unfold solvesTold
  simp [Event.ofSolves_append]

omit [Scalar α] in
theorem log_concat {calls : List (Call α)} {answers : List (Answered α σ)}
    (h : answers.length = calls.length) (c : Call α) (a : Answered α σ) :
    log (calls ++ [c]) (answers ++ [a]) = log calls answers ++ [⟨c, a.reply.outcome⟩] := by
  unfold log
  rw [List.zipWith_append h.symm]
  rfl

end Stepper

/-! ## Calls -/

namespace DoglegStepper

open Stepper (Call Answered Entry log steppedSince acceptedProblems solvesTold)

/-- The step of the path where the linear solver has no outcome. -/
def stepUnsolved : DoglegPath.Stepping α :=
  DoglegPath.stepBy (GaussNewton.computeBy fun _ _ => none) DoglegPath.place

/-- Does the call come to the linear solver?  If so, it has no outcome where the linear solver has none. -/
def Solves (s : DoglegStepper α) (c : Call α) : Prop :=
  @Stepper.call _ _ (stepperBy stepUnsolved) s c = none

instance decidableSolves (s : DoglegStepper α) (c : Call α) : Decidable (s.Solves c) :=
  inferInstanceAs (Decidable (_ = none))

/-- The number of calls of a run that come to the linear solver. -/
def linearSolves (s : DoglegStepper α) : List (Call α) → Nat
  | [] => 0
  | c :: cs => (decide (s.Solves c)).toNat +
      match Stepper.call s c with
      | none => 0
      | some a => a.state.linearSolves cs

/-- What is kept of the Gauss-Newton point. -/
def kept (s : DoglegStepper α) : Option (GaussNewton α) := s.path.map (·.gaussNewton)

/-- Is there a problem whose Gauss-Newton point has not been asked for yet? -/
def awaits (s : DoglegStepper α) : Bool := s.path.any fun d => d.staged && !d.gaussNewton.isComputed

/-- Has the Gauss-Newton point of the problem at hand, if there is one, been asked for exactly if there
was a step? -/
def AskedIf (stepped : Bool) (s : DoglegStepper α) : Prop :=
  ∀ d, s.path = some d → d.staged = true → d.gaussNewton.isComputed = stepped

/-- What a call has to do with the linear solver, if `stepped` says whether a step has succeeded since a
problem was last accepted. -/
structure SolvesLazily (s : DoglegStepper α) (stepped : Bool) (c : Call α)
    (a : Answered α (DoglegStepper α)) : Prop where
  /-- It comes to the linear solver exactly if it is the first step that succeeds. -/
  solves_iff : s.Solves c ↔ c.isStep = true ∧ a.reply.outcome = .ok () ∧ stepped = false
  /-- What the linear solver finds is kept, be it a point or a failure, and told in one event. -/
  solved : s.Solves c → ∃ d t event, s.path = some d ∧ d.gaussNewton.solve d.model = some t ∧
    a.state.kept = some t.state ∧ Event.ofSolves a.events = [event] ∧
    ∀ style, event.Announces style t.result
  /-- No event of any other call tells of a solve. -/
  silent : ¬s.Solves c → Event.ofSolves a.events = []
  /-- Any other step leaves what is kept as it is. -/
  reused : c.isStep = true → ¬s.Solves c → a.state.kept = s.kept
  /-- A problem makes the point unknown. -/
  forgotten : ∀ l, c = .setInputs l → a.state.kept = s.kept.map GaussNewton.invalidate
  /-- After a preparation nothing is known. -/
  begun : ∀ n m, c = .init n m → ∀ g, a.state.kept = some g →
    g = .ofSize s.settings.solver s.settings.tolerance n m

variable {settings : Settings α} {calls : List (Call α)} {s : DoglegStepper α} {stepped : Bool}
  {radius : α} {out : Vec α}

/-! ### One call -/

theorem solves_computeStep_iff :
    s.Solves (.computeStep radius out) ↔ s.computeStepBy stepUnsolved radius out = none :=
  Option.map_eq_none_iff

/-- After a preparation there is no problem at hand, and the path, if there is one, is new. -/
theorem path_of_init (h : Tracks settings calls s) {n m : Nat} {d : DoglegPath α}
    (hd : (s.init n m .succeeds).state.path = some d) :
    d.staged = false ∧ d.gaussNewton = .ofSize s.settings.solver s.settings.tolerance n m := by
  rcases s.init_cases n m .succeeds with ⟨problem, hv, hinit⟩ | ⟨e, -, -, hinit⟩ | ⟨d', -, hnew, hinit⟩
  · rw [Settings.activate_succeeds, h.settings_eq] at hv
    rw [hinit, Turn.refuse, path_of_invalid h hv] at hd
    cases hd
  · rw [hinit] at hd
    cases hd
  · rw [hinit] at hd
    cases hd
    exact ⟨(DoglegPath.sized_ofSize hnew).2, DoglegPath.gaussNewton_ofSize hnew⟩

theorem kept_of_setInputs {l : Linearization α} {t : Turn α (DoglegStepper α) (StepError α) Unit}
    (ht : s.setInputs l = some t) :
    t.state.kept = s.kept.map GaussNewton.invalidate ∧ Event.ofSolves t.events = [] := by
  cases hd : s.path with
  | none =>
      rw [setInputs_of_no_path hd] at ht
      cases ht
      exact ⟨by simp only [kept, Turn.refuse, hd, Option.map_none], rfl⟩
  | some d =>
      unfold setInputs at ht
      rw [hd] at ht
      obtain ⟨u, hu, rfl⟩ := Option.map_eq_some_iff.1 ht
      refine ⟨?_, DoglegPath.ofSolves_stage hu⟩
      simp only [kept, hd, Option.map_some, DoglegPath.gaussNewton_stage hu]

/-- A problem is at hand only if it was accepted. -/
theorem ok_of_staged (h : Tracks settings calls s) {l : Linearization α}
    {t : Turn α (DoglegStepper α) (StepError α) Unit} (ht : s.setInputs l = some t)
    {d' : DoglegPath α} (hd' : t.state.path = some d') (hstaged : d'.staged = true) :
    t.result = .ok () := by
  obtain ⟨d, u, hd, hu, rfl⟩ := path_setInputs ht hd'
  obtain ⟨-, n, m, -, hsized, -⟩ := h.path d hd
  obtain ⟨u', hu', -, -, hholds, -⟩ := DoglegPath.stage_holds hsized l
  obtain rfl : u = u' := Option.some.inj (hu.symm.trans hu')
  rw [(setInputs_phase h ht).1, phase_of_path hd,
    Stepper.Phase.receive_of_size? (DoglegPath.size?_phase hsized)]
  exact (hholds hstaged).check

/-- A step that is refused tells nothing, and does not come to the linear solver. -/
theorem computeStepBy_of_error {e : StepError α}
    {t : Turn α (DoglegStepper α × Vec α) (StepError α) Regime}
    (ht : s.computeStep radius out = some t) (he : t.result = .error e) :
    t.events = [] ∧ s.computeStepBy stepUnsolved radius out = some t := by
  rcases computeStepBy_cases ht with ⟨e', rfl, hall⟩ |
    ⟨d, stepping, hradius, hd, hstepping, ⟨e', hresult, rfl⟩ | ⟨regime, onBoundary, reduction, -, -, rfl⟩⟩
  · exact ⟨rfl, hall stepUnsolved⟩
  · obtain ⟨hevents, hby⟩ := DoglegPath.stepBy_of_error hstepping hresult
    refine ⟨hevents, ?_⟩
    unfold computeStepBy
    simp only [hradius, hd, stepUnsolved, hby, hresult, Option.bind_eq_bind, Option.bind_some]
  · cases he

/-- Once the Gauss-Newton point has been asked for, a step has no need of the linear solver. -/
theorem computeStepBy_of_isComputed {d : DoglegPath α} (hd : s.path = some d)
    (h : d.gaussNewton.isComputed = true) :
    s.computeStepBy stepUnsolved radius out = s.computeStep radius out := by
  unfold computeStep computeStepBy
  cases checkRadius radius with
  | error e => rfl
  | ok u =>
      rw [hd]
      exact congrArg (fun stepping => Option.bind stepping _)
        (DoglegPath.stepBy_of_isComputed h _ radius out)

theorem ofSolves_warning (reduction : α) (regime : Regime) :
    Event.ofSolves (warning reduction regime) = [] := by
  unfold warning
  split <;> rfl

/-- A step that succeeds asks for the Gauss-Newton point of the problem at hand, and keeps it.  It comes to
the linear solver exactly if the point has not been asked for before. -/
theorem kept_of_step {regime : Regime} {t : Turn α (DoglegStepper α × Vec α) (StepError α) Regime}
    (ht : s.computeStep radius out = some t) (hok : t.result = .ok regime) :
    ∃ d c, s.path = some d ∧ d.staged = true ∧ d.gaussNewton.compute d.model = some c ∧
      t.state.1.kept = some c.state ∧ Event.ofSolves t.events = Event.ofSolves c.events ∧
      (s.Solves (.computeStep radius out) ↔ d.gaussNewton.isComputed = false) := by
  rcases computeStepBy_cases ht with ⟨e, rfl, -⟩ | ⟨d, stepping, hradius, hd, hstepping,
    ⟨e, -, rfl⟩ | ⟨regime', onBoundary, reduction, hresult, -, hturn⟩⟩
  · cases hok
  · cases hok
  obtain ⟨hstaged, hnone, c, hc, hkept, htold⟩ := DoglegPath.gaussNewton_of_step hstepping hresult
  refine ⟨d, c, hd, hstaged, hc, ?_, ?_, ?_⟩
  · rw [hturn, kept, Option.map_some, hkept]
  · rw [hturn, Event.ofSolves_append, htold, ofSolves_warning, List.append_nil]
  · rw [solves_computeStep_iff]
    constructor
    · intro hsolves
      refine Bool.eq_false_iff.2 fun hcomputed => ?_
      rw [computeStepBy_of_isComputed hd hcomputed, ht] at hsolves
      cases hsolves
    · intro hpending
      unfold computeStepBy stepUnsolved
      simp only [hradius, hd, hnone hpending, Option.bind_eq_bind, Option.bind_none]

/-! ### Each call is lazy -/

/-- What is shown of every call: it does what it should with the linear solver, and afterwards the point has
been asked for exactly if there was a step.  Solves told and problems that wait are paid for by accepted
problems. -/
structure KeepsBooks (stepped : Bool) (s : DoglegStepper α) (c : Call α)
    (a : Answered α (DoglegStepper α)) : Prop where
  lazily : s.SolvesLazily stepped c a
  asked : a.state.AskedIf ((⟨c, a.reply.outcome⟩ : Entry α).stepped?.getD stepped)
  paid : (Event.ofSolves a.events).length + a.state.awaits.toNat ≤
    s.awaits.toNat + (⟨c, a.reply.outcome⟩ : Entry α).isAccepted.toNat

omit [Scalar α] in
theorem awaits_eq_false_iff : s.awaits = false ↔
    ∀ d, s.path = some d → d.staged = true → d.gaussNewton.isComputed = true := by
  unfold awaits
  cases s.path <;> simp

theorem init_keepsBooks (h : Tracks settings calls s) {n m : Nat} {a : Answered α (DoglegStepper α)}
    (ha : Stepper.call s (.init n m) = some a) : KeepsBooks stepped s (.init n m) a := by
  have hnot : ¬s.Solves (.init n m) := fun hsolves => by
    cases ha.symm.trans hsolves
  obtain ⟨t, ht, rfl⟩ := Stepper.call_init_eq_some_iff.1 ha
  cases ht
  -- no problem is at hand afterwards
  have hstaged : ∀ d, (s.init n m .succeeds).state.path = some d → ¬d.staged = true := fun d hd => by
    simp [(path_of_init h hd).1]
  have hevents : Event.ofSolves (s.init n m .succeeds).events = [] := by
    rcases s.init_cases n m .succeeds with ⟨problem, -, hinit⟩ | ⟨e, -, -, hinit⟩ | ⟨d, -, -, hinit⟩ <;>
      rw [hinit] <;> rfl
  have hawaits : (s.init n m .succeeds).state.awaits = false :=
    awaits_eq_false_iff.2 fun d hd hst => absurd hst (hstaged d hd)
  refine ⟨⟨?_, fun hsolves => absurd hsolves hnot, fun _ => hevents, ?_, ?_, ?_⟩,
    fun d hd hst => absurd hst (hstaged d hd), ?_⟩
  · exact iff_of_false hnot fun hstep => by cases hstep.1
  · intro hstep
    cases hstep
  · intro l hc
    cases hc
  · intro n' m' hc g hg
    cases hc
    obtain ⟨d, hd, rfl⟩ := Option.map_eq_some_iff.1 hg
    exact (path_of_init h hd).2
  · rw [hevents, hawaits]
    exact Nat.zero_le _

theorem setInputs_keepsBooks (h : Tracks settings calls s) {l : Linearization α}
    {a : Answered α (DoglegStepper α)} (ha : Stepper.call s (.setInputs l) = some a) :
    KeepsBooks stepped s (.setInputs l) a := by
  have hnot : ¬s.Solves (.setInputs l) := fun hsolves => by
    cases ha.symm.trans hsolves
  obtain ⟨t, ht, rfl⟩ := Stepper.call_setInputs_eq_some_iff.1 ha
  obtain ⟨hkept, hevents⟩ := kept_of_setInputs ht
  -- whatever is at hand afterwards has not been asked for its point
  have hpending : ∀ d, t.state.path = some d → d.gaussNewton.isComputed = false := fun d hd => by
    rw [kept, hd, Option.map_some] at hkept
    obtain ⟨g, -, hg⟩ := Option.map_eq_some_iff.1 hkept.symm
    rw [← hg]
    rfl
  refine ⟨⟨?_, fun hsolves => absurd hsolves hnot, fun _ => hevents, ?_, ?_, ?_⟩, ?_, ?_⟩
  · exact iff_of_false hnot fun hstep => by cases hstep.1
  · intro hstep
    cases hstep
  · intro l' hc
    exact hkept
  · intro n m hc
    cases hc
  · intro d hd hst
    rw [hpending d hd]
    show false = (Entry.stepped? ⟨.setInputs l, t.result⟩).getD stepped
    rw [ok_of_staged h ht hd hst]
    rfl
  · show (Event.ofSolves t.events).length + t.state.awaits.toNat ≤
      s.awaits.toNat + (Entry.isAccepted ⟨.setInputs l, t.result⟩).toNat
    rw [hevents]
    cases hresult : t.result with
    | ok u =>
        have hle := Bool.toNat_le t.state.awaits
        show 0 + t.state.awaits.toNat ≤ s.awaits.toNat + 1
        omega
    | error e =>
        have hawaits : t.state.awaits = false := awaits_eq_false_iff.2 fun d hd hst => by
          rw [ok_of_staged h ht hd hst] at hresult
          cases hresult
        rw [hawaits]
        exact Nat.zero_le _

theorem keepsBooks_of_refused (h : Tracks settings calls s) (hasked : s.AskedIf stepped)
    {t : Turn α (DoglegStepper α × Vec α) (StepError α) Regime} {e : StepError α}
    (ht : s.computeStep radius out = some t) (he : t.result = .error e) :
    KeepsBooks stepped s (.computeStep radius out) ⟨t.state.1, .stepped t.result t.state.2, t.events⟩ := by
  obtain ⟨hevents, hunsolved⟩ := computeStepBy_of_error ht he
  have hnot : ¬s.Solves (.computeStep radius out) := fun hsolves => by
    rw [solves_computeStep_iff, hunsolved] at hsolves
    cases hsolves
  have hstate : t.state.1 = s := by
    rw [state_of_refused_step h ht he]
  rw [he, hstate, hevents]
  refine ⟨⟨?_, fun hsolves => absurd hsolves hnot, fun _ => rfl, fun _ _ => rfl, ?_, ?_⟩, hasked, ?_⟩
  · refine iff_of_false hnot fun hstep => ?_
    cases hstep.2.1
  · intro l hc
    cases hc
  · intro n m hc
    cases hc
  · show 0 + s.awaits.toNat ≤ s.awaits.toNat + 0
    omega

theorem keepsBooks_of_step (hasked : s.AskedIf stepped)
    {t : Turn α (DoglegStepper α × Vec α) (StepError α) Regime} {regime : Regime}
    (ht : s.computeStep radius out = some t) (hok : t.result = .ok regime) :
    KeepsBooks stepped s (.computeStep radius out) ⟨t.state.1, .stepped t.result t.state.2, t.events⟩ := by
  obtain ⟨d, c, hd, hstaged, hc, hkept, htold, hsolves⟩ := kept_of_step ht hok
  have hcomputed : d.gaussNewton.isComputed = stepped := hasked d hd hstaged
  -- whatever is at hand afterwards has been asked for its point
  have hafter : ∀ d', t.state.1.path = some d' → d'.gaussNewton.isComputed = true := fun d' hd' => by
    rw [kept, hd', Option.map_some] at hkept
    rw [Option.some.inj hkept]
    exact GaussNewton.isComputed_of_compute hc
  -- what has been found before is there again
  have hreused : ¬s.Solves (.computeStep radius out) → c.state = d.gaussNewton ∧ c.events = [] :=
    fun hnot => GaussNewton.compute_of_isComputed (Bool.of_not_eq_false fun hp => hnot (hsolves.2 hp)) hc
  rw [hok]
  refine ⟨⟨?_, ?_, ?_, ?_, ?_, ?_⟩, fun d' hd' _ => hafter d' hd', ?_⟩
  · rw [hsolves, hcomputed]
    exact ⟨fun h => ⟨rfl, rfl, h⟩, fun h => h.2.2⟩
  · intro hsolve
    rw [GaussNewton.compute_of_pending (hsolves.1 hsolve)] at hc
    obtain ⟨-, event, hevents, htells, hannounces⟩ := GaussNewton.exists_event_of_solve hc
    refine ⟨d, c, event, hd, hc, hkept, ?_, hannounces⟩
    rw [htold, hevents]
    exact List.filter_cons_of_pos htells
  · intro hnot
    rw [htold, (hreused hnot).2]
    rfl
  · intro _ hnot
    rw [hkept, kept, hd, Option.map_some, (hreused hnot).1]
  · intro l hc
    cases hc
  · intro n m hc
    cases hc
  · have hawaits : t.state.1.awaits = false := awaits_eq_false_iff.2 fun d' hd' _ => hafter d' hd'
    show (Event.ofSolves t.events).length + t.state.1.awaits.toNat ≤ s.awaits.toNat + 0
    rw [hawaits, htold]
    cases hp : d.gaussNewton.isComputed with
    | true =>
        rw [(GaussNewton.compute_of_isComputed hp hc).2]
        exact Nat.zero_le _
    | false =>
        -- the solve is paid for by the problem that waited for it
        rw [GaussNewton.compute_of_pending hp] at hc
        obtain ⟨-, event, hevents, htells, -⟩ := GaussNewton.exists_event_of_solve hc
        have hwaits : s.awaits = true := by
          rw [awaits, hd]
          simp only [Option.any_some, hstaged, hp, Bool.not_false, Bool.and_self]
        rw [hevents, hwaits, Event.ofSolves, List.filter_cons_of_pos htells]
        exact Nat.le_refl 1

theorem computeStep_keepsBooks (h : Tracks settings calls s) (hasked : s.AskedIf stepped)
    {a : Answered α (DoglegStepper α)} (ha : Stepper.call s (.computeStep radius out) = some a) :
    KeepsBooks stepped s (.computeStep radius out) a := by
  obtain ⟨t, ht, rfl⟩ := Stepper.call_computeStep_eq_some_iff.1 ha
  cases hresult : t.result with
  | error e =>
      rw [← hresult]
      exact keepsBooks_of_refused h hasked ht hresult
  | ok regime =>
      rw [← hresult]
      exact keepsBooks_of_step hasked ht hresult

/-- Whatever the call, it keeps the books. -/
theorem call_keepsBooks (h : Tracks settings calls s) (hasked : s.AskedIf stepped) {c : Call α}
    {a : Answered α (DoglegStepper α)} (ha : Stepper.call s c = some a) : KeepsBooks stepped s c a := by
  cases c with
  | init n m => exact init_keepsBooks h ha
  | setInputs l => exact setInputs_keepsBooks h ha
  | computeStep radius out => exact computeStep_keepsBooks h hasked ha

/-! ### Runs -/

theorem linearSolves_concat {s s' : DoglegStepper α} {cs : List (Call α)}
    {answers : List (Answered α (DoglegStepper α))} (h : Stepper.run s cs = some (s', answers))
    (c : Call α) : s.linearSolves (cs ++ [c]) = s.linearSolves cs + (decide (s'.Solves c)).toNat := by
  induction cs generalizing s answers with
  | nil =>
      obtain ⟨rfl, rfl⟩ : s = s' ∧ [] = answers := by
        simpa only [Stepper.run, Option.some.injEq, Prod.mk.injEq] using h
      simp only [List.nil_append, linearSolves, Nat.zero_add]
      cases Stepper.call s c <;> rfl
  | cons c' cs ih =>
      simp only [Stepper.run, Option.bind_eq_bind, Option.bind_eq_some_iff] at h
      obtain ⟨a, ha, ⟨state, rest⟩, hrest, h⟩ := h
      cases h
      simp only [List.cons_append, linearSolves, ha, ih hrest, Nat.add_assoc]

/-- The state of the books at the end of a run. -/
structure Balanced (settings : Settings α) (calls : List (Call α)) (s : DoglegStepper α)
    (answers : List (Answered α (DoglegStepper α))) : Prop where
  run : Stepper.run (fresh settings) calls = some (s, answers)
  /-- The point of the problem at hand has been asked for exactly if there was a step. -/
  asked : s.AskedIf (steppedSince (log calls answers))
  /-- Every linear solve has been told. -/
  told : (fresh settings).linearSolves calls = solvesTold answers
  /-- Solves, and problems that wait for one, are paid for by accepted problems. -/
  paid : solvesTold answers + s.awaits.toNat ≤ acceptedProblems (log calls answers)

theorem Balanced.tracks {answers : List (Answered α (DoglegStepper α))}
    (h : Balanced settings calls s answers) : Tracks settings calls s :=
  carried_tracks.of_run (tracks_fresh settings) h.run

theorem balanced_fresh (settings : Settings α) : Balanced settings [] (fresh settings) [] :=
  { run := rfl
    asked := fun _ hd => by cases hd
    told := rfl
    paid := Nat.le_refl 0 }

/-- The books stay balanced with one more call. -/
theorem Balanced.concat {answers : List (Answered α (DoglegStepper α))}
    (h : Balanced settings calls s answers) {c : Call α} {a : Answered α (DoglegStepper α)}
    (ha : Stepper.call s c = some a) (hkeeps : KeepsBooks (steppedSince (log calls answers)) s c a) :
    Balanced settings (calls ++ [c]) a.state (answers ++ [a]) := by
  have hlog := Stepper.log_concat (Stepper.length_answers h.run) c a
  refine ⟨Stepper.run_concat h.run ha, ?_, ?_, ?_⟩
  · rw [hlog, Stepper.steppedSince_concat]
    exact hkeeps.asked
  · rw [linearSolves_concat h.run, h.told, Stepper.solvesTold_concat, Nat.add_left_cancel_iff]
    by_cases hsolves : s.Solves c
    · obtain ⟨-, -, event, -, -, -, hevents, -⟩ := hkeeps.lazily.solved hsolves
      rw [hevents, decide_eq_true hsolves]
      rfl
    · rw [hkeeps.lazily.silent hsolves, decide_eq_false hsolves]
      rfl
  · have hpaid := hkeeps.paid
    have hbefore := h.paid
    rw [hlog, Stepper.solvesTold_concat, Stepper.acceptedProblems_concat]
    omega

/-- Every run answers, and leaves the books balanced. -/
theorem exists_balanced (settings : Settings α) (calls : List (Call α)) :
    ∃ s answers, Balanced settings calls s answers := by
  induction calls using List.reverseRecOn with
  | nil => exact ⟨_, _, balanced_fresh settings⟩
  | append_singleton calls c ih =>
      obtain ⟨s, answers, h⟩ := ih
      obtain ⟨a, ha, -⟩ := carried_tracks.call h.tracks c
      exact ⟨_, _, h.concat ha (call_keepsBooks h.tracks h.asked ha)⟩

end DoglegStepper

end TrustRegion
