import Mathlib.Data.List.Induction
import TrustRegion.Proofs.Stepper.History

/-!
# The order of calls

A step solver has to be prepared, then to be given a problem, and only then to be asked for steps.  A
caller that keeps a log of its calls and of their outcomes knows from the log alone which calls will be
refused, and with what error.

* `Stepper.log` — the calls of a run with their outcomes; `Stepper.lastPreparation`,
  `Stepper.lastPrepared` and `Stepper.problemAtHand` read off it what the next calls depend on.
* `Stepper.RefusesInputs`, `Stepper.RefusesStep` — when a problem, or a request for a step, is refused.
* `Stepper.Protocol` — a machine with three phases that says how each call ends.  Protocols differ in
  the sizes they accept and in what a refused preparation leaves.
* **`Stepper.Follows.run`** — a solver each of whose calls ends as the protocol says has the log of the
  protocol, and comes to its phase.
-/

namespace TrustRegion

/-! ## Sizes that disagree -/

/-- A size, with the value it should have and the one it has. -/
structure Sizing where
  what : Quantity
  expected : Nat
  found : Nat

/-- The sizes of a problem, in the order in which they are examined. -/
def Linearization.sizings {α : Type} (l : Linearization α) (n m : Nat) : List Sizing :=
  [⟨.parameters, n, l.point.size⟩, ⟨.residuals, m, l.residuals.size⟩,
    ⟨.jacobianRows, m, l.jacobian.rows⟩, ⟨.jacobianColumns, n, l.jacobian.cols⟩,
    ⟨.gradient, n, l.gradient.size⟩]

/-- Sizes examined in turn are refused with the first one that disagrees. -/
theorem checkSizes_eq_error_iff {α : Type} {sizings : List Sizing} {e : StepError α} :
    (forM sizings fun z => checkSize z.what z.expected z.found) = .error e ↔
      ∃ z, sizings.find? (fun z => z.expected != z.found) = some z ∧
        e = .dimension z.what z.expected z.found := by
  induction sizings with
  | nil => simp [pure, Except.pure]
  | cons z zs ih =>
      rw [List.forM_cons]
      by_cases h : z.expected = z.found
      · simpa [checkSize, h, bind, Except.bind] using ih
      · have hrefused : (checkSize z.what z.expected z.found : Except (StepError α) Unit) =
            .error (.dimension z.what z.expected z.found) := if_neg h
        rw [hrefused, List.find?_cons_of_pos (by simpa using h)]
        constructor
        · intro herror
          cases herror
          exact ⟨z, rfl, rfl⟩
        · rintro ⟨z', hz', rfl⟩
          cases hz'
          rfl

theorem Linearization.check_eq_forM {α : Type} (l : Linearization α) (n m : Nat) :
    l.check n m = forM (l.sizings n m) fun z => checkSize z.what z.expected z.found := by
  simp only [check, sizings, List.forM_cons, List.forM_nil, bind_pure_unit]

namespace Stepper

variable {α σ : Type}

/-! ## The log of a run -/

/-- Was the call refused, and why? -/
def Reply.outcome : Reply α → Except (StepError α) Unit
  | .done result => result
  | .stepped result _ => result.map fun _ => ()

/-- A call and its outcome. -/
structure Entry (α : Type) where
  call : Call α
  /-- Was it refused, and why? -/
  outcome : Except (StepError α) Unit

/-- The calls of a run with their outcomes. -/
def log (calls : List (Call α)) (answers : List (Answered α σ)) : List (Entry α) :=
  calls.zipWith (fun c a => ⟨c, a.reply.outcome⟩) answers

theorem mem_of_mem_log {calls : List (Call α)} {answers : List (Answered α σ)} {e : Entry α}
    (h : e ∈ log calls answers) : e.call ∈ calls := by
  rw [log, ← List.map_uncurry_zip_eq_zipWith, List.mem_map] at h
  obtain ⟨⟨c, a⟩, hmem, rfl⟩ := h
  exact (List.of_mem_zip hmem).1

/-- What a call to prepare has come to: the size, or nothing if it was refused. -/
def Entry.preparation? : Entry α → Option (Option (Nat × Nat))
  | ⟨.init n m, .ok ()⟩ => some (some (n, m))
  | ⟨.init _ _, .error _⟩ => some none
  | _ => none

/-- What becomes of the problem at hand: a new size takes it away, and so does a problem that is
refused; one that is accepted takes its place. -/
def Entry.problem? : Entry α → Option (Option (Linearization α))
  | ⟨.init _ _, .ok ()⟩ => some none
  | ⟨.setInputs l, .ok ()⟩ => some (some l)
  | ⟨.setInputs _, .error _⟩ => some none
  | _ => none

/-- What the most recent call to prepare has come to, if there was one. -/
def lastPreparation (entries : List (Entry α)) : Option (Option (Nat × Nat)) :=
  (entries.filterMap Entry.preparation?).getLast?

/-- The size of the most recent call to prepare that succeeded. -/
def lastPrepared (entries : List (Entry α)) : Option (Nat × Nat) :=
  (entries.filterMap fun x => x.preparation?.join).getLast?

/-- The problem at hand: the one given most recently, unless it was refused or came before the most
recent call to prepare that succeeded. -/
def problemAtHand (entries : List (Entry α)) : Option (Linearization α) :=
  (entries.filterMap Entry.problem?).getLast?.join

/-! ## Refusals -/

/-- The reasons to refuse a problem, for a solver of the given size, if it has one. -/
inductive RefusesInputs (size? : Option (Nat × Nat)) (l : Linearization α) : StepError α → Prop
  | unprepared (hsize : size? = none) : RefusesInputs size? l .notInitialized
  /-- A size disagrees, and none before it does. -/
  | mismatch {n m : Nat} {z : Sizing} (hsize : size? = some (n, m))
      (hfirst : (l.sizings n m).find? (fun z => z.expected != z.found) = some z) :
      RefusesInputs size? l (.dimension z.what z.expected z.found)

/-- The reasons to refuse a request for a step, for a solver of the given size that has the given
problem, each of which counts only where those before it do not apply. -/
inductive RefusesStep [Scalar α] (size? : Option (Nat × Nat)) (problem? : Option (Linearization α))
    (radius : α) (length : Nat) : StepError α → Prop
  | radius (hradius : ¬(0 < radius ∧ Scalar.isFinite radius = true)) :
      RefusesStep size? problem? radius length (.invalidRadius radius)
  | unprepared (hradius : 0 < radius ∧ Scalar.isFinite radius = true) (hsize : size? = none) :
      RefusesStep size? problem? radius length .notInitialized
  | noProblem {n m : Nat} (hradius : 0 < radius ∧ Scalar.isFinite radius = true)
      (hsize : size? = some (n, m)) (hproblem : problem? = none) :
      RefusesStep size? problem? radius length .inputsNotSet
  | length {n m : Nat} {l : Linearization α}
      (hradius : 0 < radius ∧ Scalar.isFinite radius = true) (hsize : size? = some (n, m))
      (hproblem : problem? = some l) (hlength : n ≠ length) :
      RefusesStep size? problem? radius length (.dimension .step n length)

/-! ## Phases -/

/-- How far a solver has come. -/
inductive Phase where
  | unprepared
  | prepared (n m : Nat)
  | staged (n m : Nat)

namespace Phase

/-- The phase of a solver of the given size that has the given problem. -/
def of (size? : Option (Nat × Nat)) (problem? : Option (Linearization α)) : Phase :=
  match size?, problem? with
  | none, _ => unprepared
  | some (n, m), none => prepared n m
  | some (n, m), some _ => staged n m

/-- The size of the solver, if it has one. -/
def size? : Phase → Option (Nat × Nat)
  | unprepared => none
  | prepared n m | staged n m => some (n, m)

/-- How a problem is received. -/
def receive (p : Phase) (l : Linearization α) : Except (StepError α) Unit :=
  match p.size? with
  | none => .error .notInitialized
  | some (n, m) => l.check n m

/-- How a request for a step is received. -/
def request [Scalar α] (p : Phase) (radius : α) (length : Nat) : Except (StepError α) Unit :=
  match checkRadius radius, p with
  | .error e, _ => .error e
  | .ok (), unprepared => .error .notInitialized
  | .ok (), prepared _ _ => .error .inputsNotSet
  | .ok (), staged n _ => checkSize .step n length

/-- The phase after a problem was received. -/
def received (p : Phase) (outcome : Except (StepError α) Unit) : Phase :=
  match p.size?, outcome with
  | none, _ => unprepared
  | some (n, m), .ok () => staged n m
  | some (n, m), .error _ => prepared n m

theorem of_eq_unprepared_iff {size? : Option (Nat × Nat)} {problem? : Option (Linearization α)} :
    of size? problem? = unprepared ↔ size? = none := by
  cases size? <;> cases problem? <;> simp [of]

section Sized

variable {p : Phase} {n m : Nat}

theorem receive_of_size? (h : p.size? = some (n, m)) (l : Linearization α) :
    p.receive l = l.check n m := by
  unfold receive
  rw [h]

theorem received_ok (h : p.size? = some (n, m)) :
    p.received (.ok () : Except (StepError α) Unit) = staged n m := by
  unfold received
  rw [h]

theorem received_error (h : p.size? = some (n, m)) (e : StepError α) :
    p.received (.error e) = prepared n m := by
  unfold received
  rw [h]

end Sized

theorem receive_eq_error_iff {size? : Option (Nat × Nat)} {problem? : Option (Linearization α)}
    {l : Linearization α} {e : StepError α} :
    (of size? problem?).receive l = .error e ↔ RefusesInputs size? l e := by
  have hcheck : ∀ n m, l.check n m = .error e ↔ RefusesInputs (some (n, m)) l e := by
    intro n m
    rw [l.check_eq_forM, checkSizes_eq_error_iff]
    constructor
    · rintro ⟨z, hz, rfl⟩
      exact .mismatch rfl hz
    · intro h
      cases h with
      | unprepared hsize => cases hsize
      | mismatch hsize hfirst => cases hsize; exact ⟨_, hfirst, rfl⟩
  cases size? with
  | none =>
      constructor
      · intro h
        cases h
        exact .unprepared rfl
      · intro h
        cases h with
        | unprepared => rfl
        | mismatch hsize => cases hsize
  | some size => cases problem? <;> exact hcheck size.1 size.2

/-- Only where there is a problem is a request for a step received well. -/
theorem exists_problem_of_request [Scalar α] {size? : Option (Nat × Nat)}
    {problem? : Option (Linearization α)} {radius : α} {length : Nat}
    (h : (of size? problem?).request radius length = .ok ()) : ∃ l, problem? = some l := by
  unfold request at h
  cases hradius : checkRadius radius with
  | error e => rw [hradius] at h; cases h
  | ok u =>
      rw [hradius] at h
      cases problem? with
      | none => cases size? <;> cases h
      | some l => exact ⟨l, rfl⟩

theorem request_eq_error_iff [Scalar α] {size? : Option (Nat × Nat)}
    {problem? : Option (Linearization α)} {radius : α} {length : Nat} {e : StepError α} :
    (of size? problem?).request radius length = .error e ↔
      RefusesStep size? problem? radius length e := by
  unfold request checkRadius
  by_cases hradius : 0 < radius ∧ Scalar.isFinite radius = true
  · rw [if_pos hradius]
    constructor
    · intro h
      cases size? with
      | none => cases h; exact .unprepared hradius rfl
      | some size =>
          cases problem? with
          | none => cases h; exact .noProblem hradius rfl rfl
          | some l =>
              have h : checkSize .step size.1 length = .error e := h
              unfold checkSize at h
              split at h
              · cases h
              · cases h
                exact .length hradius rfl rfl ‹_›
    · intro h
      cases h with
      | radius hnot => exact absurd hradius hnot
      | unprepared _ hsize => rw [hsize]; rfl
      | noProblem _ hsize hproblem => rw [hsize, hproblem]; rfl
      | length _ hsize hproblem hlength => rw [hsize, hproblem]; exact if_neg hlength
  · rw [if_neg hradius]
    constructor
    · intro h
      cases h
      exact .radius hradius
    · intro h
      cases h with
      | radius => rfl
      | unprepared h | noProblem h | length h => exact absurd h hradius

end Phase

/-! ## Protocols -/

/-- A protocol for a step solver. -/
structure Protocol (α : Type) where
  prepare : Nat → Nat → Except (StepError α) Unit
  /-- The phase after a call to prepare that was refused. -/
  dropped : Phase → Phase

namespace Protocol

variable (k : Protocol α) (calls : List (Call α)) (c : Call α)

/-- The phase after a call. -/
def next (p : Phase) : Call α → Phase
  | .init n m =>
    match k.prepare n m with
    | .ok () => .prepared n m
    | .error _ => k.dropped p
  | .setInputs l => p.received (p.receive l)
  | .computeStep _ _ => p

/-- The phase after calls to a new solver. -/
def phase (calls : List (Call α)) : Phase := calls.foldl k.next .unprepared

theorem phase_concat : k.phase (calls ++ [c]) = k.next (k.phase calls) c := by
  simp only [phase, List.foldl_append, List.foldl_cons, List.foldl_nil]

variable [Scalar α]

/-- How a call ends. -/
def outcome (p : Phase) : Call α → Except (StepError α) Unit
  | .init n m => k.prepare n m
  | .setInputs l => p.receive l
  | .computeStep radius out => p.request radius out.size

theorem outcome_congr {k k' : Protocol α} (h : k.prepare = k'.prepare) (p : Phase) (c : Call α) :
    k.outcome p c = k'.outcome p c := by
  cases c with
  | init n m => exact congrFun (congrFun h n) m
  | setInputs l => rfl
  | computeStep radius out => rfl

/-- The log of calls to a solver in a phase. -/
def logFrom (p : Phase) : List (Call α) → List (Entry α)
  | [] => []
  | c :: cs => ⟨c, k.outcome p c⟩ :: logFrom (k.next p c) cs

/-- The log of calls to a new solver. -/
def log (calls : List (Call α)) : List (Entry α) := k.logFrom .unprepared calls

theorem logFrom_concat (p : Phase) : k.logFrom p (calls ++ [c]) =
    k.logFrom p calls ++ [⟨c, k.outcome (calls.foldl k.next p) c⟩] := by
  induction calls generalizing p with
  | nil => rfl
  | cons c' cs ih => simp only [List.cons_append, logFrom, ih, List.foldl_cons]

/-- Every call is in the log. -/
theorem map_call_logFrom (p : Phase) : (k.logFrom p calls).map Entry.call = calls := by
  induction calls generalizing p with
  | nil => rfl
  | cons c cs ih => rw [logFrom, List.map_cons, ih]

theorem log_concat :
    k.log (calls ++ [c]) = k.log calls ++ [⟨c, k.outcome (k.phase calls) c⟩] :=
  k.logFrom_concat calls c .unprepared

end Protocol

/-! ## Reading the log -/

section Reading

variable (entries : List (Entry α)) (x : Entry α)

theorem lastPreparation_concat :
    lastPreparation (entries ++ [x]) = x.preparation?.or (lastPreparation entries) := by
  unfold lastPreparation
  cases h : x.preparation? <;> simp [List.filterMap_append, h]

theorem lastPrepared_concat :
    lastPrepared (entries ++ [x]) = x.preparation?.join.or (lastPrepared entries) := by
  unfold lastPrepared
  cases h : x.preparation?.join <;> simp [List.filterMap_append, h]

theorem problemAtHand_concat : problemAtHand (entries ++ [x]) =
    match x.problem? with
    | some problem => problem
    | none => problemAtHand entries := by
  unfold problemAtHand
  cases h : x.problem? <;> simp [List.filterMap_append, h]

/-- The problem at hand was given, and accepted; and no other was given since. -/
theorem of_problemAtHand {entries : List (Entry α)} {l : Linearization α}
    (h : problemAtHand entries = some l) :
    ⟨.setInputs l, .ok ()⟩ ∈ entries ∧ lastInputs (entries.map Entry.call) = some l := by
  induction entries using List.reverseRecOn with
  | nil => cases h
  | append_singleton entries x ih =>
      rw [problemAtHand_concat] at h
      rw [List.map_append, List.map_singleton]
      obtain ⟨c, outcome⟩ := x
      cases c with
      | init n m =>
          rw [lastInputs_init]
          cases outcome with
          | ok u => cases h
          | error e => exact ⟨List.mem_append_left _ (ih h).1, (ih h).2⟩
      | setInputs l' =>
          rw [lastInputs_setInputs]
          cases outcome with
          | ok u => cases h; exact ⟨List.mem_append_right _ (List.mem_singleton_self _), rfl⟩
          | error e => cases h
      | computeStep radius out =>
          rw [lastInputs_computeStep]
          exact ⟨List.mem_append_left _ (ih h).1, (ih h).2⟩

end Reading

namespace Phase

/-- A problem that is accepted is the one at hand, and one that is refused leaves none. -/
theorem received_of (size? : Option (Nat × Nat)) (entries : List (Entry α))
    (outcome : Except (StepError α) Unit) (l : Linearization α) :
    (of size? (problemAtHand entries)).received outcome =
      of size? (problemAtHand (entries ++ [⟨.setInputs l, outcome⟩])) := by
  rw [problemAtHand_concat]
  cases size? <;> cases problemAtHand entries <;> cases outcome <;> rfl

end Phase

namespace Protocol

variable [Scalar α] {k k' : Protocol α} (calls : List (Call α))

/-- The problem at hand is the one last given. -/
theorem lastInputs_of_problemAtHand {l : Linearization α}
    (h : problemAtHand (k.log calls) = some l) : lastInputs calls = some l := by
  have hlast := (of_problemAtHand h).2
  rwa [log, map_call_logFrom] at hlast

/-- Where a refused preparation changes nothing, the size is the one last accepted. -/
theorem phase_of_kept (hk : ∀ p, k.dropped p = p) :
    k.phase calls = .of (lastPrepared (k.log calls)) (problemAtHand (k.log calls)) := by
  induction calls using List.reverseRecOn with
  | nil => rfl
  | append_singleton calls c ih =>
      rw [phase_concat, log_concat, lastPrepared_concat]
      cases c with
      | init n m =>
          rw [problemAtHand_concat]
          simp only [next, outcome]
          cases k.prepare n m with
          | ok u => rfl
          | error e => exact (hk _).trans ih
      | setInputs l =>
          simp only [next, outcome, ih]
          exact Phase.received_of _ _ _ l
      | computeStep radius out =>
          rw [problemAtHand_concat]
          exact ih

/-- Where a refused preparation takes the size away, it is the one asked for last, if it was
accepted. -/
theorem phase_of_dropped (hk : ∀ p, k.dropped p = .unprepared) :
    k.phase calls = .of (lastPreparation (k.log calls)).join (problemAtHand (k.log calls)) := by
  induction calls using List.reverseRecOn with
  | nil => rfl
  | append_singleton calls c ih =>
      rw [phase_concat, log_concat, lastPreparation_concat]
      cases c with
      | init n m =>
          rw [problemAtHand_concat]
          simp only [next, outcome]
          cases k.prepare n m with
          | ok u => rfl
          | error e => exact hk _
      | setInputs l =>
          simp only [next, outcome, ih]
          exact Phase.received_of _ _ _ l
      | computeStep radius out =>
          rw [problemAtHand_concat]
          exact ih

/-- Protocols that accept the same sizes are in the same phase, unless the most recent preparation was
refused. -/
theorem phase_eq (hprepare : k.prepare = k'.prepare) :
    lastPreparation (k.log calls) = lastPreparation (k'.log calls) ∧
      (lastPreparation (k.log calls) ≠ some none → k.phase calls = k'.phase calls) := by
  induction calls using List.reverseRecOn with
  | nil => exact ⟨rfl, fun _ => rfl⟩
  | append_singleton calls c ih =>
      obtain ⟨hlast, hphase⟩ := ih
      rw [phase_concat, phase_concat, log_concat, log_concat, lastPreparation_concat,
        lastPreparation_concat]
      cases c with
      | init n m =>
          simp only [next, outcome, ← hprepare]
          cases k.prepare n m with
          | ok u => exact ⟨rfl, fun _ => rfl⟩
          | error e => exact ⟨rfl, fun h => absurd rfl h⟩
      | setInputs l => exact ⟨hlast, fun h => by simp only [next, hphase h]⟩
      | computeStep radius out => exact ⟨hlast, hphase⟩

end Protocol

/-! ## Solvers that follow a protocol -/

variable [Scalar α] [Stepper α σ]

/-- Does each call to a solver in this state end as the protocol says? -/
structure Follows (k : Protocol α) (phase : σ → Phase) (s : σ) : Prop where
  init {n m : Nat} {t : Turn α σ (StepError α) Unit} (h : init s n m = some t) :
    t.result = k.prepare n m ∧ phase t.state = k.next (phase s) (.init n m)
  setInputs {l : Linearization α} {t : Turn α σ (StepError α) Unit} (h : setInputs s l = some t) :
    t.result = (phase s).receive l ∧ phase t.state = (phase s).received t.result
  computeStep {radius : α} {out : Vec α} {t : Turn α (σ × Vec α) (StepError α) Regime}
    (h : computeStep s radius out = some t) :
    (t.result.map fun _ => ()) = (phase s).request radius out.size ∧ phase t.state.1 = phase s

namespace Follows

variable {k : Protocol α} {phase : σ → Phase} {s s' : σ} {P : List (Call α) → σ → Prop}

theorem call (hs : Follows k phase s) {c : Call α} {a : Answered α σ}
    (h : Stepper.call s c = some a) :
    a.reply.outcome = k.outcome (phase s) c ∧ phase a.state = k.next (phase s) c := by
  cases c with
  | init n m =>
      obtain ⟨t, ht, rfl⟩ := call_init_eq_some_iff.1 h
      exact hs.init ht
  | setInputs l =>
      obtain ⟨t, ht, rfl⟩ := call_setInputs_eq_some_iff.1 h
      obtain ⟨hresult, hphase⟩ := hs.setInputs ht
      exact ⟨hresult, hphase.trans (congrArg _ hresult)⟩
  | computeStep radius out =>
      obtain ⟨t, ht, rfl⟩ := call_computeStep_eq_some_iff.1 h
      exact hs.computeStep ht

/-- **A run follows the protocol** if every call does: it has the log of the protocol, and comes to
its phase. -/
theorem run (hP : Carried P) (hk : ∀ calls s, P calls s → Follows k phase s)
    {before calls : List (Call α)} {answers : List (Answered α σ)} (hs : P before s)
    (hrun : Stepper.run s calls = some (s', answers)) :
    phase s' = calls.foldl k.next (phase s) ∧
      Stepper.log calls answers = k.logFrom (phase s) calls := by
  induction calls generalizing before s answers with
  | nil => cases hrun; exact ⟨rfl, rfl⟩
  | cons c cs ih =>
      obtain ⟨a, ha, hafter⟩ := hP.call hs c
      obtain ⟨houtcome, hphase⟩ := (hk _ _ hs).call ha
      obtain ⟨s'', answers', hrest, -⟩ := hP.run hafter cs
      simp only [Stepper.run, ha, hrest, Option.bind_eq_bind, Option.bind_some] at hrun
      cases hrun
      obtain ⟨hend, hlog⟩ := ih hafter hrest
      rw [hphase] at hend hlog
      refine ⟨hend, ?_⟩
      show (⟨c, a.reply.outcome⟩ : Entry α) :: Stepper.log cs answers' = _
      rw [houtcome, hlog]
      rfl

end Follows

end Stepper

end TrustRegion
