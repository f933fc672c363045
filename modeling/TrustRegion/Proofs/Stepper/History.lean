import TrustRegion.Stepper

/-!
# Histories of calls

Of a whole history of calls, a step solver has to remember two things: the size it was last prepared
for, and the problem it was last given.  `Stepper.lastSize` and `Stepper.lastInputs` read them off the
history.  A property of the history and the state that each operation carries on (`Stepper.Carried`)
holds at the end of every run, and every run answers (`Stepper.Carried.run`).
-/

namespace TrustRegion

namespace Stepper

variable {α σ : Type}

/-- The size asked for, if the call is one to prepare. -/
def Call.size? : Call α → Option (Nat × Nat)
  | .init n m => some (n, m)
  | _ => none

/-- The problem given, if the call is one to take a problem. -/
def Call.inputs? : Call α → Option (Linearization α)
  | .setInputs l => some l
  | _ => none

/-- The size asked for by the most recent call to prepare. -/
def lastSize (calls : List (Call α)) : Option (Nat × Nat) := (calls.filterMap Call.size?).getLast?

/-- The problem given by the most recent call to take one. -/
def lastInputs (calls : List (Call α)) : Option (Linearization α) :=
  (calls.filterMap Call.inputs?).getLast?

variable (calls : List (Call α))

@[simp] theorem lastSize_init (n m : Nat) : lastSize (calls ++ [.init n m]) = some (n, m) := by
  simp [lastSize, Call.size?]

@[simp] theorem lastSize_setInputs (l : Linearization α) :
    lastSize (calls ++ [.setInputs l]) = lastSize calls := by
  simp [lastSize, Call.size?]

@[simp] theorem lastSize_computeStep (radius : α) (out : Vec α) :
    lastSize (calls ++ [.computeStep radius out]) = lastSize calls := by
  simp [lastSize, Call.size?]

@[simp] theorem lastInputs_init (n m : Nat) :
    lastInputs (calls ++ [.init n m]) = lastInputs calls := by
  simp [lastInputs, Call.inputs?]

@[simp] theorem lastInputs_setInputs (l : Linearization α) :
    lastInputs (calls ++ [.setInputs l]) = some l := by
  simp [lastInputs, Call.inputs?]

@[simp] theorem lastInputs_computeStep (radius : α) (out : Vec α) :
    lastInputs (calls ++ [.computeStep radius out]) = lastInputs calls := by
  simp [lastInputs, Call.inputs?]

variable {calls} [Stepper α σ] {P : List (Call α) → σ → Prop} {s s' s'' : σ} {cs cs' : List (Call α)}
  {answers answers' : List (Answered α σ)}

/-! ## One call -/

theorem call_init_eq_some_iff {n m : Nat} {a : Answered α σ} : call s (.init n m) = some a ↔
    ∃ t, init s n m = some t ∧ ⟨t.state, .done t.result, t.events⟩ = a :=
  Option.map_eq_some_iff

theorem call_setInputs_eq_some_iff {l : Linearization α} {a : Answered α σ} :
    call s (.setInputs l) = some a ↔
      ∃ t, setInputs s l = some t ∧ ⟨t.state, .done t.result, t.events⟩ = a :=
  Option.map_eq_some_iff

theorem call_computeStep_eq_some_iff {radius : α} {out : Vec α} {a : Answered α σ} :
    call s (.computeStep radius out) = some a ↔
      ∃ t, computeStep s radius out = some t ∧
        ⟨t.state.1, .stepped t.result t.state.2, t.events⟩ = a :=
  Option.map_eq_some_iff

/-! ## Properties that are carried on -/

/-- Does every operation answer, and carry a property of the history and the state on? -/
structure Carried (P : List (Call α) → σ → Prop) : Prop where
  init {calls : List (Call α)} {s : σ} (h : P calls s) (n m : Nat) :
    ∃ t, init s n m = some t ∧ P (calls ++ [.init n m]) t.state
  setInputs {calls : List (Call α)} {s : σ} (h : P calls s) (inputs : Linearization α) :
    ∃ t, setInputs s inputs = some t ∧ P (calls ++ [.setInputs inputs]) t.state
  computeStep {calls : List (Call α)} {s : σ} (h : P calls s) (radius : α) (out : Vec α) :
    ∃ t, computeStep s radius out = some t ∧ P (calls ++ [.computeStep radius out]) t.state.1

namespace Carried

/-- Every call answers and carries the property on. -/
theorem call (hP : Carried P) (hs : P calls s) (c : Call α) :
    ∃ a, Stepper.call s c = some a ∧ P (calls ++ [c]) a.state := by
  cases c with
  | init n m =>
      obtain ⟨t, ht, hafter⟩ := hP.init hs n m
      exact ⟨_, by simp only [Stepper.call, ht]; rfl, hafter⟩
  | setInputs l =>
      obtain ⟨t, ht, hafter⟩ := hP.setInputs hs l
      exact ⟨_, by simp only [Stepper.call, ht]; rfl, hafter⟩
  | computeStep radius out =>
      obtain ⟨t, ht, hafter⟩ := hP.computeStep hs radius out
      exact ⟨_, by simp only [Stepper.call, ht]; rfl, hafter⟩

/-- Every run answers and carries the property on. -/
theorem run (hP : Carried P) (hs : P calls s) (cs : List (Call α)) :
    ∃ s' answers, Stepper.run s cs = some (s', answers) ∧ P (calls ++ cs) s' := by
  induction cs generalizing calls s with
  | nil => exact ⟨s, [], rfl, by simpa using hs⟩
  | cons c cs ih =>
      obtain ⟨a, ha, hafter⟩ := hP.call hs c
      obtain ⟨s', answers, hrun, hend⟩ := ih hafter
      refine ⟨s', a :: answers, ?_, by simpa using hend⟩
      simp only [Stepper.run, ha, hrun, Option.bind_eq_bind, Option.bind_some]

/-- The property holds wherever a run ends. -/
theorem of_run (hP : Carried P) (hs : P calls s) (hrun : Stepper.run s cs = some (s', answers)) :
    P (calls ++ cs) s' := by
  obtain ⟨s'', answers', hrun', hend⟩ := hP.run hs cs
  rw [hrun] at hrun'
  cases hrun'
  exact hend

end Carried

/-- A run can be interrupted and continued. -/
theorem run_append (h : run s cs = some (s', answers))
    (h' : run s' cs' = some (s'', answers')) :
    run s (cs ++ cs') = some (s'', answers ++ answers') := by
  induction cs generalizing s answers with
  | nil => cases h; exact h'
  | cons c cs ih =>
      simp only [run, Option.bind_eq_bind, Option.bind_eq_some_iff] at h
      obtain ⟨a, ha, ⟨state, rest⟩, hrest, hout⟩ := h
      cases hout
      simp only [List.cons_append, run, ha, ih hrest, Option.bind_eq_bind, Option.bind_some]

/-- A run goes on with one more call. -/
theorem run_concat {c : Call α} {a : Answered α σ} (h : run s cs = some (s', answers))
    (ha : call s' c = some a) : run s (cs ++ [c]) = some (a.state, answers ++ [a]) := by
  refine run_append h ?_
  simp only [run, ha, Option.bind_eq_bind, Option.bind_some]

end Stepper

end TrustRegion
