import TrustRegion.Error
import TrustRegion.Settings.LogLevel
import TrustRegion.Solver.Kind
import TrustRegion.Text

/-!
# Settings

A step solver has four settings: the linear solver, the tolerance below which a matrix counts as
singular, the level of the messages that are kept, and the file they go to.

Settings can be read from entries, each a key with a text.  The entries are taken one after the other
and the first one that cannot be used is reported; only then the settings are examined as a whole.
-/

namespace TrustRegion

/-- The settings of a step solver. -/
structure Settings (α : Type) where
  solver : SolverKind
  /-- The relative size of a pivot that counts as zero. -/
  tolerance : α
  /-- The level of the messages to keep, by name. -/
  logLevel : Option String
  logFile : Option String
  deriving Repr

namespace Settings

variable {α : Type} [Scalar α]

/-- The settings where none are given. -/
def standard : Settings α :=
  { solver := default, tolerance := Scalar.tenth 12, logLevel := none, logFile := none }

/-- Are these the settings where none are given?  A tolerance is compared as a number. -/
def isStandard (s : Settings α) : Bool :=
  decide (s.solver = default) && decide (s.tolerance ≤ Scalar.tenth 12) &&
    decide (Scalar.tenth 12 ≤ s.tolerance) && s.logLevel.isNone && s.logFile.isNone

/-! ## Examination -/

/-- The level of the messages to keep, if any are. -/
def logFilter (s : Settings α) : Except (SettingsProblem α) (Option LogLevel) :=
  match s.logLevel with
  | none => .ok none
  | some text => (LogLevel.ofName text).mapError .unknownLevel

/-- Is a tolerance in the half-open interval from zero to one? -/
def ToleranceInRange (tolerance : α) : Prop := 0 ≤ tolerance ∧ tolerance < 1

instance (tolerance : α) : Decidable (ToleranceInRange tolerance) :=
  inferInstanceAs (Decidable (_ ∧ _))

/-- Refuses settings that cannot be used. -/
def validate (s : Settings α) : Except (SettingsProblem α) Unit :=
  if ToleranceInRange s.tolerance then s.logFilter.map fun _ => ()
  else .error (.toleranceOutOfRange s.tolerance)

/-! ## The log -/

/-- How it goes to open a log, by the setting for its file; a failure is told in words. -/
abbrev LogOpening := String → Except String Unit

/-- Every log opens. -/
def LogOpening.succeeds : LogOpening := fun _ => .ok ()

/-- Opens the log, if messages are to be kept and there is a file for them. -/
def openLog (s : Settings α) (opening : LogOpening) : Except (SettingsProblem α) Unit := do
  match ← s.logFilter, s.logFile with
  | some _, some file => (opening file).mapError .described
  | _, _ => return ()

/-- Examines the settings, and opens the log. -/
def activate (s : Settings α) (opening : LogOpening) : Except (SettingsProblem α) Unit := do
  s.validate
  s.openLog opening

/-- Where every log opens, nothing but the examination is left. -/
@[simp] theorem activate_succeeds (s : Settings α) : s.activate .succeeds = s.validate := by
  unfold activate validate openLog
  by_cases ht : ToleranceInRange s.tolerance
  · rw [if_pos ht]
    cases hf : s.logFilter with
    | error problem => rfl
    | ok level => cases level <;> cases s.logFile <;> rfl
  · rw [if_neg ht]
    rfl

/-! ## Reading -/

/-- The settings after one more entry.  A number is read by `read`.  Blank characters around a text do
not matter, but a refusal shows the text as it was given. -/
def put (read : String → Option α) (s : Settings α) (key text : String) :
    Except (SettingsProblem α) (Settings α) :=
  let trimmed := Text.trim text
  if key = "linear_solver" then
    match SolverKind.ofName? trimmed with
    | some solver => .ok { s with solver }
    | none => .error (.unknownSolver text)
  else if key = "singular_tolerance" then
    match read trimmed with
    | some tolerance => .ok { s with tolerance }
    | none => .error (.notANumber text)
  else if key = "loglevel" then .ok { s with logLevel := some trimmed }
  else if key = "log_file" then .ok { s with logFile := some trimmed }
  else .error (.unknownSetting key)

/-- The settings after some entries, in their order. -/
def putAll (read : String → Option α) (s : Settings α) :
    List (String × String) → Except (SettingsProblem α) (Settings α)
  | [] => .ok s
  | (key, text) :: entries => do putAll read (← s.put read key text) entries

/-- The settings given by some entries. -/
def ofEntries (read : String → Option α) (entries : List (String × String)) :
    Except (SettingsProblem α) (Settings α) := do
  let s ← putAll read standard entries
  s.validate
  return s

end Settings

end TrustRegion
