import TrustRegion.Text

/-!
# Levels of importance

A level is a lower bound: what is at least as important is kept.  A level can be given by name, and so
can the absence of one.
-/

namespace TrustRegion

/-- How important a message is, or has to be in order to be kept. -/
inductive LogLevel where
  | trace
  | debug
  | info
  | warn
  | error
  deriving DecidableEq, Repr

namespace LogLevel

/-- All levels, the least important first. -/
def all : List LogLevel := [trace, debug, info, warn, error]

/-- The name of a level. -/
def name : LogLevel → String
  | trace => "TRACE"
  | debug => "DEBUG"
  | info => "INFO"
  | warn => "WARN"
  | error => "ERROR"

/-- The word for a level in settings. -/
def word : LogLevel → String
  | trace => "trace"
  | debug => "debug"
  | info => "info"
  | warn => "warn"
  | error => "error"

/-- The words that ask for no messages at all. -/
def silence : List String := ["off", "none"]

/-- The level with a given name, in any mixture of cases; `none` is silence.  An error is the name in
lower case, if it is neither. -/
def ofName (text : String) : Except String (Option LogLevel) :=
  let lowered := Text.lower text
  if lowered ∈ silence then .ok none
  else
    match all.find? fun level => level.word = lowered with
    | some level => .ok (some level)
    | none => .error lowered

end LogLevel

end TrustRegion
