/-!
# Names of log files

A log file is named in the settings, or named after the moment at which it is opened.
-/

namespace TrustRegion

/-- A moment in local time.  Months and days are counted from one. -/
structure Timestamp where
  year : Nat
  month : Nat
  day : Nat
  hour : Nat
  minute : Nat
  second : Nat

namespace Timestamp

/-- A number filled up with zeros in front. -/
def padded (width n : Nat) : String :=
  let text := Nat.toDigits 10 n
  String.ofList (List.replicate (width - text.length) '0' ++ text)

/-- The moment as it is written in a file name. -/
def stamp (t : Timestamp) : String :=
  padded 4 t.year ++ "-" ++ padded 2 t.month ++ "-" ++ padded 2 t.day ++ "_" ++
    padded 2 t.hour ++ "-" ++ padded 2 t.minute ++ "-" ++ padded 2 t.second

end Timestamp

/-- The setting that asks for a file named after the moment. -/
def automaticLogFile : String := "auto"

/-- The name of the log file for a setting, when it is opened at the given moment. -/
def logFileName (now : Timestamp) (setting : String) : String :=
  if setting = automaticLogFile then "log_" ++ now.stamp ++ ".txt" else setting

end TrustRegion
