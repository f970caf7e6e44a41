/-!
# Log entries

What the analysis and its rules report besides their results.
-/

namespace PointsTo

/-- How important an entry is. -/
inductive Level where
  | debug | info | warning | error | fatal | panic
deriving DecidableEq, Repr

/-- The spelling of a level. -/
def Level.name : Level → String
  | .debug => "debug"
  | .info => "info"
  | .warning => "warning"
  | .error => "error"
  | .fatal => "fatal"
  | .panic => "panic"

/-- An entry of the log, with named numbers. -/
structure Entry where
  level : Level
  message : String
  fields : List (String × Nat) := []
deriving DecidableEq, Repr

/-- A log, oldest entry first. -/
abbrev Log := List Entry

end PointsTo
