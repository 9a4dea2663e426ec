/-!
# Warnings

What a compiled query does not say: an unknown operator was taken for `equals`, or an object was left
out of the join.
-/

namespace Targeting

/-- A problem that does not keep a query from being compiled. -/
inductive Warning
  | unsupportedOperator (path raw : String)
  | leftOut (object label : String)
  deriving DecidableEq

/-- The text of a warning. -/
def Warning.text : Warning → String
  | .unsupportedOperator path raw => s!"{path}: unsupported operator '{raw}' compiled as 'equals'"
  | .leftOut object label =>
    s!"Object '{object}' (alias {label}) has no relationship to the join and was left out"

end Targeting
