/-
  Primacy.Json.Fault

  What can be wrong with a JSON text.  Reading is streaming: the fault that comes first wins.
-/

namespace Primacy.Json

inductive Fault where
  /-- The text ends inside a value. -/
  | eof
  /-- The text is not JSON. -/
  | malformed
  /-- The text is JSON so far, but not of the expected shape. -/
  | data
  deriving DecidableEq, Inhabited

end Primacy.Json
