/-!
# Faults of JSON text

Reading stops at the first fault, and a fault is one of three: a character that
JSON does not allow at its place, the end of the text inside a value, or a value
of the wrong shape for what is read.
-/
namespace Flipbook.Json

/-- Why JSON text cannot be read. -/
inductive Fault where
  /-- The text breaks the grammar. -/
  | malformed
  /-- The text ends too early. -/
  | truncated
  /-- A value has the wrong shape. -/
  | mismatched
deriving DecidableEq, Repr

/-- The name of a fault. -/
def Fault.label : Fault → String
  | .malformed => "syntax"
  | .truncated => "eof"
  | .mismatched => "data"

end Flipbook.Json
