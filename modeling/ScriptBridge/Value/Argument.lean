import ScriptBridge.Value.Cell
import ScriptBridge.Value.Script

/-!
# Argument values

What the machine's side of the bridge knows about a value: a cell, a number held in a
cell, a text or a row of raw cells. Every such value has a counterpart among the
values of a script, and raw cells are signed there.
-/

namespace ScriptBridge

/-- **A value as the machine knows it.** -/
inductive ArgumentValue where
  | integer (value : Cell)
  | float (value : Single)
  | text (value : String)
  | cells (values : List UInt32)
  deriving DecidableEq, Inhabited

namespace ArgumentValue

/-- The name of the value's type. -/
def typeName : ArgumentValue → String
  | .integer _ => "integer"
  | .float _ => "float"
  | .text _ => "string"
  | .cells _ => "array"

/-- The value as a script sees it. -/
def toScript : ArgumentValue → ScriptValue
  | .integer value => .ofCell value
  | .float value => .number value.toDouble
  | .text value => .text value
  | .cells values => .array (values.map fun word => .ofCell word.toInt32)

/-- Equality of values, which compares numbers as numbers. -/
def same : ArgumentValue → ArgumentValue → Bool
  | .integer a, .integer b => a == b
  | .float a, .float b => a.sameNumber b
  | .text a, .text b => a == b
  | .cells a, .cells b => a == b
  | _, _ => false

end ArgumentValue

end ScriptBridge
