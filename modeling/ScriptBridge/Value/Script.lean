import ScriptBridge.Value.Cell
import ScriptBridge.Number.Arithmetic
import ScriptBridge.Number.Shortest

/-!
# Script values

What a script can hand over or receive: nothing, null, truth values, double precision
numbers, texts, and lists of such values. Two conversions lead from a number to a
cell. The strict one answers only if the number is a cell; the modular one truncates
and wraps around, and takes what is not finite for zero.

`text` is the conversion scripts apply when a text is wanted. A list is the
texts of its entries with commas between, where nothing and null leave no trace.
-/

namespace ScriptBridge

/-- **A value as a script knows it.** -/
inductive ScriptValue where
  | undefined
  | null
  | bool (value : Bool)
  | number (value : Double)
  | text (value : String)
  | array (entries : List ScriptValue)
  deriving Inhabited

namespace ScriptValue

/-- The number that a cell is. -/
def ofCell (c : Cell) : ScriptValue := .number (Double.ofInt c.toInt)

/-- The name of the value's type. -/
def typeName : ScriptValue → String
  | .undefined => "undefined"
  | .null => "null"
  | .bool _ => "boolean"
  | .number _ => "number"
  | .text _ => "string"
  | .array _ => "array"

/-- Whether the value is a number. -/
def isNumber : ScriptValue → Bool
  | .number _ => true
  | _ => false

/-- The number, if the value is one. -/
def number? : ScriptValue → Option Double
  | .number x => some x
  | _ => none

/-- The text, if the value is one. -/
def text? : ScriptValue → Option String
  | .text s => some s
  | _ => none

/-- The entries, if the value is a list. -/
def entries? : ScriptValue → Option (List ScriptValue)
  | .array entries => some entries
  | _ => none

/-- **The strict conversion.** The cell that the value is, if it is a number equal to one. -/
def exactCell? : ScriptValue → Option Cell
  | .number x =>
    if x.fraction.sameNumber .zero ∧ (Double.ofInt (-0x80000000)).atMost x
        ∧ x.atMost (Double.ofInt 0x7FFFFFFF) then
      some (Int32.ofInt (x.held (-0x80000000) 0x7FFFFFFF))
    else none
  | _ => none

/-- Truncate a number and wrap it around to 32 bits; what is not finite becomes zero. -/
def wrapNumber (x : Double) : Cell :=
  if x.isFinite then
    let modulo := x.truncate.euclideanRemainder (Double.ofInt 0x100000000)
    (UInt32.ofNat (modulo.held 0 0xFFFFFFFF).toNat).toInt32
  else 0

/-- **The modular conversion.** It takes every number. -/
def wrappedCell? : ScriptValue → Option Cell
  | .number x => some (wrapNumber x)
  | _ => none

/-- A number as a script writes it. Whole numbers below `10 ^ 15` have no sign if they are zero. -/
def numberText (x : Double) : String :=
  match x.integer? with
  | some n => if n.natAbs < Nat.pow 10 15 then toString n
    else BinaryFormat.double.write .long x.meaning
  | none => BinaryFormat.double.write .long x.meaning

/-- Whether the value leaves no trace in the text of a list. -/
def isAbsent : ScriptValue → Bool
  | .undefined => true
  | .null => true
  | _ => false

mutual

/-- **The value as text.** -/
def toText : ScriptValue → String
  | .undefined => "undefined"
  | .null => "null"
  | .bool true => "true"
  | .bool false => "false"
  | .number x => numberText x
  | .text s => s
  | .array [] => ""
  | .array (entry :: entries) => (if entry.isAbsent then "" else entry.toText) ++ restText entries

/-- The later entries of a list, each behind a comma. -/
def restText : List ScriptValue → String
  | [] => ""
  | entry :: entries => "," ++ (if entry.isAbsent then "" else entry.toText) ++ restText entries

end

end ScriptValue

end ScriptBridge
