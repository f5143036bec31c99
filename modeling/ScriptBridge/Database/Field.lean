import ScriptBridge.Number.Reading
import ScriptBridge.Text.Blank
import ScriptBridge.Value.Script

/-!
# Fields of query results

A database answers fields that are null, integers, numbers or texts. The columns of a
result have types, and every field is brought to the type of its column. A text that does
not read as a number stays a text, so nothing is lost. Null is of every type.

The type of a column follows from the type that was declared for it in the database, by
the names that occur in the declaration.
-/

namespace ScriptBridge

/-- **The type of a column.** -/
inductive ColumnType where
  | integer
  | float
  | text
  deriving DecidableEq, Inhabited

/-- **A field.** Integers lie within 64 bits. -/
inductive FieldValue where
  | null
  | integer (value : Int)
  | float (value : Double)
  | text (value : String)
  deriving DecidableEq, Inhabited

/-- The name of a column type. -/
def ColumnType.name : ColumnType → String
  | .integer => "integer"
  | .float => "float"
  | .text => "string"

namespace FieldValue

/-- A text brought to a type of numbers, if it reads as one. -/
def readAs (read : List Char → Option FieldValue) (text : String) : FieldValue :=
  (read (Text.trim text.toList)).getD (.text text)

/-- **Bring a field to the type of its column.** -/
def coerce (field : FieldValue) (type : ColumnType) : FieldValue :=
  match type, field with
  | .integer, .float value => .integer value.toInt64
  | .integer, .text written => readAs (fun cs => (Reading.int64? cs).map .integer) written
  | .float, .integer value => .float (Double.ofInt value)
  | .float, .text written => readAs (fun cs => (Reading.double? cs).map .float) written
  | .text, .integer value => .text (toString value)
  | .text, .float value => .text value.text
  | _, field => field

/-- The field as a script sees it. -/
def toScript : FieldValue → ScriptValue
  | .null => .null
  | .integer value => .number (Double.ofInt value)
  | .float value => .number value
  | .text value => .text value

/-- The type that a field has by itself. -/
def type? : FieldValue → Option ColumnType
  | .null => none
  | .integer _ => some .integer
  | .float _ => some .float
  | .text _ => some .text

end FieldValue

namespace ColumnType

/-- Whether a word occurs in a text. -/
def occurs (word text : List Char) : Bool :=
  match text with
  | [] => word.isEmpty
  | _ :: rest => word.isPrefixOf text || occurs word rest

/-- The words that occur in declarations of numbers with a fraction. -/
def floatWords : List String := ["REAL", "FLOA", "DOUB", "DEC", "NUMERIC"]

/-- **The type of a declared column.** Small letters of the basic alphabet count as capitals. -/
def ofDeclaration (declared : String) : ColumnType :=
  let declared := declared.toList.map Char.toUpper
  if occurs "INT".toList declared || declared == "BOOLEAN".toList || declared == "BOOL".toList then
    .integer
  else if floatWords.any fun word => occurs word.toList declared then .float
  else .text

end ColumnType

end ScriptBridge
