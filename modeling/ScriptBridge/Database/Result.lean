import ScriptBridge.Database.Field
import ScriptBridge.Text.Utf8

/-!
# Query results

A statement answers rows, or else the number of rows it changed and the last number it
gave to a row. `ofStored` makes a result of values as a database file stores them.
-/

namespace ScriptBridge

/-- **A column.** -/
structure Column where
  name : String
  type : ColumnType
  deriving DecidableEq, Inhabited

/-- **The result of a statement.** -/
structure QueryResult where
  columns : List Column := []
  rows : List (List FieldValue) := []
  affectedRows : Option Nat := none
  insertId : Option Int := none
  deriving DecidableEq, Inhabited

/-- **A value as it is stored.** Texts and binary values are bytes. -/
inductive StoredValue where
  | null
  | integer (value : Int)
  | float (value : Double)
  | text (bytes : List UInt8)
  | blob (bytes : List UInt8)
  deriving Inhabited

namespace StoredValue

/-- The field that a stored value is. -/
def field : StoredValue → FieldValue
  | .null => .null
  | .integer value => .integer value
  | .float value => .float value
  | .text bytes => .text (Utf8.lossy bytes)
  | .blob bytes => .text (Utf8.lossy bytes)

end StoredValue

namespace QueryResult

/-- The result of a statement with rows. -/
def ofRows (columns : List Column) (rows : List (List FieldValue)) : QueryResult :=
  { columns, rows }

/-- The result of a statement without rows. -/
def ofStatement (affectedRows : Nat) (insertId : Int) : QueryResult :=
  { affectedRows := some affectedRows, insertId := some insertId }

/-- The place of the first column with a name. -/
def columnIndex? (result : QueryResult) (name : String) : Option Nat :=
  result.columns.findIdx? (·.name == name)

/-- A field by the number of its row and the name of its column. -/
def field? (result : QueryResult) (row : Nat) (name : String) : Option FieldValue :=
  (result.columnIndex? name).bind fun column => (result.rows[row]?).bind (·[column]?)

/-- **The rows as a script sees them.** -/
def toScript (result : QueryResult) : ScriptValue :=
  .array (result.rows.map fun row => .array (row.map FieldValue.toScript))

/-- The type of the first field in a column that is not null. Without one it is that of texts. -/
def typeOfFields (rows : List (List FieldValue)) (column : Nat) : ColumnType :=
  (rows.findSome? fun row => (row[column]?).bind FieldValue.type?).getD .text

/-- The columns of stored rows, from a place on. -/
def storedColumns (rows : List (List FieldValue)) : Nat → List (String × Option String) → List Column
  | _, [] => []
  | place, (name, declared) :: rest =>
    ⟨name, (declared.map ColumnType.ofDeclaration).getD (typeOfFields rows place)⟩ ::
      storedColumns rows (place + 1) rest

/-- **The result of stored rows.** A column without a declared type takes that of its fields. -/
def ofStored (declared : List (String × Option String)) (stored : List (List StoredValue)) :
    QueryResult :=
  let fields := stored.map fun row => row.map StoredValue.field
  let columns := storedColumns fields 0 declared
  ofRows columns (fields.map fun row => List.zipWith (fun f c => f.coerce c.type) row columns)

end QueryResult

end ScriptBridge
