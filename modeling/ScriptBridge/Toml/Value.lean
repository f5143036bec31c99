/-!
# Values of configuration documents

A configuration is written in TOML. A document is a table, and a table leads from names to
values. Numbers with a fraction and dates are recognised but mean nothing to the library,
so their values keep only that they are such.
-/

namespace ScriptBridge.Toml

/-- **A value.** An array of tables is an array whose entries are tables. -/
inductive Value where
  | text (text : String)
  | integer (value : Int)
  | float
  | boolean (value : Bool)
  | date
  | array (entries : List Value)
  | table (entries : List (String × Value))
  deriving Inhabited

end ScriptBridge.Toml
