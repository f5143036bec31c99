import ScriptBridge.Value.Bag

/-!
# Callbacks

A callback is a public function of a program whose executions are intercepted. Its
declaration says how to read the arguments off the stack and what may be done with the
call. `representation` writes a call for the log.
-/

namespace ScriptBridge

/-- How an argument lies on the stack: as a cell, as a float in a cell, or as the address of a text. -/
inductive ArgumentKind where
  | integer
  | float
  | text
  deriving DecidableEq, Inhabited

/-- The name of a kind. -/
def ArgumentKind.name : ArgumentKind → String
  | .integer => "integer"
  | .float => "float"
  | .text => "string"

/-- **An intercepted public function.** A handler may suppress a `cancelable` call, which then
answers `returnValue`. A `deferred` call is delivered in the next frame. A call that
`unloadsProgram` is the last one of its program. -/
structure Callback where
  name : String
  arguments : List (String × ArgumentKind) := []
  cancelable : Bool := false
  deferred : Bool := false
  unloadsProgram : Bool := false
  returnValue : Cell := 0
  deriving DecidableEq, Inhabited

namespace Callback

/-- A value as the log shows it. Texts stand between quotes as they are. -/
def valueText : ArgumentValue → String
  | .integer value => toString value.toInt
  | .float value => value.text
  | .text value => "\"" ++ value ++ "\""
  | .cells values => "[" ++ ", ".intercalate (values.map fun word => toString word.toNat) ++ "]"

/-- An argument as the log shows it; a question mark stands for a missing value. -/
def argumentText (bag : Bag) (name : String) : String :=
  name ++ "=" ++ ((bag.get? name).map valueText).getD "?"

/-- **A call as the log shows it**, such as `OnPlayerText(playerid=3, text="hey")`. -/
def representation (callback : Callback) (bag : Bag) : String :=
  callback.name ++ "(" ++
    ", ".intercalate (callback.arguments.map fun argument => argumentText bag argument.1) ++ ")"

end Callback

end ScriptBridge
