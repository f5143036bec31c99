import ScriptBridge.Log.Lines
import ScriptBridge.Text.Quoted

/-!
# Events in the log

An event has a level, a message and fields. It is written as a line: the level in five
columns, the message, and each field with its name.
-/

namespace ScriptBridge.Log

/-- **How important an event is.** -/
inductive Level where
  | trace
  | debug
  | info
  | warn
  | error
  deriving DecidableEq, Inhabited

/-- A level in five columns. -/
def Level.column : Level → String
  | .trace => "TRACE"
  | .debug => "DEBUG"
  | .info => " INFO"
  | .warn => " WARN"
  | .error => "ERROR"

/-- **The value of a field.** Plain texts are written as they are, others between quotes. -/
inductive FieldText where
  | number (value : Int)
  | plain (text : String)
  | quoted (text : String)
  deriving DecidableEq, Inhabited

/-- A value as it is written. -/
def FieldText.text : FieldText → String
  | .number value => toString value
  | .plain text => text
  | .quoted text => Text.quoted text

/-- **An event.** -/
structure Event where
  level : Level
  message : String
  fields : List (String × FieldText) := []
  deriving DecidableEq, Inhabited

namespace Event

/-- A field with its name. -/
def fieldText (field : String × FieldText) : String := " " ++ field.1 ++ "=" ++ field.2.text

/-- **The event as text.** -/
def text (event : Event) : String :=
  event.level.column ++ " " ++ event.message ++ String.join (event.fields.map fieldText)

/-- The event as lines of the log. -/
def lines (event : Event) : List Line := emit (Utf8.encode event.text)

end Event

end ScriptBridge.Log
