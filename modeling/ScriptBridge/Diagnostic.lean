/-!
# Diagnostics

Every part of the library that refuses something has a type for the causes. All these
types can tell the name of a cause and what is wrong in words.
-/

namespace ScriptBridge

/-- **A type of errors** that can be told to people and to programs. -/
class Diagnostic (ε : Type) where
  kind : ε → String
  message : ε → String

end ScriptBridge
