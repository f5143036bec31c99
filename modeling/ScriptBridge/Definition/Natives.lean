import ScriptBridge.Definition.Line

/-!
# Native names

The natives that a script may provide are listed by name, one to a line. A name holds
letters of the basic alphabet and underscores, and each name stands once. Programs learn
the names through a table with `maxNatives` places, so a longer list is refused.
-/

namespace ScriptBridge.NativeNames

/-- The number of natives that scripts can provide. -/
def maxNatives : Nat := 255

/-- Whether a character may stand in a name. -/
def isNameChar (c : Char) : Bool :=
  ('a' ≤ c && c ≤ 'z') || ('A' ≤ c && c ≤ 'Z') || c == '_'

/-- Add the names of content lines to those that came before, up to the first that is refused. -/
def addLines (names : List String) : List (Nat × List Char) → Except DefinitionError (List String)
  | [] => .ok names
  | (number, line) :: lines =>
    let name := String.ofList line
    if !line.all isNameChar then .error (.malformed number .nativeName name)
    else if names.contains name then .error (.duplicate name number)
    else if names.length = maxNatives then .error (.tooMany maxNatives)
    else addLines (names ++ [name]) lines

/-- **Read a list of names.** -/
def parse (text : String) : Except DefinitionError (List String) :=
  addLines [] (Definition.contentLines text.toList)

/-- Read a list of names from the bytes of a file. -/
def ofFile (path : String) (file : Except FileProblem (List UInt8)) :
    Except DefinitionError (List String) :=
  match Definition.readText path file with
  | .ok text => parse text
  | .error e => .error e

end ScriptBridge.NativeNames
