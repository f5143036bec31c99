import ScriptBridge.Diagnostic
import ScriptBridge.Text.Blank
import ScriptBridge.Text.File

/-!
# Definition files

Callbacks and native names are declared in text files, one declaration to a line. Blank
lines and lines that start with `#` or `//` are skipped, and every other line is a
content line. Lines are numbered from one, the skipped ones included, so that an error
can point at the place in the file.
-/

namespace ScriptBridge

/-- **What is wrong with a declaration.** -/
inductive DeclarationProblem where
  | annotations
  | keyword
  | argumentsMissing
  | nameMissing
  | argumentsOpen
  | textOpen
  | floatText
  | argumentNameMissing
  | nativeName
  deriving DecidableEq

/-- The problem in words. -/
def DeclarationProblem.message : DeclarationProblem → String
  | .annotations => "unable to parse the annotations"
  | .keyword => "expected keyword \"forward\""
  | .argumentsMissing => "unable to find the arguments"
  | .nameMissing => "missing callback name"
  | .argumentsOpen => "unable to find the end of the arguments"
  | .textOpen => "unterminated string argument"
  | .floatText => "float arguments cannot be strings"
  | .argumentNameMissing => "missing argument name"
  | .nativeName => "native names may only contain letters and underscores"

/-- **Why a definition file is refused.** Line numbers start at one. -/
inductive DefinitionError where
  | unreadable (path : String) (problem : FileProblem)
  | malformed (line : Nat) (problem : DeclarationProblem) (text : String)
  | duplicate (name : String) (line : Nat)
  | tooMany (limit : Nat)
  deriving DecidableEq

/-- The name of the cause. -/
def DefinitionError.kind : DefinitionError → String
  | .unreadable _ _ => "Io"
  | .malformed _ _ _ => "Syntax"
  | .duplicate _ _ => "Duplicate"
  | .tooMany _ => "TooMany"

/-- What is wrong, in words. -/
def DefinitionError.message : DefinitionError → String
  | .unreadable path problem => s!"Failed to read {path}: {problem.message}"
  | .malformed line problem text =>
    s!"Syntax error on line {line}: {problem.message} (\"{text}\")"
  | .duplicate name line => s!"Duplicate definition of {name} on line {line}"
  | .tooMany limit => s!"Too many definitions: at most {limit} are supported"

instance : Diagnostic DefinitionError := ⟨DefinitionError.kind, DefinitionError.message⟩

namespace Definition

/-- Whether a trimmed line declares something. -/
def isContent (line : List Char) : Bool :=
  match line with
  | [] => false
  | '#' :: _ => false
  | '/' :: '/' :: _ => false
  | _ => true

/-- Trimmed lines with their numbers, counted from `number`. -/
def numbered : Nat → List (List Char) → List (Nat × List Char)
  | _, [] => []
  | number, line :: lines => (number, Text.trim line) :: numbered (number + 1) lines

/-- **The content lines of a file**, trimmed, each with its number. -/
def contentLines (text : List Char) : List (Nat × List Char) :=
  (numbered 1 (Text.lines text)).filter fun line => isContent line.2

/-- The text of the file at a path, given its bytes unless they cannot be had. -/
def readText (path : String) (file : Except FileProblem (List UInt8)) : Except DefinitionError String :=
  (file.bind Text.ofBytes).mapError (.unreadable path)

end Definition

end ScriptBridge
