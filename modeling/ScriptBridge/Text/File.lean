import ScriptBridge.Text.Utf8

/-!
# Files that hold text

A file is read as a whole. It may not be there, a folder may be in its place, a file may stand
where its path needs a folder, and what it holds may not be text.
-/

namespace ScriptBridge

/-- **Why a file cannot be read.** -/
inductive FileProblem where
  | missing
  | folder
  | notFolder
  | notText
  deriving DecidableEq

/-- What is wrong, in the words of the system. -/
def FileProblem.message : FileProblem → String
  | .missing => "No such file or directory (os error 2)"
  | .folder => "Is a directory (os error 21)"
  | .notFolder => "Not a directory (os error 20)"
  | .notText => "stream did not contain valid UTF-8"

/-- **The text of a file**, given its bytes. -/
def Text.ofBytes (bytes : List UInt8) : Except FileProblem String :=
  match Utf8.strict? bytes with
  | some text => .ok text
  | none => .error .notText

end ScriptBridge
