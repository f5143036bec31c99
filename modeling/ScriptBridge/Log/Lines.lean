import ScriptBridge.Text.Blank
import ScriptBridge.Text.CodePage
import ScriptBridge.Text.Utf8

/-!
# Lines of the server log

The server prints one line at a time, takes text of its code page and cuts off what is too
long. So a text is split into lines, blank lines are left out, and each line gets a mark
in front that tells where it comes from. It is then converted and cut into pieces that the
server prints whole. A zero byte would end a piece early and is taken out.
-/

namespace ScriptBridge.Log

/-- A line as the server prints it. -/
abbrev Line := List UInt8

/-- The largest number of bytes of a piece. -/
def maxPiece : Nat := 2048

/-- What stands in front of every line. -/
def mark : String := "[pawnbridge] "

/-- Bytes cut into pieces of at most `size`. The number bounds the pieces. -/
def cut (size : Nat) : Nat → List UInt8 → List (List UInt8)
  | 0, _ => []
  | _, [] => []
  | pieces + 1, bytes => bytes.take size :: cut size pieces (bytes.drop size)

/-- The pieces of one line. -/
def pieces (line : List Char) : List Line :=
  let encoded := CodePage.encode (mark ++ String.ofList line)
  (cut maxPiece encoded.length encoded).map fun piece => piece.filter (· != 0)

/-- Whether a line holds more than blanks. -/
def isVisible (line : List Char) : Bool := !(Text.trim line).isEmpty

/-- **The lines to print for a text**, which comes as bytes. -/
def emit (text : List UInt8) : List Line :=
  ((Text.lines (Utf8.lossy text).toList).filter isVisible).flatMap pieces

end ScriptBridge.Log
